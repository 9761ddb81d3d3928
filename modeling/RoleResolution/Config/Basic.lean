/-!
# Configuration

Settings of registries and resolvers. Every setting has a default, so every part of a
configuration may be left out.
-/

namespace RoleResolution

/-- What a check over held roles does when the conversions of one role run into a cycle. -/
inductive CyclePolicy where
  /-- Count the role as not satisfying and go on. -/
  | skipCandidate
  /-- End the whole check with the cycle error. -/
  | abortAll
  deriving DecidableEq, Repr

namespace CyclePolicy

/-- The name of a policy. -/
def name : CyclePolicy → String
  | .skipCandidate => "skip_candidate"
  | .abortAll => "abort_all"

/-- The policy of a name. -/
def ofName? (name : String) : Option CyclePolicy :=
  [skipCandidate, abortAll].find? (·.name == name)

end CyclePolicy

/-- Settings of registry construction. -/
structure RegistryConfig where
  /-- Whether a registry whose conversions form a cycle is rejected. -/
  rejectConversionCycles : Bool := false
  deriving DecidableEq, Repr

/-- Settings of a resolver. -/
structure ResolverConfig where
  cyclePolicy : CyclePolicy := .skipCandidate
  /-- Whether every check is logged in full. -/
  traceAllKinds : Bool := false
  deriving DecidableEq, Repr

/-- A complete configuration. -/
structure Config where
  registry : RegistryConfig := {}
  resolver : ResolverConfig := {}
  deriving DecidableEq, Repr

end RoleResolution

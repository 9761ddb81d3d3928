import RoleResolution.Config.Basic
import RoleResolution.Registry.Basic
import RoleResolution.Resolver.Tracker

/-!
# Resolving one check

A check asks whether a provided role satisfies a required role. The direct rules come first, in
this order: identity, the unconditional passes, the attribute rules and the delegated
predicates of the required kind. A delegated predicate is invoked only when all its guards
hold. If no direct rule grants the role, the provided role is converted by each conversion of
its kind in turn, and every result is examined in the same way before the next conversion is
tried; the first grant ends the search.

A session is threaded through the search and survives every outcome: it holds the tracker, the
invocations of caller's functions and the events.
-/

namespace RoleResolution

/-- What a resolution leaves behind, whatever its outcome. -/
structure Session (κ : Type) where
  tracker : CycleTracker κ := {}
  /-- The invocations of caller's functions, in order. -/
  history : History κ := []
  /-- The events, in order. -/
  events : List (Event κ) := []

namespace Session

variable {κ : Type}

/-- Report an event. -/
def report (s : Session κ) (e : Event κ) : Session κ := { s with events := s.events ++ [e] }

/-- Record an invocation. -/
def record (s : Session κ) (i : Invocation κ) : Session κ :=
  { s with history := s.history ++ [i] }

/-- Continue with another tracker. -/
def track (s : Session κ) (t : CycleTracker κ) : Session κ := { s with tracker := t }

end Session

/-- How a check ended: the rule that granted the role, if any, and the kinds that the provided
role was converted into on the way to it. -/
structure Resolution (κ : Type) where
  rule : Option MatchedRule
  path : List κ
  deriving DecidableEq, Repr

namespace Resolution

variable {κ : Type}

/-- Satisfied by a rule at the end of a path of conversions. -/
def granted (rule : MatchedRule) (path : List κ) : Resolution κ := ⟨some rule, path⟩

/-- Not satisfied. -/
def denied : Resolution κ := ⟨none, []⟩

/-- Whether the provided role satisfies the required one. -/
def isSatisfied (r : Resolution κ) : Bool := r.rule.isSome

/-- The number of conversions. -/
def hops (r : Resolution κ) : Nat := r.path.length

end Resolution

/-- A registry with the settings of its checks. -/
structure Resolver {κ : Type} (K : KindSet κ) where
  registry : Registry K
  config : ResolverConfig := {}

/-- The outcome of a step of a check, with the session afterwards. -/
abbrev Outcome (κ : Type) (α : Type) := Except (Failure (CycleError κ)) α × Session κ

namespace Resolver

variable {κ : Type} {K : KindSet κ}

/-- Whether checks that involve a kind are logged in full. -/
def logs (r : Resolver K) (kind : κ) : Except Fault Bool :=
  if r.config.traceAllKinds then .ok true
  else (r.registry.lookup kind).map (·.logging)

/-- Whether a check is logged in full: the required or the provided kind asks for it. -/
def logsCheck (r : Resolver K) (required provided : κ) : Except Fault Bool := do
  if ← r.logs required then return true
  r.logs provided

variable [DecidableEq κ]

/-- The first delegated predicate that grants the role: it is for the provided kind, its guards
hold and it answers true. The owner is the kind of the definition that holds the rules. -/
def firstPredicate (owner : κ) (required provided : Role κ) :
    List (DelegatedPredicate κ × Nat) → Session κ → Option Nat × Session κ
  | [], s => (none, s)
  | (rule, index) :: rest, s =>
    if rule.providedKind ≠ provided.kind then firstPredicate owner required provided rest s
    else if rule.guardsHold provided.payload required.payload then
      let answer := rule.predicate s.history provided.payload required.payload
      let s := s.record (.predicate owner index provided.payload required.payload answer)
      if answer then (some index, s) else firstPredicate owner required provided rest s
    else firstPredicate owner required provided rest (s.report (.guardMismatch index))

/-- The position of the first attribute rule that grants the role. -/
def firstAttributeRule? (d : RoleDefinition κ) (required provided : Role κ) : Option Nat :=
  d.attributeRules.findIdx? fun rule ↦
    rule.providedKind = provided.kind && rule.holds provided.payload required.payload

/-- The first direct rule of a definition that grants a role other than the required one. -/
def matchRules (d : RoleDefinition κ) (required provided : Role κ) (s : Session κ) :
    Option MatchedRule × Session κ :=
  if d.passesKind provided.kind then (some .unconditionalPass, s)
  else match firstAttributeRule? d required provided with
    | some index => (some (.attributeRule index), s)
    | none =>
      let (index?, s) := firstPredicate d.kind required provided d.delegated.zipIdx s
      (index?.map .delegatedPredicate, s)

/-- The first direct rule that grants the role. -/
def matchDirect (R : Registry K) (required provided : Role κ) (s : Session κ) :
    Outcome κ (Option MatchedRule) :=
  if required == provided then (.ok (some .identity), s)
  else match R.lookup required.kind with
    | .error fault => (.error (.fault fault), s)
    | .ok d =>
      let (rule?, s) := matchRules d required provided s
      (.ok rule?, s)

/-- A search from a provided role: the granting rule with the path of conversions to it. -/
abbrev SearchFrom (κ : Type) :=
  Role κ → Session κ → Outcome κ (Option (MatchedRule × List κ))

/-- Try conversions of a role in order, each with the whole search from its result, until one
leads to a grant or a failure. -/
def tryConversions (search : SearchFrom κ) (owner : κ) (provided : Role κ) :
    List (ConversionRule κ × Nat) → Session κ → Outcome κ (Option (MatchedRule × List κ))
  | [], s => (.ok none, s)
  | (rule, index) :: rest, s =>
    let answer := rule.conversion s.history provided.payload
    let s := s.record (.conversion owner index provided.payload answer)
    match answer with
    | none =>
      tryConversions search owner provided rest
        (s.report (.conversionDeclined provided.kind rule.targetKind))
    | some payload =>
      let converted : Role κ := ⟨rule.targetKind, payload⟩
      match search converted (s.report (.roleConverted provided converted)) with
      | (.ok (some (rule', path)), s) => (.ok (some (rule', rule.targetKind :: path)), s)
      | (.ok none, s) => tryConversions search owner provided rest s
      | (.error failure, s) => (.error failure, s)

/-- Examine one role: the direct rules, then its conversions, which go on with `search`. -/
def examine (R : Registry K) (required : Role κ) (search : SearchFrom κ) : SearchFrom κ :=
  fun provided s ↦
    match matchDirect R required provided s with
    | (.error failure, s) => (.error failure, s)
    | (.ok (some rule), s) =>
      (.ok (some (rule, [])), s.report (.directRuleMatched provided rule))
    | (.ok none, s) =>
      match R.lookup provided.kind with
      | .error fault => (.error (.fault fault), s)
      | .ok d =>
        if d.conversions.isEmpty then (.ok none, s)
        else match s.tracker.enter K provided.kind with
          | (.error failure, t) => (.error failure, s.track t)
          | (.ok (), t) =>
            tryConversions search d.kind provided d.conversions.zipIdx (s.track t)

/-- Search along chains of at most `hops` conversions. -/
def searchWithin (R : Registry K) (required : Role κ) : Nat → SearchFrom κ
  | 0 => examine R required fun _ s ↦ (.error (.fault .chainOverrun), s)
  | hops + 1 => examine R required (searchWithin R required hops)

/-- Search along all chains of conversions. A conversion is tried only after its kind was
entered, and no more kinds can be entered than are listed. -/
def search (R : Registry K) (required : Role κ) : SearchFrom κ :=
  searchWithin R required K.count

/-- Resolve a check, going on with a session. -/
def resolveIn (r : Resolver K) (required provided : Role κ) (s : Session κ) :
    Outcome κ (Resolution κ) :=
  match search r.registry required provided s with
  | (.error failure, s) => (.error failure, s)
  | (.ok found, s) =>
    let resolution := match found with
      | some (rule, path) => Resolution.granted rule path
      | none => Resolution.denied
    match r.logsCheck required.kind provided.kind with
    | .error fault => (.error (.fault fault), s)
    | .ok true =>
      (.ok resolution,
        s.report (.roleChecked required provided resolution.rule resolution.hops))
    | .ok false =>
      (.ok resolution, s.report (.roleCheckedBriefly required provided resolution.isSatisfied))

/-- Resolve a check with a tracker of the caller's. -/
def resolveWith (r : Resolver K) (required provided : Role κ) (t : CycleTracker κ) :
    Outcome κ (Resolution κ) :=
  r.resolveIn required provided ⟨t, [], []⟩

/-- Resolve a check with a fresh tracker. -/
def resolve (r : Resolver K) (required provided : Role κ) : Outcome κ (Resolution κ) :=
  r.resolveWith required provided {}

/-- Whether a provided role satisfies a required one, going on with a session. -/
def satisfiesIn (r : Resolver K) (required provided : Role κ) (s : Session κ) :
    Outcome κ Bool :=
  match r.resolveIn required provided s with
  | (.ok resolution, s) => (.ok resolution.isSatisfied, s)
  | (.error failure, s) => (.error failure, s)

/-- Whether a provided role satisfies a required one, with a tracker of the caller's. -/
def satisfiesWith (r : Resolver K) (required provided : Role κ) (t : CycleTracker κ) :
    Outcome κ Bool :=
  r.satisfiesIn required provided ⟨t, [], []⟩

/-- Whether a provided role satisfies a required one, with a fresh tracker. -/
def satisfies (r : Resolver K) (required provided : Role κ) : Outcome κ Bool :=
  r.satisfiesWith required provided {}

end Resolver
end RoleResolution

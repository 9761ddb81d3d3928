import RoleResolution.Config.Basic

/-!
# Reading configurations

A configuration is read from data of any format, seen through its `Shape`. A section, and the
whole configuration too, is a table of its fields or a list of them in declaration order. What
is left out takes its default, a table may have keys that no section knows, and a known key may
be given once only. A policy is its name, or a table whose only key is its name.
-/

namespace RoleResolution.Config

/-- The aspects of a datum that matter for a configuration. -/
inductive Shape (ν : Type) where
  | flag (value : Bool)
  | text (value : String)
  | table (entries : List (String × ν))
  | list (items : List ν)
  | other

/-- A format in which configurations are written. -/
structure Format (ν : Type) where
  /-- The shape of a datum, or `none` when the datum is malformed. -/
  shape? : ν → Option (Shape ν)
  /-- Whether a datum may stand beside the name of a policy. -/
  isBare : ν → Bool
  /-- Whether a list may go on after the last field. -/
  allowsSurplus : Bool

/-- The datum under a key; a repeated key has none that counts. -/
def entry? {ν : Type} (key : String) (entries : List (String × ν)) : Option (Option ν) :=
  match (entries.filter fun e ↦ e.1 == key).map Prod.snd with
  | [] => some none
  | [v] => some (some v)
  | _ => none

namespace Format

variable {ν : Type} (f : Format ν)

/-- The data of the fields with the given keys, each absent or present. -/
def fields? (keys : List String) (v : ν) : Option (List (Option ν)) := do
  match ← f.shape? v with
  | .table entries => keys.mapM fun key ↦ entry? key entries
  | .list items =>
    if f.allowsSurplus || items.length ≤ keys.length then
      some (keys.zipIdx.map fun key ↦ items[key.2]?)
    else none
  | _ => none

/-- Read what is present, and take the default of what is absent. -/
def orDefault {α : Type} (read? : ν → Option α) (default : α) : Option ν → Option α
  | none => some default
  | some v => read? v

/-- Read a truth value. -/
def flag? (v : ν) : Option Bool := do
  match ← f.shape? v with
  | .flag value => some value
  | _ => none

/-- Read a policy. -/
def policy? (v : ν) : Option CyclePolicy := do
  match ← f.shape? v with
  | .text name => CyclePolicy.ofName? name
  | .table [(name, datum)] => if f.isBare datum then CyclePolicy.ofName? name else none
  | _ => none

/-- Read the settings of registry construction. -/
def registryConfig? (v : ν) : Option RegistryConfig := do
  match ← f.fields? ["reject_conversion_cycles"] v with
  | [reject] => some ⟨← orDefault f.flag? false reject⟩
  | _ => none

/-- Read the settings of a resolver. -/
def resolverConfig? (v : ν) : Option ResolverConfig := do
  match ← f.fields? ["cycle_policy", "trace_all_kinds"] v with
  | [policy, trace] =>
    some ⟨← orDefault f.policy? .skipCandidate policy, ← orDefault f.flag? false trace⟩
  | _ => none

/-- Read a configuration. -/
def config? (v : ν) : Option Config := do
  match ← f.fields? ["registry", "resolver"] v with
  | [registry, resolver] =>
    some ⟨← orDefault f.registryConfig? {} registry, ← orDefault f.resolverConfig? {} resolver⟩
  | _ => none

end Format
end RoleResolution.Config

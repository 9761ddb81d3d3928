import RoleResolution.Config.Basic
import RoleResolution.Conversion.Cycles
import RoleResolution.Registry.Basic

/-!
# Building registries

A builder collects definitions of different kinds. Building places each definition at the index
of its kind and checks, in this order, that

* every listed kind reports its place in the list as its index;
* no definition belongs to an index past the list;
* every kind that a rule refers to has a definition at its index;
* every index has a definition, and if one has none, the list says which kind is missing;
* every field that an attribute rule or a guard names is declared, on the required side by the
  owner of the rule and on the provided side by the kind that the rule applies to;
* if the configuration says so, no conversions form a cycle.

Cycles are reported as events in any case.
-/

namespace RoleResolution

/-- Why definitions do not make a registry. -/
inductive BuildError (κ : Type) where
  | duplicateDefinition (kind : κ)
  | inconsistentIndex (kind : κ) (reported expected : Nat)
  | unlistedKind (kind : κ)
  | danglingKind (owner : κ) (family : RuleFamily) (referenced : κ)
  | missingDefinition (kind : κ)
  | unknownField (owner kind : κ) (field : String)
  | conversionCycle (path : List κ)
  deriving DecidableEq, Repr

/-- The wording of the error. -/
def BuildError.message {κ : Type} (K : KindSet κ) : BuildError κ → String
  | duplicateDefinition kind =>
    "Registry error: Duplicate definition for role kind: " ++ K.name kind
  | inconsistentIndex kind reported expected =>
    "Registry error: Role kind " ++ K.name kind ++ " reports index " ++ reported.repr ++
      " but is listed at position " ++ expected.repr
  | unlistedKind kind =>
    "Registry error: Role kind " ++ K.name kind ++ " is not listed in the closed kind set"
  | danglingKind owner family referenced =>
    "Registry error: Role kind " ++ K.name owner ++ " references undeclared role kind " ++
      K.name referenced ++ " in " ++ family.label
  | missingDefinition kind =>
    "Registry error: No definition for role kind: " ++ K.name kind
  | unknownField owner kind field =>
    "Registry error: Role kind " ++ K.name owner ++ " references unknown field '" ++ field ++
      "' of role kind " ++ K.name kind
  | conversionCycle path =>
    "Registry error: Conversion cycle detected: " ++ K.pathText path

/-- Definitions of different kinds, in the order in which they were accepted. -/
structure RegistryBuilder (κ : Type) where
  definitions : List (RoleDefinition κ) := []
  config : RegistryConfig := {}

namespace RegistryBuilder

variable {κ : Type} [DecidableEq κ]

/-- Add a definition, unless its kind has one: the builder afterwards, and how it went. -/
def define (b : RegistryBuilder κ) (d : RoleDefinition κ) :
    RegistryBuilder κ × Except (BuildError κ) Unit :=
  if b.definitions.any fun e ↦ e.kind = d.kind then (b, .error (.duplicateDefinition d.kind))
  else ({ b with definitions := b.definitions ++ [d] }, .ok ())

/-- Add definitions until one is refused; those before it stay. -/
def defineAll (b : RegistryBuilder κ) :
    List (RoleDefinition κ) → RegistryBuilder κ × Except (BuildError κ) Unit
  | [] => (b, .ok ())
  | d :: rest =>
    match b.define d with
    | (b, .ok ()) => b.defineAll rest
    | (b, .error e) => (b, .error e)

end RegistryBuilder

namespace Registry

variable {κ : Type} (K : KindSet κ)

/-- A listed kind that does not report its place in the list. -/
def misindexed? : Option (BuildError κ) :=
  (K.all.zipIdx.find? fun entry ↦ K.index entry.1 ≠ entry.2).map fun entry ↦
    .inconsistentIndex entry.1 (K.index entry.1) entry.2

/-- A definition whose index lies past the list. -/
def unlisted? (definitions : List (RoleDefinition κ)) : Option (BuildError κ) :=
  (definitions.find? fun d ↦ K.count ≤ K.index d.kind).map fun d ↦ .unlistedKind d.kind

/-- The definitions by index; the last one of an index takes the place. -/
def slots (definitions : List (RoleDefinition κ)) : List (Option (RoleDefinition κ)) :=
  (List.range K.count).map fun i ↦ definitions.reverse.find? fun d ↦ K.index d.kind == i

/-- Whether the index of a kind has a definition. -/
def isDefined (slots : List (Option (RoleDefinition κ))) (kind : κ) : Bool :=
  match slots[K.index kind]? with
  | some (some _) => true
  | _ => false

/-- A reference to a kind without definition. -/
def dangling? (slots : List (Option (RoleDefinition κ))) : Option (BuildError κ) :=
  (slots.filterMap id).findSome? fun d ↦
    (d.references.find? fun reference ↦ !isDefined K slots reference.2).map fun reference ↦
      .danglingKind d.kind reference.1 reference.2

/-- The pairs of fields that the rules of a definition compare: those of its attribute rules,
then those of its guards. -/
def comparedFields (d : RoleDefinition κ) : List (AttributeRule κ) :=
  d.attributeRules ++ d.delegated.flatMap fun rule ↦ rule.guards.map fun guard ↦
    ⟨guard.providedField, guard.requiredField, rule.providedKind⟩

/-- Check that both fields of every pair are declared, pair by pair. -/
def checkFields (definitions : List (RoleDefinition κ)) :
    List (RoleDefinition κ × AttributeRule κ) → Except (Failure (BuildError κ)) Unit
  | [] => .ok ()
  | (owner, pair) :: rest =>
    if owner.declares pair.requiredField then
      match definitions[K.index pair.providedKind]? with
      | none => .error (.fault .indexOutOfRange)
      | some d =>
        if d.declares pair.providedField then checkFields definitions rest
        else .error (.error (.unknownField owner.kind pair.providedKind pair.providedField))
    else .error (.error (.unknownField owner.kind owner.kind pair.requiredField))

/-- Pass unless there is an error. -/
def refuse : Option (BuildError κ) → Except (Failure (BuildError κ)) Unit
  | some e => .error (.error e)
  | none => .ok ()

/-- Pass unless an index has no definition; the error is in the name of the kind that the list has
there. -/
def refuseEmpty (slots : List (Option (RoleDefinition κ))) :
    Except (Failure (BuildError κ)) Unit :=
  match slots.findIdx? (·.isNone) with
  | none => .ok ()
  | some position =>
    match K.all[position]? with
    | some kind => .error (.error (.missingDefinition kind))
    | none => .error (.fault .indexOutOfRange)

/-- The definitions by index, when every check but the one for cycles passes. -/
def arrange (definitions : List (RoleDefinition κ)) :
    Except (Failure (BuildError κ)) (List (RoleDefinition κ)) := do
  refuse (misindexed? K)
  refuse (unlisted? K definitions)
  let places := slots K definitions
  refuse (dangling? K places)
  refuseEmpty K places
  let arranged := places.filterMap id
  checkFields K arranged (arranged.flatMap fun d ↦ (comparedFields d).map (d, ·))
  return arranged

end Registry

namespace RegistryBuilder

variable {κ : Type} [DecidableEq κ]

/-- Build a registry, and say what was done. -/
def build (K : KindSet κ) (b : RegistryBuilder κ) :
    Except (Failure (BuildError κ)) (Registry K) × List (Event κ) :=
  match Registry.arrange K b.definitions with
  | .error failure => (.error failure, [])
  | .ok definitions =>
    let graph := ConversionGraph.ofDefinitions definitions
    match graph.detectCycles K with
    | .error fault => (.error (.fault fault), [])
    | .ok cycles =>
      let warnings := cycles.map .conversionCycle
      match b.config.rejectConversionCycles, cycles with
      | true, path :: _ => (.error (.error (.conversionCycle path)), warnings)
      | _, _ =>
        (.ok ⟨definitions⟩,
          warnings ++ [.registryBuilt K.count graph.edgeCount cycles.length])

end RegistryBuilder

/-- Build a registry from a list of definitions, and say what was done. -/
def Registry.build {κ : Type} [DecidableEq κ] (K : KindSet κ) (config : RegistryConfig)
    (definitions : List (RoleDefinition κ)) :
    Except (Failure (BuildError κ)) (Registry K) × List (Event κ) :=
  match RegistryBuilder.defineAll ⟨[], config⟩ definitions with
  | (b, .ok ()) => b.build K
  | (_, .error e) => (.error (.error e), [])

end RoleResolution

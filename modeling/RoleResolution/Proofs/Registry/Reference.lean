import RoleResolution.Registry.Builder

/-!
# What rules refer to

The rules of a definition refer to kinds and name fields of two kinds. A reference stands at a
position of its family, and the families come in the order of their ranks. A comparison of two
fields stands at the position of its attribute rule, or at the position of its guard among the
guards of a delegated predicate; the attribute rules come first.
-/

namespace RoleResolution

variable {κ : Type}

/-- The place of a family among the families. -/
def RuleFamily.rank : RuleFamily → Nat
  | .unconditionalPass => 0
  | .attributeRule => 1
  | .delegatedPredicate => 2
  | .conversion => 3

namespace RoleDefinition

variable (d : RoleDefinition κ)

/-- The rule at a position of a family refers to a kind. -/
def RefersAt (family : RuleFamily) (position : Nat) (kind : κ) : Prop :=
  match family with
  | .unconditionalPass => d.passes[position]? = some kind
  | .attributeRule => ∃ rule, d.attributeRules[position]? = some rule ∧ rule.providedKind = kind
  | .delegatedPredicate => ∃ rule, d.delegated[position]? = some rule ∧ rule.providedKind = kind
  | .conversion => ∃ rule, d.conversions[position]? = some rule ∧ rule.targetKind = kind

/-- Some rule refers to a kind. -/
def RefersTo (kind : κ) : Prop := ∃ family position, d.RefersAt family position kind

/-- Two fields are compared at a place, the provided one in roles of the kind of the pair. -/
inductive ComparesAt : List Nat → AttributeRule κ → Prop where
  | rule {i : Nat} {rule : AttributeRule κ} (declared : d.attributeRules[i]? = some rule) :
      ComparesAt [0, i] rule
  | guard {i j : Nat} {rule : DelegatedPredicate κ} {guard : GuardKey}
      (declared : d.delegated[i]? = some rule) (guarded : rule.guards[j]? = some guard) :
      ComparesAt [1, i, j] ⟨guard.providedField, guard.requiredField, rule.providedKind⟩

/-- There is a schema, and it does not have a field. -/
def Lacks (field : String) : Prop := ∃ schema, d.schema = some schema ∧ field ∉ schema.names

variable {d}

private theorem exists_mem_iff {α : Type} {xs : List α} {p : α → Prop} :
    (∃ x ∈ xs, p x) ↔ ∃ (i : Nat) (x : α), xs[i]? = some x ∧ p x := by
  constructor
  · rintro ⟨x, hx, hp⟩
    obtain ⟨i, hi⟩ := List.mem_iff_getElem?.mp hx
    exact ⟨i, x, hi, hp⟩
  · rintro ⟨i, x, hi, hp⟩
    exact ⟨x, List.mem_of_getElem? hi, hp⟩

/-- The listed references are those of the rules. -/
theorem mem_references {family : RuleFamily} {kind : κ} :
    (family, kind) ∈ d.references ↔ ∃ position, d.RefersAt family position kind := by
  cases family with
  | unconditionalPass => simpa [references, RefersAt] using List.mem_iff_getElem?
  | attributeRule => simpa [references, RefersAt] using exists_mem_iff
  | delegatedPredicate => simpa [references, RefersAt] using exists_mem_iff
  | conversion => simpa [references, RefersAt] using exists_mem_iff

end RoleDefinition

/-- A field is present exactly when it is among the names. -/
theorem FieldMap.contains_iff {α : Type} {m : FieldMap α} {name : String} :
    m.contains name = true ↔ name ∈ m.names := by
  unfold contains get? names
  induction m.entries with
  | nil => simp
  | cons entry rest ih =>
    obtain ⟨n, v⟩ := entry
    rw [List.lookup_cons, List.map_cons, List.mem_cons, ← ih]
    by_cases h : name = n
    · simp [h]
    · simp [beq_false_of_ne h, h]

/-- A field is undeclared exactly when there is a schema without it. -/
theorem RoleDefinition.declares_eq_false_iff {d : RoleDefinition κ} {field : String} :
    d.declares field = false ↔ d.Lacks field := by
  unfold declares Lacks
  cases d.schema with
  | none => simp
  | some schema => simp [← FieldMap.contains_iff]

end RoleResolution

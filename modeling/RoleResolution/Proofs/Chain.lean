import Mathlib.Data.List.Lex
import RoleResolution.Proofs.Conversion.Feedback
import RoleResolution.Proofs.DirectRule

/-!
# Chains of conversions

A chain is named by the positions of its conversion rules, so chains from one role are ordered
as lists of numbers are: at the first difference, and with every chain after its beginnings.
That is the order in which a search examines the roles that the chains end in.
-/

namespace RoleResolution

variable {κ : Type} {K : KindSet κ}

namespace Registry

/-- The conversion rule at a position of a role's kind applies and gives another role. -/
def Step (R : Registry K) (v : Role κ) (index : Nat) (u : Role κ) : Prop :=
  ∃ d rule payload, R.lookup v.kind = .ok d ∧ d.conversions[index]? = some rule ∧
    rule.convert v.payload = some payload ∧ u = ⟨rule.targetKind, payload⟩

/-- A kind has at least one conversion rule. -/
def Converts (R : Registry K) (kind : κ) : Prop :=
  ∃ d, R.lookup kind = .ok d ∧ d.conversions ≠ []

variable {R : Registry K} {u u' v : Role κ} {index : Nat}

/-- A conversion rule gives one role at most. -/
theorem Step.unique (h : R.Step v index u) (h' : R.Step v index u') : u = u' := by
  obtain ⟨d, rule, payload, hd, hr, hc, rfl⟩ := h
  obtain ⟨d', rule', payload', hd', hr', hc', rfl⟩ := h'
  rw [hd] at hd'
  cases hd'
  rw [hr] at hr'
  cases hr'
  rw [hc] at hc'
  cases hc'
  rfl

/-- A conversion that applies leads from kind to kind. -/
theorem Step.convertsTo (h : R.Step v index u) : R.ConvertsTo v.kind u.kind := by
  obtain ⟨d, rule, payload, hd, hr, hc, rfl⟩ := h
  exact ⟨d, hd, rule, List.mem_of_getElem? hr, rfl⟩

/-- A conversion that applies is one of a kind with conversions. -/
theorem Step.converts (h : R.Step v index u) : R.Converts v.kind := by
  obtain ⟨d, rule, payload, hd, hr, -, -⟩ := h
  exact ⟨d, hd, List.ne_nil_of_mem (List.mem_of_getElem? hr)⟩

/-- A conversion that applies is one of the rules of the kind. -/
theorem Step.index_lt {d : RoleDefinition κ} (hd : R.lookup v.kind = .ok d)
    (h : R.Step v index u) : index < d.conversions.length := by
  obtain ⟨d', rule, payload, hd', hr, -, -⟩ := h
  rw [hd] at hd'
  cases hd'
  exact (List.getElem?_eq_some_iff.mp hr).1

end Registry

/-- Conversions that apply one after another: from a role, by the positions of the rules,
through the kinds converted into, to the last role. -/
inductive Chain (R : Registry K) : Role κ → List Nat → List κ → Role κ → Prop where
  | nil (v : Role κ) : Chain R v [] [] v
  | cons {v u w : Role κ} {index : Nat} {indices : List Nat} {path : List κ}
      (step : R.Step v index u) (rest : Chain R u indices path w) :
      Chain R v (index :: indices) (u.kind :: path) w

namespace Chain

variable {R : Registry K} {u v w w' : Role κ} {index : Nat} {indices later : List Nat}
  {path path' : List κ}

/-- The chain without conversions ends where it starts. -/
theorem eq_of_nil (h : Chain R v [] path w) : path = [] ∧ w = v := by
  cases h
  exact ⟨rfl, rfl⟩

/-- A chain with conversions starts with one that applies. -/
theorem of_cons (h : Chain R v (index :: indices) path w) :
    ∃ u rest, R.Step v index u ∧ path = u.kind :: rest ∧ Chain R u indices rest w := by
  cases h with
  | cons step rest => exact ⟨_, _, step, rfl, rest⟩

/-- After a conversion that applies, a chain goes on from its result. -/
theorem cons_iff (h : R.Step v index u) :
    Chain R v (index :: indices) path w ↔
      ∃ rest, path = u.kind :: rest ∧ Chain R u indices rest w := by
  constructor
  · intro hc
    obtain ⟨u', rest, hs, rfl, hr⟩ := hc.of_cons
    cases h.unique hs
    exact ⟨rest, rfl, hr⟩
  · rintro ⟨rest, rfl, hr⟩
    exact .cons h hr

/-- The positions of a chain determine where it leads. -/
theorem unique (h : Chain R v indices path w) (h' : Chain R v indices path' w') :
    path = path' ∧ w = w' := by
  induction h generalizing path' with
  | nil v =>
    obtain ⟨hp, hw⟩ := eq_of_nil h'
    exact ⟨hp.symm, hw.symm⟩
  | cons step rest ih =>
    obtain ⟨tail, rfl, ht⟩ := (cons_iff step).mp h'
    obtain ⟨rfl, rfl⟩ := ih ht
    exact ⟨rfl, rfl⟩

/-- A chain passes through the ends of its beginnings. -/
theorem of_append (h : Chain R v (indices ++ later) path w) :
    ∃ u front back, Chain R v indices front u ∧ Chain R u later back w := by
  induction indices generalizing v path with
  | nil => exact ⟨v, [], path, .nil v, h⟩
  | cons index indices ih =>
    obtain ⟨x, rest, hs, -, hr⟩ := of_cons h
    obtain ⟨u, front, back, hf, hb⟩ := ih hr
    exact ⟨u, x.kind :: front, back, .cons hs hf, hb⟩

/-- A chain leads along conversion rules from kind to kind. -/
theorem reflTransGen (h : Chain R v indices path w) :
    Relation.ReflTransGen R.ConvertsTo v.kind w.kind := by
  induction h with
  | nil v => exact .refl
  | cons step rest ih => exact .head step.convertsTo ih

/-- A chain with a conversion leads along at least one conversion rule. -/
theorem transGen (h : Chain R v (index :: indices) path w) :
    Relation.TransGen R.ConvertsTo v.kind w.kind := by
  obtain ⟨u, rest, hs, -, hr⟩ := of_cons h
  exact .head' hs.convertsTo hr.reflTransGen

end Chain

/-- The chains before one that starts with a position are those before the position and those
that start with it and go on to less. -/
theorem lt_cons_iff {chain indices : List Nat} {index : Nat} :
    chain < index :: indices ↔
      chain < [index] ∨ ∃ rest, rest < indices ∧ chain = index :: rest := by
  cases chain with
  | nil => simp
  | cons i rest => simp [List.cons_lt_cons_iff, and_comm]

/-- The chains before the next position are those before a position and those from it. -/
theorem lt_succ_iff {chain : List Nat} {index : Nat} :
    chain < [index + 1] ↔ chain < [index] ∨ ∃ rest, chain = index :: rest := by
  cases chain with
  | nil => simp
  | cons i rest =>
    simp only [List.cons_lt_cons_iff, List.not_lt_nil, and_false, or_false, List.cons.injEq,
      exists_and_left, exists_eq', and_true]
    omega

end RoleResolution

import RoleResolution.Proofs.Registry.Arrangement
import RoleResolution.Resolver.Basic

/-!
# Direct rules

Which direct rules apply between two roles is read off the definition of the required kind, and
so is the order in which they are tried. When no predicate depends on the invocations before
it, trying them finds the first rule that applies, and finds none only when none applies.
-/

namespace RoleResolution

variable {κ : Type} {K : KindSet κ}

/-- The answers of a predicate do not depend on the invocations before it. -/
def Predicate.Deterministic (p : Predicate κ) : Prop :=
  ∀ (history : History κ) (provided required : Payload),
    p history provided required = p [] provided required

/-- The answers of a conversion do not depend on the invocations before it. -/
def Conversion.Deterministic (c : Conversion κ) : Prop :=
  ∀ (history : History κ) (payload : Payload), c history payload = c [] payload

/-- The answer of a deterministic predicate. -/
def DelegatedPredicate.answer (rule : DelegatedPredicate κ) (provided required : Payload) :
    Bool :=
  rule.predicate [] provided required

/-- The answer of a deterministic conversion. -/
def ConversionRule.convert (rule : ConversionRule κ) (payload : Payload) : Option Payload :=
  rule.conversion [] payload

/-- The caller's functions of a definition are deterministic. -/
structure RoleDefinition.Deterministic (d : RoleDefinition κ) : Prop where
  predicates : ∀ rule ∈ d.delegated, Predicate.Deterministic rule.predicate
  conversions : ∀ rule ∈ d.conversions, Conversion.Deterministic rule.conversion

/-- The caller's functions of a registry are deterministic. -/
def Registry.Deterministic (R : Registry K) : Prop := ∀ d ∈ R.definitions, d.Deterministic

namespace MatchedRule

/-- The place of a rule in the order of trial: first by family, then by position. -/
def place : MatchedRule → Nat × Nat
  | .identity => (0, 0)
  | .unconditionalPass => (1, 0)
  | .attributeRule index => (2, index)
  | .delegatedPredicate index => (3, index)

/-- A rule is tried before another. -/
def Precedes (rule other : MatchedRule) : Prop :=
  rule.place.1 < other.place.1 ∨ rule.place.1 = other.place.1 ∧ rule.place.2 < other.place.2

/-- Rules at the same place are the same. -/
theorem place_inj {rule other : MatchedRule} (h : rule.place = other.place) : rule = other := by
  cases rule <;> cases other <;> simp_all [place]

/-- Of two different rules one is tried before the other. -/
theorem precedes_or {rule other : MatchedRule} (h : rule ≠ other) :
    Precedes rule other ∨ Precedes other rule := by
  have hne : rule.place ≠ other.place := fun he ↦ h (place_inj he)
  have hp : rule.place.1 = other.place.1 → rule.place.2 ≠ other.place.2 :=
    fun h₁ h₂ ↦ hne (Prod.ext h₁ h₂)
  unfold Precedes
  omega

end MatchedRule

variable [DecidableEq κ]

/-- A direct rule of the definition of the required kind grants the provided role. -/
def RoleDefinition.Applies (d : RoleDefinition κ) (required provided : Role κ) :
    MatchedRule → Prop
  | .identity => (required == provided) = true
  | .unconditionalPass => provided.kind ∈ d.passes
  | .attributeRule index => ∃ rule, d.attributeRules[index]? = some rule ∧
      rule.providedKind = provided.kind ∧ rule.holds provided.payload required.payload = true
  | .delegatedPredicate index => ∃ rule, d.delegated[index]? = some rule ∧
      rule.providedKind = provided.kind ∧
      rule.guardsHold provided.payload required.payload = true ∧
      rule.answer provided.payload required.payload = true

namespace Registry

/-- A direct rule of the required kind grants the provided role. -/
def Applies (R : Registry K) (required provided : Role κ) (rule : MatchedRule) : Prop :=
  ∃ d, R.lookup required.kind = .ok d ∧ d.Applies required provided rule

/-- A direct rule of the required kind is the first that grants the provided role. -/
def FirstApplies (R : Registry K) (required provided : Role κ) (rule : MatchedRule) : Prop :=
  R.Applies required provided rule ∧
    ∀ other, MatchedRule.Precedes other rule → ¬ R.Applies required provided other

/-- At most one rule is the first that applies. -/
theorem FirstApplies.unique {R : Registry K} {required provided : Role κ}
    {rule other : MatchedRule} (h : R.FirstApplies required provided rule)
    (h' : R.FirstApplies required provided other) : rule = other := by
  by_contra hne
  rcases MatchedRule.precedes_or hne with hp | hp
  · exact h'.2 rule hp h.1
  · exact h.2 other hp h'.1

end Registry

namespace Resolver

private theorem findIdx?_some {α : Type} {p : α → Bool} {xs : List α} {i : Nat}
    (h : xs.findIdx? p = some i) :
    (∃ x, xs[i]? = some x ∧ p x = true) ∧
      ∀ (j : Nat) (x : α), j < i → xs[j]? = some x → p x = false := by
  obtain ⟨hi, hp, hb⟩ := List.findIdx?_eq_some_iff_getElem.mp h
  refine ⟨⟨xs[i], List.getElem?_eq_getElem hi, hp⟩, ?_⟩
  intro j x hj hx
  obtain ⟨hjl, rfl⟩ := List.getElem?_eq_some_iff.mp hx
  simpa using hb j hj

private theorem findIdx?_none {α : Type} {p : α → Bool} {xs : List α}
    (h : xs.findIdx? p = none) (j : Nat) (x : α) (hx : xs[j]? = some x) : p x = false :=
  List.findIdx?_eq_none_iff.mp h x (List.mem_of_getElem? hx)

private def attributeGrants (required provided : Role κ) (rule : AttributeRule κ) : Bool :=
  rule.providedKind = provided.kind && rule.holds provided.payload required.payload

private def delegatedGrants (required provided : Role κ) (rule : DelegatedPredicate κ) : Bool :=
  rule.providedKind = provided.kind && rule.guardsHold provided.payload required.payload &&
    rule.answer provided.payload required.payload

private theorem applies_attributeRule (d : RoleDefinition κ) (required provided : Role κ)
    (index : Nat) : d.Applies required provided (.attributeRule index) ↔
      ∃ rule, d.attributeRules[index]? = some rule ∧
        attributeGrants required provided rule = true := by
  simp [RoleDefinition.Applies, attributeGrants]

private theorem applies_delegatedPredicate (d : RoleDefinition κ) (required provided : Role κ)
    (index : Nat) : d.Applies required provided (.delegatedPredicate index) ↔
      ∃ rule, d.delegated[index]? = some rule ∧
        delegatedGrants required provided rule = true := by
  simp [RoleDefinition.Applies, delegatedGrants, and_assoc]

/-- Trying deterministic delegated predicates finds the first that grants the role. -/
private theorem firstPredicate_eq (owner : κ) (required provided : Role κ)
    (rules : List (DelegatedPredicate κ)) (n : Nat) (s : Session κ)
    (hd : ∀ rule ∈ rules, Predicate.Deterministic rule.predicate) :
    (firstPredicate owner required provided (rules.zipIdx n) s).1 =
      (rules.findIdx? (delegatedGrants required provided)).map (· + n) := by
  induction rules generalizing n s with
  | nil => rfl
  | cons rule rest ih =>
    have hr := fun s ↦ ih (n + 1) s fun r h ↦ hd r (List.mem_cons_of_mem _ h)
    have ha := hd rule List.mem_cons_self s.history provided.payload required.payload
    have hn : ∀ i? : Option Nat, i?.map (· + (n + 1)) = (i?.map (· + 1)).map (· + n) := by
      intro i?
      cases i? <;> simp [Nat.add_comm, Nat.add_left_comm]
    rw [List.zipIdx_cons, List.findIdx?_cons]
    by_cases hk : rule.providedKind = provided.kind
    · by_cases hg : rule.guardsHold provided.payload required.payload = true
      · -- the predicate is invoked: its answer now is its answer at any time
        cases hp : rule.answer provided.payload required.payload with
        | true => simp [firstPredicate, delegatedGrants, hk, hg, hp, ha.trans hp]
        | false => simp [firstPredicate, delegatedGrants, hk, hg, hp, ha.trans hp, hr, hn]
      · simp [firstPredicate, delegatedGrants, hk, hg, hr, hn]
    · simp [firstPredicate, delegatedGrants, hk, hr, hn]

variable {required provided : Role κ} {s : Session κ}

private theorem attributeRule_lt {i j : Nat}
    (h : MatchedRule.Precedes (.attributeRule j) (.attributeRule i)) : j < i := by
  simpa [MatchedRule.Precedes, MatchedRule.place] using h

private theorem delegatedPredicate_lt {i j : Nat}
    (h : MatchedRule.Precedes (.delegatedPredicate j) (.delegatedPredicate i)) : j < i := by
  simpa [MatchedRule.Precedes, MatchedRule.place] using h

private theorem not_applies_attributeRule {d : RoleDefinition κ} {p : Nat → Prop}
    (h : ∀ j rule, p j → d.attributeRules[j]? = some rule →
      attributeGrants required provided rule = false) (j : Nat) (hj : p j) :
    ¬ d.Applies required provided (.attributeRule j) := by
  rw [applies_attributeRule]
  rintro ⟨rule, hr, hg⟩
  rw [h j rule hj hr] at hg
  cases hg

private theorem not_applies_delegatedPredicate {d : RoleDefinition κ} {p : Nat → Prop}
    (h : ∀ j rule, p j → d.delegated[j]? = some rule →
      delegatedGrants required provided rule = false) (j : Nat) (hj : p j) :
    ¬ d.Applies required provided (.delegatedPredicate j) := by
  rw [applies_delegatedPredicate]
  rintro ⟨rule, hr, hg⟩
  rw [h j rule hj hr] at hg
  cases hg

/-- Between different roles, the rule that a trial of a definition finds applies, and no rule
before it does. -/
theorem matchRules_some {d : RoleDefinition κ} {rule : MatchedRule} (hd : d.Deterministic)
    (hne : ¬ (required == provided) = true)
    (h : (matchRules d required provided s).1 = some rule) :
    d.Applies required provided rule ∧
      ∀ other, MatchedRule.Precedes other rule → ¬ d.Applies required provided other := by
  unfold matchRules at h
  split at h
  · next hp =>
    cases h
    have hpass : provided.kind ∈ d.passes := of_decide_eq_true hp
    refine ⟨hpass, fun other ho ↦ ?_⟩
    cases other with
    | identity => exact hne
    | _ => simp [MatchedRule.Precedes, MatchedRule.place] at ho
  · next hp =>
    have hpass : ¬ provided.kind ∈ d.passes := fun ha ↦ hp (decide_eq_true ha)
    split at h
    · next index hi =>
      cases h
      obtain ⟨hrule, hbefore⟩ := findIdx?_some hi
      refine ⟨(applies_attributeRule d required provided index).mpr hrule, fun other ho ↦ ?_⟩
      cases other with
      | identity => exact hne
      | unconditionalPass => exact hpass
      | attributeRule j => exact not_applies_attributeRule hbefore j (attributeRule_lt ho)
      | delegatedPredicate j => simp [MatchedRule.Precedes, MatchedRule.place] at ho
    · next hi =>
      have hattribute := fun j ↦ not_applies_attributeRule (p := fun _ ↦ True)
        (fun j r _ ↦ findIdx?_none hi j r) j trivial
      dsimp only at h
      rw [firstPredicate_eq d.kind required provided d.delegated 0 s hd.predicates,
        Option.map_map, Option.map_eq_some_iff] at h
      obtain ⟨index, hf, rfl⟩ := h
      obtain ⟨hrule, hbefore⟩ := findIdx?_some hf
      refine ⟨(applies_delegatedPredicate d required provided index).mpr hrule,
        fun other ho ↦ ?_⟩
      cases other with
      | identity => exact hne
      | unconditionalPass => exact hpass
      | attributeRule j => exact hattribute j
      | delegatedPredicate j =>
        exact not_applies_delegatedPredicate hbefore j (delegatedPredicate_lt ho)

/-- Between different roles, no rule of a definition applies when a trial finds none. -/
theorem matchRules_none {d : RoleDefinition κ} (hd : d.Deterministic)
    (hne : ¬ (required == provided) = true)
    (h : (matchRules d required provided s).1 = none) (rule : MatchedRule) :
    ¬ d.Applies required provided rule := by
  unfold matchRules at h
  split at h
  · cases h
  · next hp =>
    split at h
    · cases h
    · next hi =>
      dsimp only at h
      rw [firstPredicate_eq d.kind required provided d.delegated 0 s hd.predicates,
        Option.map_map, Option.map_eq_none_iff] at h
      cases rule with
      | identity => exact hne
      | unconditionalPass =>
        intro (ha : provided.kind ∈ d.passes)
        exact hp (decide_eq_true ha)
      | attributeRule j =>
        exact not_applies_attributeRule (p := fun _ ↦ True)
          (fun j r _ ↦ findIdx?_none hi j r) j trivial
      | delegatedPredicate j =>
        exact not_applies_delegatedPredicate (p := fun _ ↦ True)
          (fun j r _ ↦ findIdx?_none h j r) j trivial

variable {R : Registry K}

/-- A complete registry answers every trial of the direct rules. -/
theorem matchDirect_total (hR : R.Complete) (required provided : Role κ) (s : Session κ) :
    ∃ rule?, (matchDirect R required provided s).1 = .ok rule? := by
  obtain ⟨d, hd, -⟩ := hR required.kind
  unfold matchDirect
  split
  · exact ⟨_, rfl⟩
  · rw [hd]
    exact ⟨_, rfl⟩

/-- The rule that a trial finds is the first that applies. -/
theorem firstApplies_of_matchDirect (hR : R.Complete) (hdet : R.Deterministic)
    {rule : MatchedRule} (h : (matchDirect R required provided s).1 = .ok (some rule)) :
    R.FirstApplies required provided rule := by
  obtain ⟨d, hd, -⟩ := hR required.kind
  unfold matchDirect at h
  split at h
  · next he =>
    cases h
    refine ⟨⟨d, hd, he⟩, fun other ho ↦ ?_⟩
    cases other <;> simp [MatchedRule.Precedes, MatchedRule.place] at ho
  · next hne =>
    rw [hd] at h
    obtain ⟨ha, hfirst⟩ := matchRules_some (hdet d (Registry.mem_of_lookup hd)) hne
      (Except.ok.inj h)
    refine ⟨⟨d, hd, ha⟩, ?_⟩
    rintro other ho ⟨e, he, hother⟩
    rw [hd] at he
    cases he
    exact hfirst other ho hother

/-- No rule applies when a trial finds none. -/
theorem not_applies_of_matchDirect (hR : R.Complete) (hdet : R.Deterministic)
    (h : (matchDirect R required provided s).1 = .ok none) (rule : MatchedRule) :
    ¬ R.Applies required provided rule := by
  obtain ⟨d, hd, -⟩ := hR required.kind
  rintro ⟨e, he, ha⟩
  rw [hd] at he
  cases he
  unfold matchDirect at h
  split at h
  · cases h
  · next hne =>
    rw [hd] at h
    exact matchRules_none (hdet d (Registry.mem_of_lookup hd)) hne (Except.ok.inj h) rule ha

end Resolver

/-- Resolutions over the ladder of ranks. -/
def Rank.resolver (back : List (ConversionRule Rank)) : Resolver Rank.kinds where
  registry := Rank.ladder back

/-- The functions of the ladder are deterministic when those of its foot are. -/
theorem Rank.deterministic_ladder {back : List (ConversionRule Rank)}
    (h : ∀ rule ∈ back, Conversion.Deterministic rule.conversion) :
    (Rank.ladder back).Deterministic := by
  intro d hd
  simp only [ladder, builder, List.mem_cons, List.not_mem_nil, or_false] at hd
  constructor
  · rcases hd with rfl | rfl | rfl | rfl | rfl <;> simp [RoleDefinition.ofKind]
  · rcases hd with rfl | rfl | rfl | rfl | rfl
    · exact h
    all_goals
      simp [Conversion.Deterministic, always, never]

end RoleResolution

import RoleResolution.Proofs.Search.Decision

/-!
# The conversions of a grant

A search that grants a role does so through one chain of conversions: those whose results it was
searching from when it found the rule. Whatever state the functions keep, a search has one result
only, and a grant one chain. Over deterministic functions its conversions apply one after another.
-/

namespace RoleResolution.Resolver

variable {κ : Type} [DecidableEq κ] {K : KindSet κ}

mutual

/-- A search from a role grants it through the conversion rules at the positions of a chain, along
the kinds of a path, and by a rule at the end. -/
inductive GrantedBy (R : Registry K) (required : Role κ) :
    Role κ → Session κ → List Nat → List κ → MatchedRule → Prop where
  | direct {provided : Role κ} {s s' : Session κ} {granting : MatchedRule}
      (inspected : inspect R required provided s = (.settled (.ok (some (granting, []))), s')) :
      GrantedBy R required provided s [] [] granting
  | entered {provided : Role κ} {s s₁ : Session κ} {d : RoleDefinition κ} {chain : List Nat}
      {path : List κ} {granting : MatchedRule}
      (inspected : inspect R required provided s = (.entered d, s₁))
      (tried : GrantedAmong R required d.kind provided d.conversions.zipIdx s₁ chain path
        granting) :
      GrantedBy R required provided s chain path granting

/-- The trial of conversions of a role grants it likewise, through one of them. -/
inductive GrantedAmong (R : Registry K) (required : Role κ) :
    κ → Role κ → List (ConversionRule κ × Nat) → Session κ → List Nat → List κ → MatchedRule →
      Prop where
  | declined {owner : κ} {provided : Role κ} {rule : ConversionRule κ} {index : Nat}
      {rules : List (ConversionRule κ × Nat)} {s s₁ : Session κ} {chain : List Nat}
      {path : List κ} {granting : MatchedRule}
      (attempted : attempt owner provided rule index s = (none, s₁))
      (rest : GrantedAmong R required owner provided rules s₁ chain path granting) :
      GrantedAmong R required owner provided ((rule, index) :: rules) s chain path granting
  | fruitless {owner : κ} {provided converted : Role κ} {rule : ConversionRule κ} {index : Nat}
      {rules : List (ConversionRule κ × Nat)} {s s₁ s₂ : Session κ} {examined : List (Role κ)}
      {chain : List Nat} {path : List κ} {granting : MatchedRule}
      (attempted : attempt owner provided rule index s = (some converted, s₁))
      (inner : Explores R required converted s₁ examined (.ok none) s₂)
      (rest : GrantedAmong R required owner provided rules s₂ chain path granting) :
      GrantedAmong R required owner provided ((rule, index) :: rules) s chain path granting
  | through {owner : κ} {provided converted : Role κ} {rule : ConversionRule κ} {index : Nat}
      {rules : List (ConversionRule κ × Nat)} {s s₁ : Session κ} {chain : List Nat}
      {path : List κ} {granting : MatchedRule}
      (attempted : attempt owner provided rule index s = (some converted, s₁))
      (inner : GrantedBy R required converted s₁ chain path granting) :
      GrantedAmong R required owner provided ((rule, index) :: rules) s (index :: chain)
        (converted.kind :: path) granting

end

variable {R : Registry K} {required : Role κ}

mutual

/-- A search that finds a grant grants through some chain. -/
theorem Explores.grantedBy (hR : R.Complete) {provided : Role κ} {s s' : Session κ}
    {examined : List (Role κ)} {finding : Finding κ} {granting : MatchedRule} {path : List κ}
    (h : Explores R required provided s examined finding s')
    (hf : finding = .ok (some (granting, path))) :
    ∃ chain, GrantedBy R required provided s chain path granting := by
  match h with
  | .settled hs =>
    have hi := inspected hR required provided s
    rw [hs, hf] at hi
    cases hi with
    | granted matched tracker => exact ⟨[], .direct (hf ▸ hs)⟩
  | .entered hs tried =>
    obtain ⟨chain, hc⟩ := tried.grantedAmong hR hf
    exact ⟨chain, .entered hs hc⟩

/-- A trial of conversions that finds a grant grants through some chain. -/
theorem ExploresRules.grantedAmong (hR : R.Complete) {owner : κ} {provided : Role κ}
    {rules : List (ConversionRule κ × Nat)} {s s' : Session κ} {examined : List (Role κ)}
    {finding : Finding κ} {granting : MatchedRule} {path : List κ}
    (h : ExploresRules R required owner provided rules s examined finding s')
    (hf : finding = .ok (some (granting, path))) :
    ∃ chain, GrantedAmong R required owner provided rules s chain path granting := by
  match h with
  | .done => cases hf
  | .declined attempted rest =>
    obtain ⟨chain, hc⟩ := rest.grantedAmong hR hf
    exact ⟨chain, .declined attempted hc⟩
  | .fruitless attempted inner rest =>
    obtain ⟨chain, hc⟩ := rest.grantedAmong hR hf
    exact ⟨chain, .fruitless attempted inner hc⟩
  | .decided attempted inner decisive =>
    obtain ⟨rest, rfl, hrest⟩ := Finding.after_eq_granted.mp hf
    obtain ⟨chain, hc⟩ := inner.grantedBy hR hrest
    exact ⟨_, .through attempted hc⟩

end

mutual

/-- A search that grants ends with the grant. -/
theorem GrantedBy.explores {provided : Role κ} {s : Session κ} {chain : List Nat} {path : List κ}
    {granting : MatchedRule} (h : GrantedBy R required provided s chain path granting) :
    ∃ examined s', Explores R required provided s examined (.ok (some (granting, path))) s' := by
  match h with
  | .direct hs => exact ⟨_, _, .settled hs⟩
  | .entered hs tried =>
    obtain ⟨examined, s', ht⟩ := tried.explores
    exact ⟨_, s', .entered hs ht⟩

/-- A trial of conversions that grants ends with the grant. -/
theorem GrantedAmong.explores {owner : κ} {provided : Role κ}
    {rules : List (ConversionRule κ × Nat)} {s : Session κ} {chain : List Nat} {path : List κ}
    {granting : MatchedRule}
    (h : GrantedAmong R required owner provided rules s chain path granting) :
    ∃ examined s', ExploresRules R required owner provided rules s examined
      (.ok (some (granting, path))) s' := by
  match h with
  | .declined attempted rest =>
    obtain ⟨examined, s', hr⟩ := rest.explores
    exact ⟨examined, s', .declined attempted hr⟩
  | .fruitless attempted inner rest =>
    obtain ⟨later, s', hr⟩ := rest.explores
    exact ⟨_, s', .fruitless attempted inner hr⟩
  | .through attempted inner =>
    obtain ⟨examined, s', hi⟩ := inner.explores
    refine ⟨examined, s', .decided attempted hi ?_⟩
    intro hnone
    cases hnone

end

mutual

/-- Over deterministic functions the conversions of a grant apply one after another, and the rule is
the first that applies at their end. -/
theorem GrantedBy.exists_chain (hR : R.Complete) (hdet : R.Deterministic) {provided : Role κ}
    {s : Session κ} {chain : List Nat} {path : List κ} {granting : MatchedRule}
    (h : GrantedBy R required provided s chain path granting) :
    ∃ w, Chain R provided chain path w ∧ R.FirstApplies required w granting := by
  have hi := inspected hR required provided s
  match h with
  | .direct hs =>
    rw [hs] at hi
    cases hi with
    | granted matched tracker =>
      exact ⟨provided, .nil provided, firstApplies_of_matchDirect hR hdet matched⟩
  | .entered hs tried =>
    rw [hs] at hi
    cases hi with
    | entered unmatched lookup converts fresh tracker =>
      exact tried.exists_chain hR hdet lookup (by rw [List.drop_zero])

/-- Over deterministic functions the conversions of a grant among conversions apply likewise. -/
theorem GrantedAmong.exists_chain (hR : R.Complete) (hdet : R.Deterministic) {owner : κ}
    {provided : Role κ} {d : RoleDefinition κ} {rules : List (ConversionRule κ × Nat)} {n : Nat}
    {s : Session κ} {chain : List Nat} {path : List κ} {granting : MatchedRule}
    (h : GrantedAmong R required owner provided rules s chain path granting)
    (hd : R.lookup provided.kind = .ok d) (hrules : rules = (d.conversions.drop n).zipIdx n) :
    ∃ w, Chain R provided chain path w ∧ R.FirstApplies required w granting := by
  match h with
  | .declined _ rest =>
    obtain ⟨-, rfl, hrest⟩ := zipIdx_drop_cons hrules
    exact rest.exists_chain hR hdet hd hrest
  | .fruitless _ _ rest =>
    obtain ⟨-, rfl, hrest⟩ := zipIdx_drop_cons hrules
    exact rest.exists_chain hR hdet hd hrest
  | .through attempted inner =>
    obtain ⟨hr, rfl, -⟩ := zipIdx_drop_cons hrules
    have hs := (attempt_step hdet hd hr attempted _).mpr rfl
    obtain ⟨w, hc, hf⟩ := inner.exists_chain hR hdet
    exact ⟨w, .cons hs hc, hf⟩

end

/-- The chain of a grant among conversions starts with the position of one of them. -/
theorem GrantedAmong.exists_cons {owner : κ} {provided : Role κ}
    {rules : List (ConversionRule κ × Nat)} {s : Session κ} {chain : List Nat} {path : List κ}
    {granting : MatchedRule}
    (h : GrantedAmong R required owner provided rules s chain path granting) :
    ∃ index rest, chain = index :: rest ∧ index ∈ rules.map (·.2) := by
  match h with
  | .declined _ later =>
    obtain ⟨index, rest, hc, hm⟩ := later.exists_cons
    exact ⟨index, rest, hc, List.mem_cons_of_mem _ hm⟩
  | .fruitless _ _ later =>
    obtain ⟨index, rest, hc, hm⟩ := later.exists_cons
    exact ⟨index, rest, hc, List.mem_cons_of_mem _ hm⟩
  | .through _ _ => exact ⟨_, _, rfl, List.mem_cons_self⟩

mutual

/-- A search has one finding and leaves one session. -/
theorem Explores.unique {provided : Role κ} {s s₁ s₂ : Session κ}
    {examined examined' : List (Role κ)} {finding finding' : Finding κ}
    (h : Explores R required provided s examined finding s₁)
    (h' : Explores R required provided s examined' finding' s₂) :
    finding = finding' ∧ s₁ = s₂ := by
  match h, h' with
  | .settled hs, .settled hs' =>
    cases hs.symm.trans hs'
    exact ⟨rfl, rfl⟩
  | .settled hs, .entered hs' _ => cases hs.symm.trans hs'
  | .entered hs _, .settled hs' => cases hs.symm.trans hs'
  | .entered hs tried, .entered hs' tried' =>
    cases hs.symm.trans hs'
    exact tried.unique tried'

/-- A trial of conversions has one finding and leaves one session. -/
theorem ExploresRules.unique {owner : κ} {provided : Role κ}
    {rules : List (ConversionRule κ × Nat)} {s s₁ s₂ : Session κ}
    {examined examined' : List (Role κ)} {finding finding' : Finding κ}
    (h : ExploresRules R required owner provided rules s examined finding s₁)
    (h' : ExploresRules R required owner provided rules s examined' finding' s₂) :
    finding = finding' ∧ s₁ = s₂ := by
  match h with
  | .done =>
    cases h'
    exact ⟨rfl, rfl⟩
  | .declined attempted rest =>
    cases h' with
    | declined attempted' rest' =>
      cases attempted.symm.trans attempted'
      exact rest.unique rest'
    | fruitless attempted' inner' rest' => cases attempted.symm.trans attempted'
    | decided attempted' inner' decisive' => cases attempted.symm.trans attempted'
  | .fruitless attempted inner rest =>
    cases h' with
    | declined attempted' rest' => cases attempted.symm.trans attempted'
    | fruitless attempted' inner' rest' =>
      cases attempted.symm.trans attempted'
      obtain ⟨-, rfl⟩ := inner.unique inner'
      exact rest.unique rest'
    | decided attempted' inner' decisive' =>
      cases attempted.symm.trans attempted'
      exact absurd (inner.unique inner').1.symm decisive'
  | .decided attempted inner decisive =>
    cases h' with
    | declined attempted' rest' => cases attempted.symm.trans attempted'
    | fruitless attempted' inner' rest' =>
      cases attempted.symm.trans attempted'
      exact absurd (inner.unique inner').1 decisive
    | decided attempted' inner' decisive' =>
      cases attempted.symm.trans attempted'
      obtain ⟨rfl, rfl⟩ := inner.unique inner'
      exact ⟨rfl, rfl⟩

end

/-- A search that grants does not end without a finding. -/
theorem GrantedBy.not_fruitless {provided : Role κ} {s s' : Session κ} {chain : List Nat}
    {path : List κ} {granting : MatchedRule} {examined : List (Role κ)}
    (h : GrantedBy R required provided s chain path granting) :
    ¬ Explores R required provided s examined (.ok none) s' := by
  intro he
  obtain ⟨_, _, hg⟩ := h.explores
  cases (hg.unique he).1

mutual

/-- A search grants through one chain. -/
theorem GrantedBy.unique {provided : Role κ} {s : Session κ} {chain chain' : List Nat}
    {path path' : List κ} {granting granting' : MatchedRule}
    (h : GrantedBy R required provided s chain path granting)
    (h' : GrantedBy R required provided s chain' path' granting') : chain = chain' := by
  match h, h' with
  | .direct _, .direct _ => rfl
  | .direct hs, .entered hs' _ => cases hs.symm.trans hs'
  | .entered hs _, .direct hs' => cases hs.symm.trans hs'
  | .entered hs tried, .entered hs' tried' =>
    cases hs.symm.trans hs'
    exact tried.unique tried'

/-- A trial of conversions grants through one chain. -/
theorem GrantedAmong.unique {owner : κ} {provided : Role κ}
    {rules : List (ConversionRule κ × Nat)} {s : Session κ} {chain chain' : List Nat}
    {path path' : List κ} {granting granting' : MatchedRule}
    (h : GrantedAmong R required owner provided rules s chain path granting)
    (h' : GrantedAmong R required owner provided rules s chain' path' granting') :
    chain = chain' := by
  match h with
  | .declined attempted rest =>
    cases h' with
    | declined attempted' rest' =>
      cases attempted.symm.trans attempted'
      exact rest.unique rest'
    | fruitless attempted' inner' rest' => cases attempted.symm.trans attempted'
    | through attempted' inner' => cases attempted.symm.trans attempted'
  | .fruitless attempted inner rest =>
    cases h' with
    | declined attempted' rest' => cases attempted.symm.trans attempted'
    | fruitless attempted' inner' rest' =>
      cases attempted.symm.trans attempted'
      obtain ⟨-, rfl⟩ := inner.unique inner'
      exact rest.unique rest'
    | through attempted' inner' =>
      cases attempted.symm.trans attempted'
      exact absurd inner inner'.not_fruitless
  | .through attempted inner =>
    cases h' with
    | declined attempted' rest' => cases attempted.symm.trans attempted'
    | fruitless attempted' inner' rest' =>
      cases attempted.symm.trans attempted'
      exact absurd inner' inner.not_fruitless
    | through attempted' inner' =>
      cases attempted.symm.trans attempted'
      rw [inner.unique inner']

end

/-- A grant has the chain that it has and no other. -/
theorem GrantedBy.iff_eq {provided : Role κ} {s : Session κ} {chain : List Nat} {path : List κ}
    {granting : MatchedRule} (h : GrantedBy R required provided s chain path granting)
    (other : List Nat) :
    GrantedBy R required provided s other path granting ↔ other = chain := by
  constructor
  · intro ho
    exact ho.unique h
  · rintro rfl
    exact h

end RoleResolution.Resolver

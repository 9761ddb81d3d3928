import RoleResolution.Proofs.Search.Exploration

/-!
# The chain that decides a search

With deterministic functions a search examines the chains from a role in their order. The first
chain that ends in a role granted by a direct rule, or else in a kind with conversions that was
entered before, decides the search; without such a chain nothing is found. A kind was entered
before when the tracker has it from the start or when an earlier chain ends in it.
-/

namespace RoleResolution

variable {κ : Type} [DecidableEq κ] {K : KindSet κ}

namespace Registry

/-- A chain ends in a role that a direct rule of the required kind grants. -/
def Grants (R : Registry K) (required provided : Role κ) (chain : List Nat) : Prop :=
  ∃ path w, Chain R provided chain path w ∧ ∃ rule, R.Applies required w rule

/-- A chain ends in a role of a kind. -/
def LeadsTo (R : Registry K) (provided : Role κ) (chain : List Nat) (kind : κ) : Prop :=
  ∃ path w, Chain R provided chain path w ∧ w.kind = kind

/-- A chain ends in a kind with conversions that is visited or that an earlier chain ends in. -/
def Repeats (R : Registry K) (visited : List κ) (provided : Role κ) (chain : List Nat)
    (kind : κ) : Prop :=
  R.LeadsTo provided chain kind ∧ R.Converts kind ∧
    (kind ∈ visited ∨ ∃ earlier, earlier < chain ∧ R.LeadsTo provided earlier kind)

/-- A chain does not decide a search. -/
def Undecided (R : Registry K) (required : Role κ) (visited : List κ) (provided : Role κ)
    (chain : List Nat) : Prop :=
  ¬ R.Grants required provided chain ∧ ∀ kind, ¬ R.Repeats visited provided chain kind

/-- A search has passed some chains: none of them decides it, and the kinds visited since are
those with conversions that they end in. -/
structure Passes (R : Registry K) (required : Role κ) (visited : List κ) (provided : Role κ)
    (chains : List Nat → Prop) (visited' : List κ) : Prop where
  undecided : ∀ chain, chains chain → R.Undecided required visited provided chain
  entered : ∀ kind, kind ∈ visited' ↔ kind ∈ visited ∨
    R.Converts kind ∧ ∃ chain, chains chain ∧ R.LeadsTo provided chain kind

/-- What a search finds, by the first chain that decides it. -/
inductive Decides (R : Registry K) (required : Role κ) (visited : List κ) (provided : Role κ)
    (visited' : List κ) : Finding κ → Prop where
  /-- No chain decides. -/
  | denied (passes : R.Passes required visited provided (fun _ ↦ True) visited') :
      Decides R required visited provided visited' (.ok none)
  /-- The first chain that decides ends in a granted role. -/
  | granted {chain : List Nat} {path : List κ} {w : Role κ} {rule : MatchedRule}
      (leads : Chain R provided chain path w) (first : R.FirstApplies required w rule)
      (least : ∀ earlier < chain, R.Undecided required visited provided earlier) :
      Decides R required visited provided visited' (.ok (some (rule, path)))
  /-- The first chain that decides ends in a kind entered before. -/
  | cycle {chain : List Nat} {e : CycleError κ}
      (repeats : R.Repeats visited provided chain e.kind)
      (ungranted : ¬ R.Grants required provided chain)
      (least : ∀ earlier < chain, R.Undecided required visited provided earlier) :
      Decides R required visited provided visited' (.error (.error e))
  /-- A fault is not decided by a chain. -/
  | fault {fault : Fault} : Decides R required visited provided visited' (.error (.fault fault))

/-! ### Chains that start with a conversion -/

section Step

variable {R : Registry K} {required provided u : Role κ} {visited visited' : List κ}
  {index : Nat} (h : R.Step provided index u)
include h

omit [DecidableEq κ] in
/-- A chain that starts with a conversion leads where the rest leads from its result. -/
theorem leadsTo_cons (chain : List Nat) (kind : κ) :
    R.LeadsTo provided (index :: chain) kind ↔ R.LeadsTo u chain kind := by
  constructor
  · rintro ⟨path, w, hc, hk⟩
    obtain ⟨rest, -, hr⟩ := (Chain.cons_iff h).mp hc
    exact ⟨rest, w, hr, hk⟩
  · rintro ⟨rest, w, hr, hk⟩
    exact ⟨_, w, .cons h hr, hk⟩

/-- A chain that starts with a conversion grants when the rest grants from its result. -/
theorem grants_cons (chain : List Nat) :
    R.Grants required provided (index :: chain) ↔ R.Grants required u chain := by
  constructor
  · rintro ⟨path, w, hc, ha⟩
    obtain ⟨rest, -, hr⟩ := (Chain.cons_iff h).mp hc
    exact ⟨rest, w, hr, ha⟩
  · rintro ⟨rest, w, hr, ha⟩
    exact ⟨_, w, .cons h hr, ha⟩

/-- Once all chains before a conversion are passed, a chain that starts with it repeats a kind
when the rest does from its result. -/
theorem repeats_cons
    (hp : R.Passes required visited provided (· < [index]) visited') (chain : List Nat)
    (kind : κ) :
    R.Repeats visited provided (index :: chain) kind ↔ R.Repeats visited' u chain kind := by
  unfold Repeats
  rw [leadsTo_cons h, hp.entered kind]
  constructor
  · rintro ⟨hl, hc, hv | ⟨earlier, he, hk⟩⟩
    · exact ⟨hl, hc, .inl (.inl hv)⟩
    · rcases lt_cons_iff.mp he with hb | ⟨rest, hr, rfl⟩
      · exact ⟨hl, hc, .inl (.inr ⟨hc, earlier, hb, hk⟩)⟩
      · exact ⟨hl, hc, .inr ⟨rest, hr, (leadsTo_cons h rest kind).mp hk⟩⟩
  · rintro ⟨hl, hc, (hv | ⟨-, earlier, hb, hk⟩) | ⟨rest, hr, hk⟩⟩
    · exact ⟨hl, hc, .inl hv⟩
    · exact ⟨hl, hc, .inr ⟨earlier, lt_cons_iff.mpr (.inl hb), hk⟩⟩
    · exact ⟨hl, hc, .inr ⟨index :: rest, lt_cons_iff.mpr (.inr ⟨rest, hr, rfl⟩),
        (leadsTo_cons h rest kind).mpr hk⟩⟩

/-- Once all chains before a conversion are passed, a chain that starts with it decides when
the rest does from its result. -/
theorem undecided_cons
    (hp : R.Passes required visited provided (· < [index]) visited') (chain : List Nat) :
    R.Undecided required visited provided (index :: chain) ↔
      R.Undecided required visited' u chain := by
  unfold Undecided
  rw [grants_cons h]
  simp only [repeats_cons h hp]

/-- Once all chains before a conversion are passed, the chains before one that starts with it
decide nothing when none before the rest does from its result. -/
theorem undecided_of_lt_cons
    (hp : R.Passes required visited provided (· < [index]) visited') {chain : List Nat}
    (hl : ∀ earlier < chain, R.Undecided required visited' u earlier) :
    ∀ earlier < index :: chain, R.Undecided required visited provided earlier := by
  intro earlier he
  rcases lt_cons_iff.mp he with hb | ⟨rest, hr, rfl⟩
  · exact hp.undecided earlier hb
  · exact (undecided_cons h hp rest).mpr (hl rest hr)

/-- When all chains before a conversion and all from its result are passed, so are all before
the next conversion. -/
theorem Passes.next {visited'' : List κ}
    (hp : R.Passes required visited provided (· < [index]) visited')
    (hu : R.Passes required visited' u (fun _ ↦ True) visited'') :
    R.Passes required visited provided (· < [index + 1]) visited'' := by
  constructor
  · intro chain hc
    rcases lt_succ_iff.mp hc with hb | ⟨rest, rfl⟩
    · exact hp.undecided chain hb
    · exact (undecided_cons h hp rest).mpr (hu.undecided rest trivial)
  · intro kind
    rw [hu.entered kind, hp.entered kind]
    constructor
    · rintro ((hv | ⟨hc, chain, hb, hk⟩) | ⟨hc, rest, -, hk⟩)
      · exact .inl hv
      · exact .inr ⟨hc, chain, lt_succ_iff.mpr (.inl hb), hk⟩
      · exact .inr ⟨hc, index :: rest, lt_succ_iff.mpr (.inr ⟨rest, rfl⟩),
          (leadsTo_cons h rest kind).mpr hk⟩
    · rintro (hv | ⟨hc, chain, hb, hk⟩)
      · exact .inl (.inl hv)
      · rcases lt_succ_iff.mp hb with hb | ⟨rest, rfl⟩
        · exact .inl (.inr ⟨hc, chain, hb, hk⟩)
        · exact .inr ⟨hc, rest, trivial, (leadsTo_cons h rest kind).mp hk⟩

end Step

/-! ### The chains that a search passes -/

section Passes

variable {R : Registry K} {required provided : Role κ} {visited visited' : List κ}

omit [DecidableEq κ] in
private theorem leadsTo_nil {kind : κ} : R.LeadsTo provided [] kind ↔ provided.kind = kind := by
  constructor
  · rintro ⟨path, w, hc, rfl⟩
    rw [hc.eq_of_nil.2]
  · rintro rfl
    exact ⟨[], provided, .nil provided, rfl⟩

private theorem grants_nil :
    R.Grants required provided [] ↔ ∃ rule, R.Applies required provided rule := by
  constructor
  · rintro ⟨path, w, hc, ha⟩
    rwa [← hc.eq_of_nil.2]
  · intro ha
    exact ⟨[], provided, .nil provided, ha⟩

private theorem lt_zero {chain : List Nat} : chain < [0] ↔ chain = [] := by
  cases chain with
  | nil => simp
  | cons i rest => simp [List.cons_lt_cons_iff]

/-- A role that no direct rule grants and whose kind repeats none is passed by itself. -/
theorem passes_start (hn : ∀ rule, ¬ R.Applies required provided rule)
    (hf : R.Converts provided.kind → provided.kind ∉ visited)
    (hv : ∀ kind, kind ∈ visited' ↔
      kind ∈ visited ∨ R.Converts kind ∧ provided.kind = kind) :
    R.Passes required visited provided (· < [0]) visited' := by
  constructor
  · intro chain hc
    rw [lt_zero.mp hc]
    constructor
    · rw [grants_nil]
      rintro ⟨rule, ha⟩
      exact hn rule ha
    · rintro kind ⟨hl, hk, hm | ⟨earlier, he, -⟩⟩
      · rw [← leadsTo_nil.mp hl] at hk hm
        exact hf hk hm
      · exact absurd he (List.not_lt_nil earlier)
  · intro kind
    simp only [hv kind, lt_zero, exists_eq_left, leadsTo_nil]

/-- Chains that do not apply are passed for nothing. -/
theorem Passes.extend {chains chains' : List Nat → Prop}
    (hp : R.Passes required visited provided chains visited')
    (hs : ∀ chain, chains chain → chains' chain)
    (hn : ∀ chain path w, chains' chain → Chain R provided chain path w → chains chain) :
    R.Passes required visited provided chains' visited' := by
  constructor
  · intro chain hc
    constructor
    · intro hg
      obtain ⟨path, w, hw, -⟩ := id hg
      exact (hp.undecided chain (hn chain path w hc hw)).1 hg
    · intro kind hr
      obtain ⟨⟨path, w, hw, -⟩, -⟩ := id hr
      exact (hp.undecided chain (hn chain path w hc hw)).2 kind hr
  · intro kind
    rw [hp.entered kind]
    refine or_congr_right (and_congr_right fun _ ↦ ⟨?_, ?_⟩)
    · rintro ⟨chain, hc, hl⟩
      exact ⟨chain, hs chain hc, hl⟩
    · rintro ⟨chain, hc, path, w, hw, hk⟩
      exact ⟨chain, hn chain path w hc hw, path, w, hw, hk⟩

/-- A conversion that does not apply is passed. -/
theorem Passes.decline {index : Nat}
    (hp : R.Passes required visited provided (· < [index]) visited')
    (hn : ∀ u, ¬ R.Step provided index u) :
    R.Passes required visited provided (· < [index + 1]) visited' := by
  refine hp.extend (fun chain hc ↦ lt_succ_iff.mpr (.inl hc)) ?_
  intro chain path w hc hw
  rcases lt_succ_iff.mp hc with hb | ⟨rest, rfl⟩
  · exact hb
  · obtain ⟨u, -, hs, -⟩ := hw.of_cons
    exact absurd hs (hn u)

/-- After the last conversion every chain is passed. -/
theorem Passes.all {index : Nat}
    (hp : R.Passes required visited provided (· < [index]) visited')
    (hn : ∀ i u, R.Step provided i u → i < index) :
    R.Passes required visited provided (fun _ ↦ True) visited' := by
  refine hp.extend (fun _ _ ↦ trivial) ?_
  intro chain path w _ hw
  cases chain with
  | nil => exact List.nil_lt_cons index []
  | cons i rest =>
    obtain ⟨u, -, hs, -⟩ := hw.of_cons
    exact List.cons_lt_cons_iff.mpr (.inl (hn i u hs))

end Passes

end Registry

namespace Resolver

open Registry

variable {R : Registry K} {required : Role κ}

private theorem zipIdx_drop_nil {α : Type} {xs : List α} {n : Nat}
    (h : [] = (xs.drop n).zipIdx n) : xs.length ≤ n := by
  have hl := congrArg List.length h
  rw [List.length_nil, List.length_zipIdx, List.length_drop] at hl
  omega

omit [DecidableEq κ] in
/-- An attempt at a deterministic conversion makes the step that the rule makes. -/
theorem attempt_step {owner : κ} {provided : Role κ} {d : RoleDefinition κ}
    {rule : ConversionRule κ} {index : Nat} {s s₁ : Session κ} {converted? : Option (Role κ)}
    (hdet : R.Deterministic) (hd : R.lookup provided.kind = .ok d)
    (hr : d.conversions[index]? = some rule)
    (h : attempt owner provided rule index s = (converted?, s₁)) (u : Role κ) :
    R.Step provided index u ↔ converted? = some u := by
  have hc := (hdet d (mem_of_lookup hd)).conversions rule (List.mem_of_getElem? hr) s.history
    provided.payload
  have hs : converted? =
      (rule.convert provided.payload).map fun payload ↦ ⟨rule.targetKind, payload⟩ := by
    unfold attempt at h
    rw [hc] at h
    unfold ConversionRule.convert
    dsimp only at h
    split at h
    · next hn =>
      cases h
      rw [hn]
      rfl
    · next payload hp =>
      cases h
      rw [hp]
      rfl
  rw [hs, Option.map_eq_some_iff]
  constructor
  · rintro ⟨d', rule', payload, hd', hr', hp, rfl⟩
    rw [hd] at hd'
    cases hd'
    rw [hr] at hr'
    cases hr'
    exact ⟨payload, hp, rfl⟩
  · rintro ⟨payload, hp, rfl⟩
    exact ⟨d, rule, payload, hd, hr, hp, rfl⟩

mutual

/-- A search is decided by the first chain that decides it. -/
theorem Explores.decides (hR : R.Complete) (hdet : R.Deterministic) {provided : Role κ}
    {s s' : Session κ} {examined : List (Role κ)} {finding : Finding κ}
    (h : Explores R required provided s examined finding s') :
    R.Decides required s.tracker.visited provided s'.tracker.visited finding := by
  have hi := inspected hR required provided s
  match h with
  | .settled hs =>
    rw [hs] at hi
    cases hi with
    | granted matched tracker =>
      exact .granted (.nil provided) (firstApplies_of_matchDirect hR hdet matched)
        fun earlier he ↦ absurd he (List.not_lt_nil earlier)
    | barren unmatched unconverted tracker =>
      have hn := not_applies_of_matchDirect hR hdet unmatched
      have hv : ∀ kind, kind ∈ s.tracker.visited ↔
          kind ∈ s.tracker.visited ∨ R.Converts kind ∧ provided.kind = kind := by
        intro kind
        refine ⟨.inl, ?_⟩
        rintro (hm | ⟨hc, rfl⟩)
        · exact hm
        · exact absurd hc unconverted
      have hp := passes_start hn (fun hc ↦ absurd hc unconverted) hv
      rw [tracker]
      exact .denied (hp.all fun i u hs ↦ absurd hs.converts unconverted)
    | repeated unmatched converts visited tracker =>
      have hn := not_applies_of_matchDirect hR hdet unmatched
      have hr : R.Repeats s.tracker.visited provided [] provided.kind :=
        ⟨leadsTo_nil.mpr rfl, converts, .inl visited⟩
      refine .cycle hr ?_ fun earlier he ↦ absurd he (List.not_lt_nil earlier)
      rw [grants_nil]
      rintro ⟨rule, ha⟩
      exact hn rule ha
    | overrun fresh full => exact .fault
  | .entered hs tried =>
    rw [hs] at hi
    cases hi with
    | entered unmatched lookup converts fresh tracker =>
      have hn := not_applies_of_matchDirect hR hdet unmatched
      have hv : ∀ kind, kind ∈ s.tracker.visited ++ [provided.kind] ↔
          kind ∈ s.tracker.visited ∨ R.Converts kind ∧ provided.kind = kind := by
        intro kind
        rw [List.mem_append, List.mem_singleton]
        refine or_congr_right ⟨?_, fun h ↦ h.2.symm⟩
        rintro rfl
        exact ⟨⟨_, lookup, converts⟩, rfl⟩
      have hp := passes_start hn (fun _ ↦ fresh) hv
      rw [← tracker] at hp
      exact tried.decides hR hdet lookup (by rw [List.drop_zero]) hp

/-- The trial of conversions is decided by the first chain that decides the search. -/
theorem ExploresRules.decides (hR : R.Complete) (hdet : R.Deterministic) {owner : κ}
    {provided : Role κ} {d : RoleDefinition κ} {rules : List (ConversionRule κ × Nat)}
    {n : Nat} {visited : List κ} {s s' : Session κ} {examined : List (Role κ)}
    {finding : Finding κ} (h : ExploresRules R required owner provided rules s examined finding s')
    (hd : R.lookup provided.kind = .ok d) (hrules : rules = (d.conversions.drop n).zipIdx n)
    (hp : R.Passes required visited provided (· < [n]) s.tracker.visited) :
    R.Decides required visited provided s'.tracker.visited finding := by
  match h with
  | .done => exact .denied (hp.all fun i u hs ↦ (hs.index_lt hd).trans_le (zipIdx_drop_nil hrules))
  | .declined attempted rest =>
    obtain ⟨hr, rfl, hrest⟩ := zipIdx_drop_cons hrules
    rw [← (attempt_frame attempted).1] at hp
    refine rest.decides hR hdet hd hrest (hp.decline fun u hs ↦ ?_)
    cases (attempt_step hdet hd hr attempted u).mp hs
  | .fruitless attempted inner rest =>
    obtain ⟨hr, rfl, hrest⟩ := zipIdx_drop_cons hrules
    rw [← (attempt_frame attempted).1] at hp
    have hs := (attempt_step hdet hd hr attempted _).mpr rfl
    cases inner.decides hR hdet with
    | denied passes => exact rest.decides hR hdet hd hrest (hp.next hs passes)
  | .decided attempted inner decisive =>
    obtain ⟨hr, rfl, -⟩ := zipIdx_drop_cons hrules
    rw [← (attempt_frame attempted).1] at hp
    have hs := (attempt_step hdet hd hr attempted _).mpr rfl
    cases inner.decides hR hdet with
    | denied passes => exact absurd rfl decisive
    | granted leads first least =>
      exact .granted (.cons hs leads) first (undecided_of_lt_cons hs hp least)
    | cycle repeats ungranted least =>
      refine .cycle ((repeats_cons hs hp _ _).mpr repeats) ?_ (undecided_of_lt_cons hs hp least)
      rwa [grants_cons hs]
    | fault => exact .fault

end

end Resolver
end RoleResolution

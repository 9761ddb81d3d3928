import RoleResolution.Proofs.Search.Termination
import RoleResolution.Proofs.Search.Transcript

/-!
# Searches record their transcripts

What a search adds to the history of its session is a transcript of the search. This holds of
every caller's function, also of one whose answers depend on the invocations before.
-/

namespace RoleResolution.Resolver

variable {κ : Type} [DecidableEq κ] {K : KindSet κ} {R : Registry K} {d : RoleDefinition κ}
  {required : Role κ}

/-! ### Direct rules -/

/-- Trying delegated predicates asks those that are due. -/
theorem firstPredicate_asks (hd : R.lookup required.kind = .ok d) (provided : Role κ)
    (rules : List (DelegatedPredicate κ × Nat))
    (hrules : ∀ entry ∈ rules, d.delegated[entry.2]? = some entry.1) (s : Session κ) :
    ∃ calls, (firstPredicate required.kind required provided rules s).2.history =
        s.history ++ calls ∧ R.Genuine s.history calls ∧
      Asks required provided
        ((rules.filter fun entry ↦ entry.1.isDue required provided).map (·.2)) calls
        (firstPredicate required.kind required provided rules s).1 := by
  induction rules generalizing s with
  | nil => exact ⟨[], (List.append_nil _).symm, trivial, .done⟩
  | cons entry rest ih =>
    obtain ⟨rule, index⟩ := entry
    have hr := ih fun entry he ↦ hrules entry (List.mem_cons_of_mem _ he)
    have hrule : d.delegated[index]? = some rule := hrules _ List.mem_cons_self
    have hdue : rule.isDue required provided =
        (decide (rule.providedKind = provided.kind) &&
          rule.guardsHold provided.payload required.payload) := rfl
    by_cases hk : rule.providedKind = provided.kind
    · by_cases hg : rule.guardsHold provided.payload required.payload = true
      · rw [List.filter_cons_of_pos (by simp [hdue, hk, hg]), List.map_cons]
        cases ha : rule.predicate s.history provided.payload required.payload with
        | true =>
          simp only [firstPredicate, hk, hg, ha, ne_eq, not_true_eq_false, if_false, if_true]
          exact ⟨_, rfl, ⟨⟨d, rule, hd, hrule, ha⟩, trivial⟩, .granted⟩
        | false =>
          simp only [firstPredicate, hk, hg, ha, ne_eq, not_true_eq_false, if_false, if_true,
            Bool.false_eq_true]
          obtain ⟨calls, hh, hgenuine, hasks⟩ := hr (s.record
            (.predicate required.kind index provided.payload required.payload false))
          refine ⟨.ask required provided index false :: calls, ?_,
            ⟨⟨d, rule, hd, hrule, ha⟩, hgenuine⟩, hasks.refused⟩
          rw [hh]
          exact List.append_assoc ..
      · rw [List.filter_cons_of_neg (by simp [hdue, hg])]
        simp only [firstPredicate, hk, hg, ne_eq, not_true_eq_false, if_false,
          Bool.false_eq_true]
        exact hr (s.report (.guardMismatch index))
    · rw [List.filter_cons_of_neg (by simp [hdue, hk])]
      simp only [firstPredicate, ne_eq, hk, not_false_eq_true, if_true]
      exact hr s

/-- No attribute rule grants the role when none is found. -/
theorem firstAttributeRule?_eq_none_iff {provided : Role κ} :
    firstAttributeRule? d required provided = none ↔
      ¬ ∃ rule ∈ d.attributeRules, rule.providedKind = provided.kind ∧
        rule.holds provided.payload required.payload = true := by
  unfold firstAttributeRule?
  rw [List.findIdx?_eq_none_iff]
  simp

/-- The direct rules ask nothing of a role that is granted without a predicate, and otherwise
they ask the predicates that are due. -/
theorem matchDirect_asks (hd : R.lookup required.kind = .ok d) (hk : d.kind = required.kind)
    (provided : Role κ) (s : Session κ) :
    (d.Preempts required provided ∧
      (∃ rule, (matchDirect R required provided s).1 = .ok (some rule)) ∧
      (matchDirect R required provided s).2.history = s.history) ∨
    ¬ d.Preempts required provided ∧
      ∃ calls granting, Asks required provided (d.due required provided) calls granting ∧
        (matchDirect R required provided s).1 = .ok (granting.map .delegatedPredicate) ∧
        (matchDirect R required provided s).2.history = s.history ++ calls ∧
        R.Genuine s.history calls := by
  unfold matchDirect
  split
  · next he => exact .inl ⟨.inl he, ⟨_, rfl⟩, rfl⟩
  · next he =>
    rw [hd]
    dsimp only
    unfold matchRules
    split
    · next hp => exact .inl ⟨.inr (.inl (of_decide_eq_true hp)), ⟨_, rfl⟩, rfl⟩
    · next hp =>
      cases ha : firstAttributeRule? d required provided with
      | some index =>
        refine .inl ⟨.inr (.inr ?_), ⟨_, rfl⟩, rfl⟩
        by_contra hn
        rw [firstAttributeRule?_eq_none_iff.mpr hn] at ha
        cases ha
      | none =>
        have hrules : ∀ entry ∈ d.delegated.zipIdx, d.delegated[entry.2]? = some entry.1 :=
          fun entry he ↦ List.mem_zipIdx_iff_getElem?.mp he
        obtain ⟨calls, hh, hgenuine, hasks⟩ :=
          firstPredicate_asks hd provided d.delegated.zipIdx hrules s
        rw [← hk] at hh hasks
        refine .inr ⟨?_, calls, _, hasks, rfl, hh, hgenuine⟩
        rintro (hi | hpass | hattribute)
        · exact he hi
        · exact hp (decide_eq_true hpass)
        · exact firstAttributeRule?_eq_none_iff.mp ha hattribute

/-- Inspecting a role invokes what the direct rules do. -/
theorem inspect_history (R : Registry K) (required provided : Role κ) (s : Session κ) :
    (inspect R required provided s).2.history = (matchDirect R required provided s).2.history := by
  unfold inspect
  rcases matchDirect R required provided s with ⟨failure | rule?, s₁⟩
  · rfl
  · cases rule? with
    | some rule => rfl
    | none =>
      dsimp only
      cases R.lookup provided.kind with
      | error fault => rfl
      | ok e =>
        dsimp only
        split
        · rfl
        · rcases s₁.tracker.enter K provided.kind with ⟨failure | _, t⟩ <;> rfl

/-! ### Conversions -/

omit [DecidableEq κ] in
/-- An attempt records the answer of the conversion, which says whether there is a role to go on
with. -/
theorem attempt_history {owner : κ} {provided : Role κ} {rule : ConversionRule κ} {index : Nat}
    {s s₁ : Session κ} {converted? : Option (Role κ)}
    (h : attempt owner provided rule index s = (converted?, s₁)) :
    ∃ answer, rule.conversion s.history provided.payload = answer ∧
      converted? = answer.map (⟨rule.targetKind, ·⟩) ∧
      s₁.history = s.history ++ [.conversion owner index provided.payload answer] := by
  unfold attempt at h
  dsimp only at h
  split at h
  · next ha =>
    cases h
    exact ⟨none, ha, rfl, by rw [ha]; rfl⟩
  · next payload ha =>
    cases h
    exact ⟨some payload, ha, rfl, by rw [ha]; rfl⟩

omit [DecidableEq κ] in
/-- An invoked conversion is recorded ahead of what is invoked after it. -/
private theorem record_convert {provided : Role κ} {e : RoleDefinition κ}
    {rule : ConversionRule κ} {index : Nat} {answer : Option Payload} {s s₁ s' : Session κ}
    {later : List (Invocation κ)} (hown : R.lookup provided.kind = .ok e)
    (hrule : e.conversions[index]? = some rule)
    (ha : rule.conversion s.history provided.payload = answer)
    (hh : s₁.history = s.history ++ [.convert provided index answer])
    (hl : s'.history = s₁.history ++ later) (hg : R.Genuine s₁.history later) :
    s'.history = s.history ++ .convert provided index answer :: later ∧
      R.Genuine s.history (.convert provided index answer :: later) := by
  constructor
  · rw [hl, hh, List.append_assoc]
    rfl
  · rw [hh] at hg
    exact ⟨⟨e, rule, hown, hrule, ha⟩, hg⟩

/-! ### Whole searches -/

/-- When no direct rule grants a role, all predicates that are due answer false. -/
private theorem asks_of_unmatched (hd : R.lookup required.kind = .ok d)
    (hk : d.kind = required.kind) {provided : Role κ} {s : Session κ}
    (h : (matchDirect R required provided s).1 = .ok none) :
    ¬ d.Preempts required provided ∧
      ∃ calls, Asks required provided (d.due required provided) calls none ∧
        (matchDirect R required provided s).2.history = s.history ++ calls ∧
        R.Genuine s.history calls := by
  rcases matchDirect_asks hd hk provided s with
    ⟨-, ⟨rule, hm⟩, -⟩ | ⟨hu, calls, granting, hasks, hm, hh, hg⟩
  · rw [h] at hm
    cases hm
  · rw [h] at hm
    cases granting with
    | some index => cases hm
    | none => exact ⟨hu, calls, hasks, hh, hg⟩

mutual

/-- A search from a tracker without repetitions records its transcript. -/
theorem Explores.transcript (hK : K.Lawful) (hR : R.Complete)
    (hd : R.lookup required.kind = .ok d) (hk : d.kind = required.kind) {provided : Role κ}
    {s s' : Session κ} {examined : List (Role κ)} {finding : Finding κ}
    (h : Explores R required provided s examined finding s') (hn : s.tracker.visited.Nodup) :
    ∃ calls, s'.history = s.history ++ calls ∧ R.Genuine s.history calls ∧
      Transcript R d required provided s.tracker.visited calls s'.tracker.visited finding := by
  have hi := inspected hR required provided s
  have hh := inspect_history R required provided s
  match h with
  | .settled hs =>
    rw [hs] at hi hh
    cases hi with
    | granted matched tracker =>
      rw [tracker]
      rcases matchDirect_asks hd hk provided s with
        ⟨hp, -, hm⟩ | ⟨hu, calls, granting, hasks, hm, hc, hg⟩
      · exact ⟨[], by rw [hh, hm, List.append_nil], trivial, .preempted hp⟩
      · rw [matched] at hm
        cases granting with
        | none => cases hm
        | some index =>
          cases hm
          exact ⟨calls, hh.trans hc, hg, .granted hu hasks⟩
    | barren unmatched unconverted tracker =>
      obtain ⟨hu, calls, hasks, hc, hg⟩ := asks_of_unmatched hd hk unmatched
      rw [tracker]
      exact ⟨calls, hh.trans hc, hg, .barren hu hasks unconverted⟩
    | repeated unmatched converts visited tracker =>
      obtain ⟨hu, calls, hasks, hc, hg⟩ := asks_of_unmatched hd hk unmatched
      rw [tracker]
      exact ⟨calls, hh.trans hc, hg, .repeated hu hasks converts visited⟩
    | overrun fresh full =>
      have hl := hK.length_le_count (CycleTracker.nodup_fresh hn fresh)
      omega
  | .entered hs tried =>
    rw [hs] at hi hh
    cases hi with
    | entered unmatched lookup converts fresh tracker =>
      obtain ⟨hu, calls, hasks, hc, hg⟩ := asks_of_unmatched hd hk unmatched
      obtain ⟨e, he, hown⟩ := hR provided.kind
      cases lookup.symm.trans he
      have hn₁ := CycleTracker.nodup_fresh hn fresh
      rw [← tracker] at hn₁
      obtain ⟨later, hl, hgl, ht⟩ := tried.transcript hK hR hd hk hown lookup
        (fun entry hm ↦ List.mem_zipIdx_iff_getElem?.mp hm) hn₁
      rw [hh, hc] at hl hgl
      rw [tracker] at ht
      refine ⟨calls ++ later, ?_, Registry.genuine_append.mpr ⟨hg, hgl⟩,
        .entered hu hasks lookup converts fresh ht⟩
      rw [hl, List.append_assoc]

/-- The trial of conversions of a role records its transcript, too. -/
theorem ExploresRules.transcript (hK : K.Lawful) (hR : R.Complete)
    (hd : R.lookup required.kind = .ok d) (hk : d.kind = required.kind) {owner : κ}
    {provided : Role κ} {e : RoleDefinition κ} {rules : List (ConversionRule κ × Nat)}
    {s s' : Session κ} {examined : List (Role κ)} {finding : Finding κ}
    (h : ExploresRules R required owner provided rules s examined finding s')
    (howner : owner = provided.kind) (hown : R.lookup provided.kind = .ok e)
    (hrules : ∀ entry ∈ rules, e.conversions[entry.2]? = some entry.1)
    (hn : s.tracker.visited.Nodup) :
    ∃ calls, s'.history = s.history ++ calls ∧ R.Genuine s.history calls ∧
      TranscriptRules R d required provided rules s.tracker.visited calls s'.tracker.visited
        finding := by
  match h with
  | .done => exact ⟨[], (List.append_nil _).symm, trivial, .done⟩
  | .declined attempted rest =>
    obtain ⟨answer, ha, hanswer, hh⟩ := attempt_history attempted
    rw [howner] at hh
    obtain rfl := Option.map_eq_none_iff.mp hanswer.symm
    have ht := (attempt_frame attempted).1
    obtain ⟨later, hl, hg, hrest⟩ := rest.transcript hK hR hd hk howner hown
      (fun entry hm ↦ hrules entry (List.mem_cons_of_mem _ hm)) (ht.symm ▸ hn)
    obtain ⟨hl, hg⟩ := record_convert hown (hrules _ List.mem_cons_self) ha hh hl hg
    rw [ht] at hrest
    exact ⟨_, hl, hg, hrest.declined⟩
  | .fruitless attempted inner rest =>
    have ht := (attempt_frame attempted).1
    have hn₁ := ht.symm ▸ hn
    obtain ⟨-, entered, invoked, hw, -, -⟩ := inner.work hK hR hn₁
    obtain ⟨calls, hc, hgc, hinner⟩ := inner.transcript hK hR hd hk hn₁
    obtain ⟨later, hl, hgl, hrest⟩ := rest.transcript hK hR hd hk howner hown
      (fun entry hm ↦ hrules entry (List.mem_cons_of_mem _ hm)) hw.fresh
    obtain ⟨answer, ha, hanswer, hh⟩ := attempt_history attempted
    obtain ⟨payload, rfl, rfl⟩ := Option.map_eq_some_iff.mp hanswer.symm
    rw [howner] at hh
    rw [hc, List.append_assoc] at hl
    rw [hc] at hgl
    obtain ⟨hl, hg⟩ := record_convert hown (hrules _ List.mem_cons_self) ha hh hl
      (Registry.genuine_append.mpr ⟨hgc, hgl⟩)
    rw [ht] at hinner
    exact ⟨_, hl, hg, .fruitless hinner hrest⟩
  | .decided attempted inner decisive =>
    have ht := (attempt_frame attempted).1
    obtain ⟨calls, hc, hg, hinner⟩ := inner.transcript hK hR hd hk (ht.symm ▸ hn)
    obtain ⟨answer, ha, hanswer, hh⟩ := attempt_history attempted
    obtain ⟨payload, rfl, rfl⟩ := Option.map_eq_some_iff.mp hanswer.symm
    rw [howner] at hh
    obtain ⟨hc, hg⟩ := record_convert hown (hrules _ List.mem_cons_self) ha hh hc hg
    rw [ht] at hinner
    exact ⟨_, hc, hg, .decided hinner decisive⟩

end

end RoleResolution.Resolver

import RoleResolution.Proofs.Outcome.Candidates

/-!
# Held roles in any order

With deterministic functions the answer of a check over held roles follows from the answers of their
own checks. Where cycles are skipped, it is whether one of the roles satisfies, so neither the order
of the roles nor a further role can do harm. Where cycles abort the check, the first role that
satisfies or runs into a cycle decides, so a satisfying role is found when it comes early enough.
-/

namespace RoleResolution

variable {κ : Type} {K : KindSet κ}

/-- The answer of a check over held roles, by the answers of their own checks: the first decisive
one. -/
inductive CyclePolicy.Settles (policy : CyclePolicy) (answerOf : Role κ → Answer κ) :
    List (Role κ) → Answer κ → Prop where
  | exhausted : Settles policy answerOf [] (.ok false)
  | decided {candidate : Role κ} {rest : List (Role κ)}
      (decisive : policy.Decisive (answerOf candidate)) :
      Settles policy answerOf (candidate :: rest) (answerOf candidate)
  | passed {candidate : Role κ} {rest : List (Role κ)} {answer : Answer κ}
      (undecided : ¬ policy.Decisive (answerOf candidate))
      (settles : Settles policy answerOf rest answer) :
      Settles policy answerOf (candidate :: rest) answer

/-- Some candidate runs into a cycle, and none before it satisfies. -/
def MeetsCycle (answerOf : Role κ → Answer κ) (held : List (Role κ)) : Prop :=
  ∃ before candidate after, held = before ++ candidate :: after ∧
    (∃ e, answerOf candidate = .error (.error e)) ∧ ∀ other ∈ before, answerOf other ≠ .ok true

/-- A cycle is met at the first candidate, or after one that does not satisfy. -/
theorem meetsCycle_cons {answerOf : Role κ → Answer κ} {candidate : Role κ}
    {rest : List (Role κ)} :
    MeetsCycle answerOf (candidate :: rest) ↔
      (∃ e, answerOf candidate = .error (.error e)) ∨
        answerOf candidate ≠ .ok true ∧ MeetsCycle answerOf rest := by
  constructor
  · rintro ⟨_ | ⟨first, before⟩, cyclic, after, h, he, hbefore⟩
    · obtain ⟨rfl, -⟩ := List.cons.inj h
      exact .inl he
    · obtain ⟨rfl, rfl⟩ := List.cons.inj h
      obtain ⟨hfirst, hbefore⟩ := List.forall_mem_cons.mp hbefore
      exact .inr ⟨hfirst, before, cyclic, after, rfl, he, hbefore⟩
  · rintro (he | ⟨hfirst, before, cyclic, after, rfl, he, hbefore⟩)
    · exact ⟨[], candidate, rest, rfl, he, by simp⟩
    · exact ⟨candidate :: before, cyclic, after, rfl, he,
        List.forall_mem_cons.mpr ⟨hfirst, hbefore⟩⟩

namespace CyclePolicy

variable {policy : CyclePolicy} {answerOf : Role κ → Answer κ} {held : List (Role κ)}
  {answer : Answer κ}

/-- The check settles on no fault when no candidate's does. -/
theorem Settles.ne_fault (h : policy.Settles answerOf held answer)
    (hf : ∀ candidate fault, answerOf candidate ≠ .error (.fault fault)) (fault : Fault) :
    answer ≠ .error (.fault fault) := by
  induction h with
  | exhausted => nofun
  | decided decisive => exact hf _ fault
  | passed undecided settles ih => exact ih

/-- A candidate that does not decide under some policy does not satisfy. -/
theorem ne_satisfied_of_undecided (h : ¬ policy.Decisive answer) : answer ≠ .ok true := by
  rintro rfl
  exact h rfl

/-- A check that settles on whether a candidate satisfies settles on whether any of them does. -/
theorem Settles.eq_any [DecidableEq κ] (h : policy.Settles answerOf held answer)
    {satisfied : Bool} (ha : answer = .ok satisfied) :
    satisfied = held.any fun candidate ↦ answerOf candidate = .ok true := by
  induction h with
  | exhausted => exact (Except.ok.inj ha).symm
  | decided decisive =>
    rw [ha] at decisive
    have hs : satisfied = true := decisive
    simp [ha, hs]
  | passed undecided settles ih =>
    have hne := ne_satisfied_of_undecided undecided
    rw [ih ha, List.any_cons]
    simp [hne]

/-- Where cycles are skipped, the check settles on whether any candidate satisfies. -/
theorem Settles.eq_ok_any [DecidableEq κ] (h : skipCandidate.Settles answerOf held answer)
    (hf : ∀ candidate fault, answerOf candidate ≠ .error (.fault fault)) :
    answer = .ok (held.any fun candidate ↦ answerOf candidate = .ok true) := by
  have hok : ∃ satisfied, answer = .ok satisfied := by
    induction h with
    | exhausted => exact ⟨false, rfl⟩
    | @decided candidate rest decisive =>
      rcases ha : answerOf candidate with (e | fault) | satisfied
      · rw [ha] at decisive
        cases decisive
      · exact absurd ha (hf candidate fault)
      · exact ⟨satisfied, rfl⟩
    | passed undecided settles ih => exact ih
  obtain ⟨satisfied, ha⟩ := hok
  rw [ha, h.eq_any ha]

/-- Where cycles abort the check, it settles on an error exactly when a candidate runs into a cycle
before any satisfies. -/
theorem Settles.error_iff (h : abortAll.Settles answerOf held answer)
    (hf : ∀ candidate fault, answerOf candidate ≠ .error (.fault fault)) :
    (∃ e, answer = .error (.error e)) ↔ MeetsCycle answerOf held := by
  induction h with
  | exhausted =>
    refine ⟨nofun, ?_⟩
    rintro ⟨before, candidate, after, h, -⟩
    simp at h
  | @decided candidate rest decisive =>
    rw [meetsCycle_cons]
    rcases ha : answerOf candidate with (e | fault) | satisfied
    · exact iff_of_true ⟨e, rfl⟩ (.inl ⟨e, rfl⟩)
    · exact absurd ha (hf candidate fault)
    · rw [ha] at decisive
      have hs : satisfied = true := decisive
      simp [hs]
  | @passed candidate rest answer undecided settles ih =>
    rw [ih, meetsCycle_cons]
    have hne := ne_satisfied_of_undecided undecided
    have hcyclic : ¬ ∃ e, answerOf candidate = .error (.error e) := by
      rintro ⟨e, he⟩
      rw [he] at undecided
      exact undecided rfl
    simp [hne, hcyclic]

/-- A candidate that satisfies and comes first is what the check settles on. -/
theorem Settles.of_first {candidate : Role κ} {rest : List (Role κ)}
    (h : policy.Settles answerOf (candidate :: rest) answer)
    (hs : answerOf candidate = .ok true) : answer = .ok true := by
  cases h with
  | decided decisive => exact hs
  | passed undecided settles => exact absurd hs (ne_satisfied_of_undecided undecided)

end CyclePolicy

namespace Resolver

variable [DecidableEq κ] {r : Resolver K} {required : Role κ}

/-- The resolver with another policy. -/
def withPolicy (r : Resolver K) (policy : CyclePolicy) : Resolver K :=
  { r with config := { r.config with cyclePolicy := policy } }

/-- With deterministic functions a check over held roles settles on the first decisive answer,
whatever the session. -/
theorem anySatisfiesIn_settles (hdet : r.registry.Deterministic) (required : Role κ)
    (held : List (Role κ)) (position : Nat) (s : Session κ) :
    r.config.cyclePolicy.Settles (fun candidate ↦ (r.satisfies required candidate).1) held
      (r.anySatisfiesIn required (held.zipIdx position) s).1 := by
  induction held generalizing position s with
  | nil => exact .exhausted
  | cons candidate rest ih =>
    obtain ⟨hanswer, -⟩ := checkAfter_of_deterministic hdet required s.history candidate
    rw [List.zipIdx_cons]
    rcases anySatisfiesIn_cons r required candidate position (rest.zipIdx (position + 1)) s with
      ⟨hd, ha, -⟩ | ⟨hd, s', -, hrest⟩
    · rw [ha, hanswer]
      rw [hanswer] at hd
      exact .decided hd
    · rw [hrest]
      rw [hanswer] at hd
      exact .passed hd (ih (position + 1) s')

/-- Over a registry that was built, with deterministic functions, take a check over held roles.
Where cycles are skipped the answer is whether one of the roles satisfies, the same for every order
of the roles, and further roles anywhere do not turn it from true to false. Where cycles abort the
check there is no fault, and there is an error exactly when some role runs into a cycle and none
before it satisfies; any other answer is the one that skipping gives. So a check that is answered
with true by skipping is answered with true by aborting, too, for some order of the roles. -/
theorem anySatisfies_policies (hK : K.Lawful) {b : RegistryBuilder κ}
    (hb : (b.build K).1 = .ok r.registry) (hdet : r.registry.Deterministic) (required : Role κ) :
    let skipping held := ((r.withPolicy .skipCandidate).anySatisfies held required).1
    let aborting held := ((r.withPolicy .abortAll).anySatisfies held required).1
    (∀ held, skipping held =
      .ok (held.any fun candidate ↦ (r.satisfies required candidate).1 = .ok true)) ∧
    (∀ held held', held.Perm held' → skipping held = skipping held') ∧
    (∀ held held', held.Sublist held' → skipping held = .ok true → skipping held' = .ok true) ∧
    (∀ held satisfied, aborting held = .ok satisfied → skipping held = .ok satisfied) ∧
    (∀ held fault, aborting held ≠ .error (.fault fault)) ∧
    (∀ held, (∃ e, aborting held = .error (.error e)) ↔
      ∃ before candidate after, held = before ++ candidate :: after ∧
        (∃ e, (r.satisfies required candidate).1 = .error (.error e)) ∧
        ∀ other ∈ before, (r.satisfies required other).1 ≠ .ok true) ∧
    ∀ held, skipping held = .ok true → ∃ held', held.Perm held' ∧ aborting held' = .ok true := by
  intro skipping aborting
  have hR := Registry.complete_of_build hK hb
  have hf : ∀ candidate fault, (r.satisfies required candidate).1 ≠ .error (.fault fault) :=
    fun candidate fault ↦ checkAfter_ne_fault hK hR required [] candidate fault
  have hskip (held) : CyclePolicy.skipCandidate.Settles
      (fun candidate ↦ (r.satisfies required candidate).1) held (skipping held) :=
    anySatisfiesIn_settles (r := r.withPolicy .skipCandidate) hdet required held 0 {}
  have habort (held) : CyclePolicy.abortAll.Settles
      (fun candidate ↦ (r.satisfies required candidate).1) held (aborting held) :=
    anySatisfiesIn_settles (r := r.withPolicy .abortAll) hdet required held 0 {}
  have hany (held) := (hskip held).eq_ok_any hf
  refine ⟨hany, ?_, ?_, ?_, fun held ↦ (habort held).ne_fault hf,
    fun held ↦ (habort held).error_iff hf, ?_⟩
  · intro held held' hperm
    rw [hany, hany, hperm.any_eq]
  · intro held held' hsub
    rw [hany, hany, Except.ok.injEq, Except.ok.injEq, List.any_eq_true, List.any_eq_true]
    rintro ⟨candidate, hm, hs⟩
    exact ⟨candidate, hsub.subset hm, hs⟩
  · intro held satisfied ha
    rw [hany, (habort held).eq_any ha]
  · intro held hs
    rw [hany, Except.ok.injEq, List.any_eq_true] at hs
    obtain ⟨candidate, hm, hc⟩ := hs
    obtain ⟨before, after, rfl⟩ := List.append_of_mem hm
    exact ⟨candidate :: (before ++ after), List.perm_middle,
      (habort _).of_first (of_decide_eq_true hc)⟩

end Resolver

open Rank in
/-- On the ladder the check of an owner as a member runs into a cycle. Among held roles the order
decides what comes of it where cycles abort the check, but not where they are skipped. -/
theorem Rank.owner_before_member :
    let aborting : Resolver kinds := (resolver []).withPolicy .abortAll
    kinds.Lawful ∧ ((builder []).build kinds).1 = .ok (ladder []) ∧ (ladder []).Deterministic ∧
      ((resolver []).anySatisfies [.unit owner, .unit member] (.unit member)).1 = .ok true ∧
      ((resolver []).anySatisfies [.unit member, .unit owner] (.unit member)).1 = .ok true ∧
      ((resolver []).anySatisfies [.unit guest, .unit owner, .unit member] (.unit member)).1 =
        .ok true ∧
      (∃ e, (aborting.anySatisfies [.unit owner, .unit member] (.unit member)).1 =
        .error (.error e)) ∧
      (aborting.anySatisfies [.unit guest, .unit member, .unit owner] (.unit member)).1 = .ok true ∧
      ∃ held', [.unit owner, .unit member].Perm held' ∧
        (aborting.anySatisfies held' (.unit member)).1 = .ok true := by
  intro aborting
  have hdet : (ladder []).Deterministic := deterministic_ladder (by simp)
  have hb : ((builder []).build kinds).1 = .ok (resolver []).registry := build_ladder
  obtain ⟨-, hperm, hmore, -, -, herror, horder⟩ :=
    Resolver.anySatisfies_policies lawful_kinds hb hdet (.unit member)
  have hskip : ((resolver []).anySatisfies [.unit owner, .unit member] (.unit member)).1 =
      .ok true := rfl
  have hcyclic : ((resolver []).satisfies (.unit member) (.unit owner)).1 =
      .error (.error ⟨editor, [owner, editor, admin, editor]⟩) := rfl
  refine ⟨lawful_kinds, build_ladder, hdet, hskip, ?_, ?_, ?_, rfl, horder _ hskip⟩
  · exact (hperm _ _ (List.Perm.swap ..)).trans hskip
  · exact hmore _ _ (List.sublist_cons_self ..) hskip
  · exact (herror _).mpr ⟨[], .unit owner, [.unit member], rfl, ⟨_, hcyclic⟩, by simp⟩

end RoleResolution

import RoleResolution.Proofs.Search.Prelude
import RoleResolution.Proofs.Search.Termination
import RoleResolution.Resolver.Held

/-!
# Checks over several candidates

A check over held roles is the sequence of checks of its candidates, each by itself with a fresh
tracker, up to the first that decides. Nothing passes from one to the next but what the caller's
own functions remember of their invocations.
-/

namespace RoleResolution

variable {κ : Type} {K : KindSet κ}

/-- The answer of the check of one candidate. -/
abbrev Answer (κ : Type) := Except (Failure (CycleError κ)) Bool

/-- The check of one candidate decides the whole check: the candidate satisfies, or it runs into a
cycle and the policy is to abort then. -/
def CyclePolicy.Decisive (policy : CyclePolicy) : Answer κ → Prop
  | .ok satisfied => satisfied = true
  | .error (.error _) => policy = .abortAll
  | .error (.fault _) => True

/-- What the answers of the candidates that were checked come to, with the candidates left over:
either the last answer alone is decisive and is the answer of the whole check, or none is, no
candidate is left and none satisfies. -/
inductive CyclePolicy.Concludes (policy : CyclePolicy) :
    List (Answer κ) → List (Role κ) → Answer κ → Prop where
  | decided {before : List (Answer κ)} {left : List (Role κ)} {answer : Answer κ}
      (undecided : ∀ other ∈ before, ¬ policy.Decisive other) (decisive : policy.Decisive answer) :
      Concludes policy (before ++ [answer]) left answer
  | exhausted {answers : List (Answer κ)} (undecided : ∀ other ∈ answers, ¬ policy.Decisive other) :
      Concludes policy answers [] (.ok false)

/-- A candidate that does not decide is passed over. -/
theorem CyclePolicy.Concludes.cons {policy : CyclePolicy} {first answer : Answer κ}
    {answers : List (Answer κ)} {left : List (Role κ)} (hf : ¬ policy.Decisive first)
    (h : policy.Concludes answers left answer) :
    policy.Concludes (first :: answers) left answer := by
  cases h with
  | decided undecided decisive =>
    rw [← List.cons_append]
    exact .decided (List.forall_mem_cons.mpr ⟨hf, undecided⟩) decisive
  | exhausted undecided => exact .exhausted (List.forall_mem_cons.mpr ⟨hf, undecided⟩)

/-- What the answers come to is no fault when none of them is. -/
theorem CyclePolicy.Concludes.ne_fault {policy : CyclePolicy} {answers : List (Answer κ)}
    {left : List (Role κ)} {answer : Answer κ} (h : policy.Concludes answers left answer)
    (hf : ∀ other ∈ answers, ∀ fault, other ≠ .error (.fault fault)) (fault : Fault) :
    answer ≠ .error (.fault fault) := by
  cases h with
  | decided undecided decisive =>
    exact hf answer (List.mem_append_right _ List.mem_cons_self) fault
  | exhausted undecided => nofun

/-- Where cycles are skipped and no check ends in a fault, the whole check has an answer. -/
theorem CyclePolicy.Concludes.ok_of_skip {policy : CyclePolicy} (hp : policy = .skipCandidate)
    {answers : List (Answer κ)} {left : List (Role κ)} {answer : Answer κ}
    (h : policy.Concludes answers left answer)
    (hf : ∀ other ∈ answers, ∀ fault, other ≠ .error (.fault fault)) :
    ∃ satisfied, answer = .ok satisfied := by
  rcases answer with (e | fault) | satisfied
  · cases h with
    | decided undecided decisive => cases hp.symm.trans decisive
  · exact absurd rfl (h.ne_fault hf fault)
  · exact ⟨satisfied, rfl⟩

namespace Resolver

variable [DecidableEq κ] {r : Resolver K} {required : Role κ}

/-- Check one candidate by itself, with a fresh tracker, after some invocations. -/
def checkAfter (r : Resolver K) (required : Role κ) (before : History κ) (candidate : Role κ) :
    Outcome κ Bool :=
  r.satisfiesIn required candidate ⟨{}, before, []⟩

/-- Candidates are checked one after another, each by itself: from the invocations before, to their
answers and the invocations after. -/
inductive Checks (r : Resolver K) (required : Role κ) :
    List (Role κ) → History κ → List (Answer κ) → History κ → Prop where
  | done {history : History κ} : Checks r required [] history [] history
  | next {candidate : Role κ} {candidates : List (Role κ)} {before after : History κ}
      {answer : Answer κ} {answers : List (Answer κ)} {s : Session κ}
      (check : r.checkAfter required before candidate = (answer, s))
      (rest : Checks r required candidates s.history answers after) :
      Checks r required (candidate :: candidates) before (answer :: answers) after

/-- In any session a candidate is checked as by itself. -/
theorem satisfiesIn_track (r : Resolver K) (required candidate : Role κ) (s : Session κ) :
    (r.satisfiesIn required candidate (s.track {})).1 =
        (r.checkAfter required s.history candidate).1 ∧
      (r.satisfiesIn required candidate (s.track {})).2.history =
        (r.checkAfter required s.history candidate).2.history := by
  have hs : s.track {} = Session.behind ⟨{}, s.history, []⟩ [] s.events := by
    simp [Session.track, Session.behind]
  rw [hs, satisfiesIn_behind r.registry.ignores_nil]
  exact ⟨rfl, rfl⟩

/-- With deterministic functions a candidate is checked as if it came first. -/
theorem checkAfter_of_deterministic (hdet : r.registry.Deterministic) (required : Role κ)
    (before : History κ) (candidate : Role κ) :
    (r.checkAfter required before candidate).1 = (r.satisfies required candidate).1 ∧
      (r.checkAfter required before candidate).2.history =
        before ++ (r.satisfies required candidate).2.history := by
  have hs : (⟨{}, before, []⟩ : Session κ) = Session.behind {} before [] := by
    simp [Session.behind]
  unfold checkAfter
  rw [hs, satisfiesIn_behind (hdet.ignores before)]
  exact ⟨rfl, rfl⟩

/-- With deterministic functions the candidates are checked independently, and the invocations are
those of their checks put together. -/
theorem Checks.of_deterministic (hdet : r.registry.Deterministic) {candidates : List (Role κ)}
    {before after : History κ} {answers : List (Answer κ)}
    (h : Checks r required candidates before answers after) :
    answers = candidates.map (fun candidate ↦ (r.satisfies required candidate).1) ∧
      after = before ++ candidates.flatMap fun candidate ↦
        (r.satisfies required candidate).2.history := by
  induction h with
  | done => simp
  | @next candidate candidates before after answer answers s check rest ih =>
    obtain ⟨ha, hh⟩ := checkAfter_of_deterministic hdet required before candidate
    rw [check] at ha hh
    obtain ⟨rfl, rfl⟩ := ih
    dsimp only at ha hh
    rw [ha, hh]
    simp

/-- The check of a candidate over a complete registry ends without a fault. -/
theorem checkAfter_ne_fault (hK : K.Lawful) (hR : r.registry.Complete) (required : Role κ)
    (before : History κ) (candidate : Role κ) (fault : Fault) :
    (r.checkAfter required before candidate).1 ≠ .error (.fault fault) := by
  have hn : (⟨{}, before, []⟩ : Session κ).tracker.visited.Nodup := List.nodup_nil
  have hf := (resolveIn_sound hK hR required candidate hn).1 fault
  unfold checkAfter satisfiesIn
  rcases hres : r.resolveIn required candidate ⟨{}, before, []⟩ with ⟨failure | resolution, s⟩
  · rw [hres] at hf
    rintro ⟨⟩
    exact hf rfl
  · nofun

/-- The checks of candidates over a complete registry end without a fault. -/
theorem Checks.ne_fault (hK : K.Lawful) (hR : r.registry.Complete) {candidates : List (Role κ)}
    {before after : History κ} {answers : List (Answer κ)}
    (h : Checks r required candidates before answers after) :
    ∀ answer ∈ answers, ∀ fault, answer ≠ .error (.fault fault) := by
  induction h with
  | done => simp
  | @next candidate candidates before after answer answers s check rest ih =>
    have hf := checkAfter_ne_fault hK hR required before candidate
    rw [check] at hf
    exact List.forall_mem_cons.mpr ⟨hf, ih⟩

/-- The first of several candidates decides the whole check, or else the check goes on with the rest
and with the invocations made so far. -/
theorem anySatisfiesIn_cons (r : Resolver K) (required candidate : Role κ) (position : Nat)
    (rest : List (Role κ × Nat)) (s : Session κ) :
    (r.config.cyclePolicy.Decisive (r.checkAfter required s.history candidate).1 ∧
      (r.anySatisfiesIn required ((candidate, position) :: rest) s).1 =
        (r.checkAfter required s.history candidate).1 ∧
      (r.anySatisfiesIn required ((candidate, position) :: rest) s).2.history =
        (r.checkAfter required s.history candidate).2.history) ∨
    ¬ r.config.cyclePolicy.Decisive (r.checkAfter required s.history candidate).1 ∧
      ∃ s', s'.history = (r.checkAfter required s.history candidate).2.history ∧
        r.anySatisfiesIn required ((candidate, position) :: rest) s =
          r.anySatisfiesIn required rest s' := by
  obtain ⟨ha, hh⟩ := satisfiesIn_track r required candidate s
  rw [← ha, ← hh, anySatisfiesIn]
  rcases r.satisfiesIn required candidate (s.track {}) with ⟨(e | fault) | satisfied, s₁⟩
  · cases hp : r.config.cyclePolicy with
    | skipCandidate =>
      exact .inr ⟨nofun,
        s₁.report (.heldRoleSkipped required candidate position (e.description K)), rfl, rfl⟩
    | abortAll => exact .inl ⟨rfl, rfl, rfl⟩
  · exact .inl ⟨trivial, rfl, rfl⟩
  · cases satisfied with
    | true => exact .inl ⟨rfl, rfl, rfl⟩
    | false => exact .inr ⟨nofun, s₁, rfl, rfl⟩

/-- The check over candidates in any session checks them one after another until one decides. -/
theorem anySatisfiesIn_checks (r : Resolver K) (required : Role κ) (held : List (Role κ))
    (position : Nat) (s : Session κ) :
    ∃ examined left answers, held = examined ++ left ∧
      Checks r required examined s.history answers
        (r.anySatisfiesIn required (held.zipIdx position) s).2.history ∧
      r.config.cyclePolicy.Concludes answers left
        (r.anySatisfiesIn required (held.zipIdx position) s).1 := by
  induction held generalizing position s with
  | nil => exact ⟨[], [], [], rfl, .done, .exhausted (by simp)⟩
  | cons candidate rest ih =>
    rw [List.zipIdx_cons]
    rcases anySatisfiesIn_cons r required candidate position (rest.zipIdx (position + 1)) s with
      ⟨hd, ha, hh⟩ | ⟨hd, s', hs', hrest⟩
    · have hc : r.config.cyclePolicy.Concludes
          ([] ++ [(r.checkAfter required s.history candidate).1]) rest
          (r.checkAfter required s.history candidate).1 := .decided (by simp) hd
      rw [ha, hh]
      exact ⟨[candidate], rest, _, rfl, .next rfl .done, hc⟩
    · obtain ⟨examined, left, answers, rfl, hchecks, hc⟩ := ih (position + 1) s'
      rw [hrest]
      rw [hs'] at hchecks
      exact ⟨candidate :: examined, left, _, rfl, .next rfl hchecks, hc.cons hd⟩

/-- Over a registry that was built, a check over held roles checks candidates by themselves, from
the first on and each with a fresh tracker. Its invocations are theirs. The first candidate that is
decisive is the last one to be checked, and its answer is the answer of the whole check: it
satisfies, or it runs into a cycle that the policy does not skip. When none is decisive all are
checked and none satisfies. No check ends in a fault, so where cycles are skipped there is an
answer. With deterministic functions the candidates do not even share a history. -/
theorem anySatisfies_checks (hK : K.Lawful) {b : RegistryBuilder κ} {r : Resolver K}
    (hb : (b.build K).1 = .ok r.registry) (held : List (Role κ)) (required : Role κ) :
    ∃ examined left answers, held = examined ++ left ∧
      Checks r required examined [] answers (r.anySatisfies held required).2.history ∧
      r.config.cyclePolicy.Concludes answers left (r.anySatisfies held required).1 ∧
      (∀ answer ∈ answers, ∀ fault, answer ≠ .error (.fault fault)) ∧
      (r.config.cyclePolicy = .skipCandidate →
        ∃ satisfied, (r.anySatisfies held required).1 = .ok satisfied) ∧
      (r.registry.Deterministic →
        answers = examined.map (fun candidate ↦ (r.satisfies required candidate).1) ∧
        (r.anySatisfies held required).2.history = examined.flatMap fun candidate ↦
          (r.satisfies required candidate).2.history) := by
  have hR := Registry.complete_of_build hK hb
  obtain ⟨examined, left, answers, hheld, hchecks, hc⟩ := anySatisfiesIn_checks r required held 0 {}
  have hf := hchecks.ne_fault hK hR
  refine ⟨examined, left, answers, hheld, hchecks, hc, hf,
    fun hp ↦ hc.ok_of_skip hp hf, fun hdet ↦ ?_⟩
  obtain ⟨ha, hh⟩ := hchecks.of_deterministic hdet
  exact ⟨ha, hh.trans (List.nil_append _)⟩

end Resolver

open Rank in
/-- On the ladder the check of an owner as a member runs into a cycle. Where cycles are skipped the
guest is checked next and is no member, the member decides, and the owner is not checked again.
Where they abort the check, the first owner decides. -/
theorem Rank.owners_as_members :
    let held : List (Role Rank) := [.unit owner, .unit guest, .unit member, .unit owner]
    let aborting : Resolver kinds := ⟨ladder [], { cyclePolicy := .abortAll }⟩
    kinds.Lawful ∧ ((builder []).build kinds).1 = .ok (ladder []) ∧ (ladder []).Deterministic ∧
      ((resolver []).anySatisfies held (.unit member)).1 = .ok true ∧
      (∃ satisfied, ((resolver []).anySatisfies held (.unit member)).1 = .ok satisfied) ∧
      (aborting.anySatisfies held (.unit member)).1 =
        .error (.error ⟨editor, [owner, editor, admin, editor]⟩) ∧
      ∃ examined left answers, held = examined ++ left ∧
        answers = examined.map (fun candidate ↦
          (aborting.satisfies (.unit member) candidate).1) ∧
        CyclePolicy.abortAll.Concludes answers left
          (aborting.anySatisfies held (.unit member)).1 := by
  intro held aborting
  have hdet : (ladder []).Deterministic := deterministic_ladder (by simp)
  obtain ⟨-, -, -, -, -, -, -, hskip, -⟩ := Resolver.anySatisfies_checks (r := resolver [])
    lawful_kinds build_ladder held (.unit member)
  obtain ⟨examined, left, answers, hheld, -, hconcludes, -, -, hdeterministic⟩ :=
    Resolver.anySatisfies_checks (r := aborting) lawful_kinds build_ladder held (.unit member)
  exact ⟨lawful_kinds, build_ladder, hdet, rfl, hskip rfl, rfl, examined, left, answers, hheld,
    (hdeterministic hdet).1, hconcludes⟩

end RoleResolution

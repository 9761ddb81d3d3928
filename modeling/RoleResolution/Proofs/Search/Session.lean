import RoleResolution.Resolver.Basic

/-!
# Steps of a session

The conversions invoked in a session are read off its history. Direct rules ask predicates
only, so neither the tracker nor the conversions invoked so far change while they are tried.
Entering a kind has three outcomes: a cycle, a longer tracker, or an overrun.
-/

namespace RoleResolution

variable {κ : Type}

/-- The conversion rule that an invocation uses: the kind that has it and its position. -/
def Invocation.conversionRule? : Invocation κ → Option (κ × Nat)
  | .predicate _ _ _ _ _ => none
  | .conversion owner index _ _ => some (owner, index)

namespace Session

/-- The conversion rules invoked so far, in order. -/
def conversionCalls (s : Session κ) : List (κ × Nat) :=
  s.history.filterMap Invocation.conversionRule?

/-- An event leaves the tracker. -/
@[simp]
theorem tracker_report (s : Session κ) (e : Event κ) : (s.report e).tracker = s.tracker := rfl

/-- An invocation leaves the tracker. -/
@[simp]
theorem tracker_record (s : Session κ) (i : Invocation κ) : (s.record i).tracker = s.tracker :=
  rfl

/-- An event invokes nothing. -/
@[simp]
theorem conversionCalls_report (s : Session κ) (e : Event κ) :
    (s.report e).conversionCalls = s.conversionCalls := rfl

/-- An invocation adds the conversion rule that it uses, if any. -/
@[simp]
theorem conversionCalls_record (s : Session κ) (i : Invocation κ) :
    (s.record i).conversionCalls = s.conversionCalls ++ i.conversionRule?.toList := by
  simp only [conversionCalls, record, List.filterMap_append, List.append_cancel_left_eq]
  cases h : i.conversionRule? <;> simp [h]

end Session

namespace CycleTracker

variable [DecidableEq κ] {K : KindSet κ} {t : CycleTracker κ} {kind : κ}

/-- Entering a visited kind is a cycle and leaves the tracker. -/
theorem enter_visited (h : kind ∈ t.visited) :
    t.enter K kind = (.error (.error ⟨kind, t.visited ++ [kind]⟩), t) := by
  simp [enter, isVisited, h]

/-- Entering another kind records it while fewer kinds are recorded than listed. -/
theorem enter_fresh (h : kind ∉ t.visited) (hl : t.visited.length < K.count) :
    t.enter K kind = (.ok (), ⟨t.visited ++ [kind]⟩) := by
  have hc : t.visited.length + 1 ≤ K.count := hl
  simp [enter, isVisited, depth, h, hc]

/-- Entering another kind overruns when as many kinds are recorded as listed. -/
theorem enter_full (h : kind ∉ t.visited) (hl : K.count ≤ t.visited.length) :
    t.enter K kind = (.error (.fault .chainOverrun), ⟨t.visited ++ [kind]⟩) := by
  have hc : ¬ t.visited.length + 1 ≤ K.count := by omega
  simp [enter, isVisited, depth, h, hc]

end CycleTracker

namespace Resolver

variable [DecidableEq κ] {K : KindSet κ}

/-- Trying delegated predicates keeps the tracker and invokes no conversion. -/
theorem firstPredicate_frame (owner : κ) (required provided : Role κ)
    (rules : List (DelegatedPredicate κ × Nat)) (s : Session κ) :
    (firstPredicate owner required provided rules s).2.tracker = s.tracker ∧
      (firstPredicate owner required provided rules s).2.conversionCalls =
        s.conversionCalls := by
  induction rules generalizing s with
  | nil => exact ⟨rfl, rfl⟩
  | cons entry rest ih =>
    obtain ⟨rule, index⟩ := entry
    simp only [firstPredicate]
    split
    · exact ih s
    · split
      · -- a predicate is invoked, and its answer says whether the next rule is tried
        split
        · simp [Invocation.conversionRule?]
        · have h := ih (s.record (.predicate owner index provided.payload required.payload
            (rule.predicate s.history provided.payload required.payload)))
          simpa [Invocation.conversionRule?] using h
      · exact ih (s.report _)

/-- Trying the rules of a definition keeps the tracker and invokes no conversion. -/
theorem matchRules_frame (d : RoleDefinition κ) (required provided : Role κ) (s : Session κ) :
    (matchRules d required provided s).2.tracker = s.tracker ∧
      (matchRules d required provided s).2.conversionCalls = s.conversionCalls := by
  unfold matchRules
  split
  · exact ⟨rfl, rfl⟩
  · split
    · exact ⟨rfl, rfl⟩
    · exact firstPredicate_frame d.kind required provided d.delegated.zipIdx s

/-- Trying the direct rules keeps the tracker and invokes no conversion. -/
theorem matchDirect_frame (R : Registry K) (required provided : Role κ) (s : Session κ) :
    (matchDirect R required provided s).2.tracker = s.tracker ∧
      (matchDirect R required provided s).2.conversionCalls = s.conversionCalls := by
  unfold matchDirect
  split
  · exact ⟨rfl, rfl⟩
  · split
    · exact ⟨rfl, rfl⟩
    · next d hd => exact matchRules_frame d required provided s

/-- Whether a role satisfies another is read off the resolution of the check. -/
theorem satisfiesIn_eq (r : Resolver K) (required provided : Role κ) (s : Session κ) :
    r.satisfiesIn required provided s =
      ((r.resolveIn required provided s).1.map Resolution.isSatisfied,
        (r.resolveIn required provided s).2) := by
  unfold satisfiesIn
  rcases r.resolveIn required provided s with ⟨failure | resolution, s'⟩ <;> rfl

end Resolver
end RoleResolution

import Mathlib.Data.Finset.Insert
import RoleResolution.Proofs.Search.Exploration

/-!
# Tracking in two containers

A tracker may keep the entered kinds twice: in a set, where a kind is looked up, and in a chain,
which has them in order. Entering a kind writes the set before it is known whether the kind is a
repeated one, and the chain only after that, so the two could part on the way out of a failure.
Here whole checks run on such a tracker, and with one path, on which a kind is pushed before the
search from it and popped after a search that found nothing. They come out as with the chain alone
and without the path. However they end, the set and the chain hold the same kinds.
-/

namespace RoleResolution

variable {κ : Type}

namespace Strict

/-! ### Trackers -/

/-- A tracker that also has the entered kinds as a set, and the number of kinds that the chain was
made for. -/
structure Tracker (κ : Type) extends CycleTracker κ where
  entered : Finset κ := ∅
  limit : Nat

namespace Tracker

/-- A tracker without any kind, for the kinds of a set. -/
def fresh (K : KindSet κ) : Tracker κ where
  limit := K.count

/-- Both containers hold the same kinds, and the chain has room for the listed ones. -/
structure Consistent (K : KindSet κ) (t : Tracker κ) : Prop where
  members : ∀ kind, kind ∈ t.entered ↔ kind ∈ t.visited
  limit : t.limit = K.count

variable {K : KindSet κ} {t : Tracker κ}

/-- A fresh tracker holds no kind in either container. -/
theorem consistent_fresh : (fresh K).Consistent K where
  members _ := ⟨nofun, nofun⟩
  limit := rfl

variable [DecidableEq κ]

/-- Whether a kind was entered, by the set. -/
def isVisited (t : Tracker κ) (kind : κ) : Bool := kind ∈ t.entered

/-- Enter a kind: first into the set, and into the chain if the set did not have it. -/
def enter (t : Tracker κ) (kind : κ) :
    Except (Failure (CycleError κ)) Unit × Tracker κ :=
  let noted : Tracker κ := { t with entered := insert kind t.entered }
  if kind ∈ t.entered then (.error (.error ⟨kind, noted.visited ++ [kind]⟩), noted)
  else
    let recorded : Tracker κ := { noted with visited := noted.visited ++ [kind] }
    if recorded.depth ≤ recorded.limit then (.ok (), recorded)
    else (.error (.fault .chainOverrun), recorded)

/-- Entering a kind that the set has is a cycle and leaves both containers. -/
theorem enter_of_mem {kind : κ} (h : kind ∈ t.entered) :
    t.enter kind = (.error (.error ⟨kind, t.visited ++ [kind]⟩), t) := by
  simp [enter, h, Finset.insert_eq_of_mem h]

end Tracker

/-! ### Checks -/

/-- What a check with such a tracker leaves behind, whatever its outcome. -/
structure State (κ : Type) where
  tracker : Tracker κ
  history : History κ := []
  events : List (Event κ) := []

namespace State

variable (s : State κ)

/-- The session with the chain alone. -/
def plain : Session κ := ⟨s.tracker.toCycleTracker, s.history, s.events⟩

/-- Take over the invocations and the events of a session. -/
def resume (s' : Session κ) : State κ := ⟨s.tracker, s'.history, s'.events⟩

/-- Report an event. -/
def report (e : Event κ) : State κ := s.resume (s.plain.report e)

/-- Continue with another tracker. -/
def track (t : Tracker κ) : State κ := { s with tracker := t }

end State

/-- Whether a search found a granting rule, or how it failed. -/
abbrev Answer (κ : Type) := Except (Failure (CycleError κ)) (Option MatchedRule)

/-- A search from a provided role, with the kinds on the path to it. -/
abbrev SearchFrom (κ : Type) := Role κ → List κ → State κ → Answer κ × List κ × State κ

/-- Try conversions of a role in order, each with the whole search from its result, until one
leads to a grant or a failure. The path is longer by the kind of the result meanwhile. -/
def tryConversions (search : SearchFrom κ) (owner : κ) (provided : Role κ) :
    List (ConversionRule κ × Nat) → List κ → State κ → Answer κ × List κ × State κ
  | [], path, s => (.ok none, path, s)
  | (rule, index) :: rest, path, s =>
    match Resolver.attempt owner provided rule index s.plain with
    | (none, s') => tryConversions search owner provided rest path (s.resume s')
    | (some converted, s') =>
      match search converted (path ++ [converted.kind]) (s.resume s') with
      | (.ok none, path, s) => tryConversions search owner provided rest path.dropLast s
      | (.ok (some rule'), path, s) => (.ok (some rule'), path, s)
      | (.error failure, path, s) => (.error failure, path, s)

variable [DecidableEq κ] {K : KindSet κ}

/-- Examine one role: the direct rules, then its conversions, which go on with `search`. -/
def examine (R : Registry K) (required : Role κ) (search : SearchFrom κ) : SearchFrom κ :=
  fun provided path s ↦
    match Resolver.matchDirect R required provided s.plain with
    | (.error failure, s') => (.error failure, path, s.resume s')
    | (.ok (some rule), s') =>
      (.ok (some rule), path, s.resume (s'.report (.directRuleMatched provided rule)))
    | (.ok none, s') =>
      match R.lookup provided.kind with
      | .error fault => (.error (.fault fault), path, s.resume s')
      | .ok d =>
        if d.conversions.isEmpty then (.ok none, path, s.resume s')
        else match s.tracker.enter provided.kind with
          | (.error failure, t) => (.error failure, path, (s.resume s').track t)
          | (.ok (), t) =>
            tryConversions search d.kind provided d.conversions.zipIdx path ((s.resume s').track t)

/-- Search along chains of at most `hops` conversions. -/
def searchWithin (R : Registry K) (required : Role κ) : Nat → SearchFrom κ
  | 0 => examine R required fun _ path s ↦ (.error (.fault .chainOverrun), path, s)
  | hops + 1 => examine R required (searchWithin R required hops)

/-- Resolve a check, going on with a state. The path is empty at first. -/
def resolveIn (r : Resolver K) (required provided : Role κ) (s : State κ) :
    Except (Failure (CycleError κ)) (Resolution κ) × State κ :=
  match searchWithin r.registry required K.count provided [] s with
  | (.error failure, _, s) => (.error failure, s)
  | (.ok found, path, s) =>
    let resolution := match found with
      | some rule => Resolution.granted rule path
      | none => Resolution.denied
    match r.logsCheck required.kind provided.kind with
    | .error fault => (.error (.fault fault), s)
    | .ok true =>
      (.ok resolution,
        s.report (.roleChecked required provided resolution.rule resolution.hops))
    | .ok false =>
      (.ok resolution, s.report (.roleCheckedBriefly required provided resolution.isSatisfied))

/-- Whether a provided role satisfies a required one, going on with a state. -/
def satisfiesIn (r : Resolver K) (required provided : Role κ) (s : State κ) :
    Except (Failure (CycleError κ)) Bool × State κ :=
  match resolveIn r required provided s with
  | (.ok resolution, s) => (.ok resolution.isSatisfied, s)
  | (.error failure, s) => (.error failure, s)

/-! ### Agreement -/

/-- A run with both containers comes out as one with the chain alone, and leaves the same kinds in
both of them. -/
structure Agrees {α : Type} (K : KindSet κ) (run : α × State κ) (plain : α × Session κ) :
    Prop where
  consistent : run.2.tracker.Consistent K
  same : plain = (run.1, run.2.plain)

/-- What a search leaves of the path that it was given: all of it when it found nothing, and the way
to the grant after it when there is one. A failed search may leave more. -/
inductive Leaves (path : List κ) : Answer κ → List κ → Finding κ → Prop where
  | failed (failure : Failure (CycleError κ)) (left : List κ) :
      Leaves path (.error failure) left (.error failure)
  | fruitless : Leaves path (.ok none) path (.ok none)
  | granted (rule : MatchedRule) (way : List κ) :
      Leaves path (.ok (some rule)) (path ++ way) (.ok (some (rule, way)))

omit [DecidableEq κ] in
/-- A grant without conversions leaves the path as it was. -/
theorem Leaves.direct (path : List κ) (rule : MatchedRule) :
    Leaves path (.ok (some rule)) path (.ok (some (rule, []))) := by
  have h : Leaves path (.ok (some rule)) (path ++ []) (.ok (some (rule, []))) := .granted rule []
  rwa [List.append_nil] at h

omit [DecidableEq κ] in
/-- The kind that a grant leaves pushed on the path is the first one of the way. -/
theorem Leaves.pushed {path left way : List κ} {kind : κ} {rule : MatchedRule}
    (h : Leaves (path ++ [kind]) (.ok (some rule)) left (.ok (some (rule, way)))) :
    Leaves path (.ok (some rule)) left (.ok (some (rule, kind :: way))) := by
  cases h with
  | granted =>
    rw [← List.append_cons]
    exact .granted rule (kind :: way)

/-- A search with both containers and a path comes out as one with the chain alone, and leaves the
same kinds in both containers. -/
structure Finds (K : KindSet κ) (path : List κ) (run : Answer κ × List κ × State κ)
    (plain : Finding κ × Session κ) : Prop where
  consistent : run.2.2.tracker.Consistent K
  same : plain.2 = run.2.2.plain
  leaves : Leaves path run.1 run.2.1 plain.1

/-- A search with both containers finds what one with the chain alone does, on whatever path and
wherever the containers hold the same kinds. -/
def Simulates (K : KindSet κ) (search : SearchFrom κ) (plain : Resolver.SearchFrom κ) : Prop :=
  ∀ provided path s, s.tracker.Consistent K →
    Finds K path (search provided path s) (plain provided s.plain)

omit [DecidableEq κ] in
/-- What a session has that went on with the same chain is taken over as a whole. -/
theorem State.plain_resume {s : State κ} {s' : Session κ}
    (h : s'.tracker = s.tracker.toCycleTracker) : (s.resume s').plain = s' := by
  unfold State.resume State.plain
  rw [← h]

omit [DecidableEq κ] in
/-- A step that leaves the chain comes out the same. -/
theorem Finds.resume {s : State κ} {s' : Session κ} (hs : s.tracker.Consistent K)
    (h : s'.tracker = s.tracker.toCycleTracker) {path left : List κ} {answer : Answer κ}
    {finding : Finding κ} (hleaves : Leaves path answer left finding) :
    Finds K path (answer, left, s.resume s') (finding, s') where
  consistent := hs
  same := (State.plain_resume h).symm
  leaves := hleaves

/-- Entering a kind comes out as with the chain alone, and keeps the same kinds in both
containers. -/
theorem Tracker.Consistent.enter {t : Tracker κ} (h : t.Consistent K) (kind : κ) :
    (t.enter kind).2.Consistent K ∧ t.toCycleTracker.enter K kind =
      ((t.enter kind).1, (t.enter kind).2.toCycleTracker) := by
  by_cases hv : kind ∈ t.entered
  · rw [enter_of_mem hv, CycleTracker.enter_visited ((h.members kind).mp hv)]
    exact ⟨h, rfl⟩
  · have hn : kind ∉ t.visited := fun hm ↦ hv ((h.members kind).mpr hm)
    have hmembers : ∀ k, k ∈ insert kind t.entered ↔ k ∈ t.visited ++ [kind] := by
      intro k
      rw [Finset.mem_insert, List.mem_append, List.mem_singleton, h.members k]
      exact or_comm
    simp only [Tracker.enter, if_neg hv, CycleTracker.enter, CycleTracker.isVisited, hn,
      decide_false, Bool.false_eq_true, if_false, ← h.limit]
    split
    · exact ⟨⟨hmembers, h.limit⟩, rfl⟩
    · exact ⟨⟨hmembers, h.limit⟩, rfl⟩

omit [DecidableEq κ] in
/-- Trying conversions comes out the same. The path is restored after a search that found nothing,
and keeps the kind of the result in front of the way to a grant. -/
theorem tryConversions_finds {search : SearchFrom κ} {plain : Resolver.SearchFrom κ}
    (h : Simulates K search plain) (owner : κ) (provided : Role κ)
    (rules : List (ConversionRule κ × Nat)) (path : List κ) {s : State κ}
    (hs : s.tracker.Consistent K) :
    Finds K path (tryConversions search owner provided rules path s)
      (Resolver.tryConversions plain owner provided rules s.plain) := by
  induction rules generalizing s with
  | nil => exact ⟨hs, rfl, .fruitless⟩
  | cons entry rest ih =>
    obtain ⟨rule, index⟩ := entry
    rw [tryConversions, Resolver.tryConversions_cons]
    rcases ha : Resolver.attempt owner provided rule index s.plain with ⟨converted?, s'⟩
    have hresume := State.plain_resume (Resolver.attempt_frame ha).1
    cases converted? with
    | none =>
      have hrest := ih (s := s.resume s') hs
      rw [hresume] at hrest
      exact hrest
    | some converted =>
      have hinner := h converted (path ++ [converted.kind]) (s.resume s') hs
      rw [hresume] at hinner
      dsimp only
      generalize search converted (path ++ [converted.kind]) (s.resume s') = run at hinner ⊢
      generalize plain converted s' = found at hinner ⊢
      obtain ⟨answer, left, s₁⟩ := run
      obtain ⟨finding, s₁'⟩ := found
      obtain ⟨hc, rfl, hleaves⟩ := hinner
      cases hleaves with
      | failed failure => exact ⟨hc, rfl, .failed failure left⟩
      | fruitless =>
        change Finds K path (tryConversions search owner provided rest
          (path ++ [converted.kind]).dropLast s₁) _
        rw [List.dropLast_concat]
        exact ih hc
      | granted rule' way => exact ⟨hc, rfl, (Leaves.granted rule' way).pushed⟩

/-- Examining a role comes out the same when the searches from the results of its conversions do. -/
theorem examine_simulates (R : Registry K) (required : Role κ) {search : SearchFrom κ}
    {plain : Resolver.SearchFrom κ} (h : Simulates K search plain) :
    Simulates K (examine R required search) (Resolver.examine R required plain) := by
  intro provided path s hs
  have hframe := (Resolver.matchDirect_frame R required provided s.plain).1
  unfold examine Resolver.examine
  generalize Resolver.matchDirect R required provided s.plain = matched at hframe ⊢
  obtain ⟨failure | _ | rule, s'⟩ := matched
  · exact .resume hs hframe (.failed failure path)
  · dsimp only
    cases R.lookup provided.kind with
    | error fault => exact .resume hs hframe (.failed (.fault fault) path)
    | ok d =>
      dsimp only
      split
      · exact .resume hs hframe .fruitless
      · -- the direct rules have left the chain, so it is the one of the state that is entered
        have htracker : s'.tracker = s.tracker.toCycleTracker := hframe
        obtain ⟨hc, hsame⟩ := hs.enter provided.kind
        rw [htracker, hsame]
        generalize s.tracker.enter provided.kind = entered at hc ⊢
        obtain ⟨failure | _, t⟩ := entered
        · exact ⟨hc, rfl, .failed failure path⟩
        · exact tryConversions_finds h d.kind provided d.conversions.zipIdx path hc
  · have htracker : (s'.report (.directRuleMatched provided rule)).tracker =
        s.tracker.toCycleTracker := hframe
    exact .resume hs htracker (.direct path rule)

/-- Searching along chains of bounded length comes out the same. -/
theorem searchWithin_simulates (R : Registry K) (required : Role κ) (hops : Nat) :
    Simulates K (searchWithin R required hops) (Resolver.searchWithin R required hops) := by
  induction hops with
  | zero =>
    exact examine_simulates R required fun _ path _ hs ↦
      ⟨hs, rfl, .failed (.fault .chainOverrun) path⟩
  | succ hops ih => exact examine_simulates R required ih

/-- Resolving a check agrees. -/
theorem resolveIn_agrees (r : Resolver K) (required provided : Role κ) {s : State κ}
    (hs : s.tracker.Consistent K) :
    Agrees K (resolveIn r required provided s) (r.resolveIn required provided s.plain) := by
  have hsearch := searchWithin_simulates r.registry required K.count provided [] s hs
  unfold resolveIn Resolver.resolveIn Resolver.search
  generalize searchWithin r.registry required K.count provided [] s = run at hsearch ⊢
  generalize Resolver.searchWithin r.registry required K.count provided s.plain = found
    at hsearch ⊢
  obtain ⟨answer, left, s₁⟩ := run
  obtain ⟨finding, s₁'⟩ := found
  obtain ⟨hc, rfl, hleaves⟩ := hsearch
  cases hleaves with
  | failed failure => exact ⟨hc, rfl⟩
  | fruitless =>
    dsimp only
    rcases r.logsCheck required.kind provided.kind with fault | _ | _ <;> exact ⟨hc, rfl⟩
  | granted rule way =>
    dsimp only
    rcases r.logsCheck required.kind provided.kind with fault | _ | _ <;> exact ⟨hc, rfl⟩

/-- Checking whether a role satisfies another agrees. -/
theorem satisfiesIn_agrees (r : Resolver K) (required provided : Role κ) {s : State κ}
    (hs : s.tracker.Consistent K) :
    Agrees K (satisfiesIn r required provided s) (r.satisfiesIn required provided s.plain) := by
  have hresolve := resolveIn_agrees r required provided hs
  unfold satisfiesIn Resolver.satisfiesIn
  generalize resolveIn r required provided s = resolved at hresolve ⊢
  obtain ⟨failure | resolution, s₁⟩ := resolved
  · rw [hresolve.same]
    exact ⟨hresolve.consistent, rfl⟩
  · rw [hresolve.same]
    exact ⟨hresolve.consistent, rfl⟩

end Strict
end RoleResolution

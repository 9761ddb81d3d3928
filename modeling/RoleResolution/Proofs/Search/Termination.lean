import RoleResolution.Proofs.Search.Work

/-!
# Searches end

A search along chains of bounded length is a search that ends or overruns its bound. No more
kinds can be entered than are listed, so from a tracker without repetitions the search of a
resolution never overruns.
-/

namespace RoleResolution.Resolver

variable {κ : Type} [DecidableEq κ] {K : KindSet κ} {R : Registry K} {required : Role κ}

/-- A search function ends from every role in every session or overruns. It overruns from a
tracker without repetitions only if the bound is no more than the number of kinds left to
enter. -/
def Ends (R : Registry K) (required : Role κ) (bound : Nat) (search : SearchFrom κ) : Prop :=
  ∀ provided s,
    ((search provided s).1 = .error (.fault .chainOverrun) ∧
      (s.tracker.visited.Nodup → bound + s.tracker.depth ≤ K.count)) ∨
    ∃ examined, Explores R required provided s examined (search provided s).1
      (search provided s).2

/-- Trying conversions ends when the searches from their results do. -/
theorem tryConversions_ends (hK : K.Lawful) (hR : R.Complete) {bound : Nat}
    {search : SearchFrom κ} (h : Ends R required bound search) (owner : κ) (provided : Role κ)
    (rules : List (ConversionRule κ × Nat)) (s : Session κ) :
    ((tryConversions search owner provided rules s).1 = .error (.fault .chainOverrun) ∧
      (s.tracker.visited.Nodup → bound + s.tracker.depth ≤ K.count)) ∨
    ∃ examined, ExploresRules R required owner provided rules s examined
      (tryConversions search owner provided rules s).1
      (tryConversions search owner provided rules s).2 := by
  induction rules generalizing s with
  | nil => exact .inr ⟨[], .done⟩
  | cons entry rules ih =>
    obtain ⟨rule, index⟩ := entry
    rw [tryConversions_cons]
    split
    · next s₁ ha =>
      rw [← (attempt_frame ha).1]
      rcases ih s₁ with hf | ⟨examined, he⟩
      · exact .inl hf
      · exact .inr ⟨examined, .declined ha he⟩
    · next converted s₁ ha =>
      rw [← (attempt_frame ha).1]
      have hs := h converted s₁
      split
      · next s₂ hn =>
        rw [hn] at hs
        rcases hs with ⟨hf, -⟩ | ⟨examined, he⟩
        · cases hf
        · rcases ih s₂ with ⟨hf, hroom⟩ | ⟨later, hl⟩
          · refine .inl ⟨hf, fun hnodup ↦ ?_⟩
            -- the search from the result has left no more room than there was
            obtain ⟨-, entered, calls, hw, -, -⟩ := he.work hK hR hnodup
            have hvisited : s₂.tracker.visited = s₁.tracker.visited ++ entered := hw.visited
            have hr := hroom hw.fresh
            unfold CycleTracker.depth at hr ⊢
            rw [hvisited, List.length_append] at hr
            omega
          · exact .inr ⟨examined ++ later, .fruitless ha he hl⟩
      · next finding s₂ hne hn =>
        rw [hn] at hs
        rcases hs with ⟨rfl, hroom⟩ | ⟨examined, he⟩
        · exact .inl ⟨rfl, hroom⟩
        · refine .inr ⟨examined, .decided ha he ?_⟩
          rintro rfl
          exact hne rfl

/-- Examining a role ends when the searches from the results of its conversions do. -/
theorem examine_ends (hK : K.Lawful) (hR : R.Complete) {bound : Nat} {search : SearchFrom κ}
    (h : Ends R required bound search) :
    Ends R required (bound + 1) (examine R required search) := by
  intro provided s
  have hi := inspected hR required provided s
  rw [examine_eq]
  split
  · next finding s₁ hs => exact .inr ⟨[provided], .settled hs⟩
  · next d s₁ hs =>
    rw [hs] at hi
    rcases tryConversions_ends hK hR h d.kind provided d.conversions.zipIdx s₁ with
      ⟨hf, hroom⟩ | ⟨examined, he⟩
    · refine .inl ⟨hf, fun hnodup ↦ ?_⟩
      cases hi with
      | entered unmatched lookup converts fresh tracker =>
        unfold CycleTracker.depth at hroom ⊢
        rw [tracker, List.length_append, List.length_singleton] at hroom
        have hr := hroom (CycleTracker.nodup_fresh hnodup fresh)
        omega
    · exact .inr ⟨provided :: examined, .entered hs he⟩

/-- A search along chains of bounded length ends unless it overruns its bound. -/
theorem searchWithin_ends (hK : K.Lawful) (hR : R.Complete) (required : Role κ) (hops : Nat) :
    Ends R required (hops + 1) (searchWithin R required hops) := by
  induction hops with
  | zero =>
    refine examine_ends hK hR fun provided s ↦ .inl ⟨rfl, fun hnodup ↦ ?_⟩
    rw [Nat.zero_add]
    exact hK.length_le_count hnodup
  | succ hops ih => exact examine_ends hK hR ih

/-- The search of a resolution ends or overruns; its bound is more than the number of kinds. -/
theorem search_ends (hK : K.Lawful) (hR : R.Complete) (required : Role κ) :
    Ends R required (K.count + 1) (search R required) :=
  searchWithin_ends hK hR required K.count

/-- A search from a tracker without repetitions ends. -/
theorem search_explores (hK : K.Lawful) (hR : R.Complete) (required provided : Role κ)
    (s : Session κ) (hn : s.tracker.visited.Nodup) :
    ∃ examined, Explores R required provided s examined (search R required provided s).1
      (search R required provided s).2 := by
  rcases search_ends hK hR required provided s with ⟨-, hroom⟩ | h
  · have hr := hroom hn
    omega
  · exact h

/-! ### Resolutions -/

/-- A resolution with a tracker without repetitions is what the search finds when it ends, with
all that it did. -/
theorem resolveWith_explores (hK : K.Lawful) {r : Resolver K} (hR : r.registry.Complete)
    (required provided : Role κ) {t : CycleTracker κ} (hn : t.visited.Nodup) :
    ∃ examined finding s', Explores r.registry required provided ⟨t, [], []⟩ examined finding s' ∧
      (r.resolveWith required provided t).1 = finding.resolution ∧
      (r.resolveWith required provided t).2.tracker = s'.tracker ∧
      (r.resolveWith required provided t).2.history = s'.history := by
  obtain ⟨examined, he⟩ := search_explores hK hR required provided ⟨t, [], []⟩ hn
  exact ⟨examined, _, _, he, resolveIn_search hR required provided ⟨t, [], []⟩⟩

/-- A check that goes on from a tracker without repetitions ends without a fault, and leaves a
tracker without repetitions. -/
theorem resolveIn_sound (hK : K.Lawful) {r : Resolver K} (hR : r.registry.Complete)
    (required provided : Role κ) {s : Session κ} (hn : s.tracker.visited.Nodup) :
    (∀ fault, (r.resolveIn required provided s).1 ≠ .error (.fault fault)) ∧
      (r.resolveIn required provided s).2.tracker.visited.Nodup := by
  obtain ⟨examined, he⟩ := search_explores hK hR required provided s hn
  obtain ⟨hf, entered, calls, hw, -, -⟩ := he.work hK hR hn
  obtain ⟨hr, ht, -⟩ := resolveIn_search hR required provided s
  rw [hr, ht]
  exact ⟨fun fault h ↦ hf fault (Finding.resolution_eq_error.mp h), hw.fresh⟩

end RoleResolution.Resolver

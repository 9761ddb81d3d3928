import Mathlib.Data.List.Chain
import Mathlib.Data.List.Nodup
import RoleResolution.Proofs.Conversion.Feedback

/-!
# Reported cycles are cycles

The path of the search goes along edges and repeats no kind. A kind on the path that is met again
therefore closes a cycle, and what the search reports is the part of the path from there on.
-/

namespace RoleResolution

variable {κ : Type}

/-- A cycle goes along edges, starts and ends with one kind, and repeats no other. -/
structure IsCycle (Edge : κ → κ → Prop) (cycle : List κ) : Prop where
  closed : ∃ kind middle, cycle = kind :: middle ++ [kind] ∧ (kind :: middle).Nodup
  edges : cycle.IsChain Edge

/-- Along edges every kind leads to the later ones. -/
theorem pairwise_of_isChain {Edge : κ → κ → Prop} {path : List κ} (h : path.IsChain Edge) :
    path.Pairwise (Relation.TransGen Edge) :=
  List.isChain_iff_pairwise.mp (h.imp fun _ _ ↦ Relation.TransGen.single)

/-- The kinds of a cycle lead to each other. -/
theorem IsCycle.reaches {Edge : κ → κ → Prop} {cycle : List κ} (h : IsCycle Edge cycle)
    {source target : κ} (hs : source ∈ cycle) (ht : target ∈ cycle) :
    Relation.TransGen Edge source target := by
  obtain ⟨⟨kind, middle, rfl, -⟩, hchain⟩ := h
  have hp := pairwise_of_isChain hchain
  -- the kind at both ends leads to all others, and all others lead to it
  have hto : ∀ other ∈ kind :: middle ++ [kind], Relation.TransGen Edge other kind := by
    intro other ho
    have ho : other ∈ kind :: middle := by simpa [or_comm] using ho
    exact (List.pairwise_append.mp hp).2.2 other ho kind List.mem_cons_self
  have hfrom : ∀ other ∈ kind :: middle ++ [kind], Relation.TransGen Edge kind other := by
    intro other ho
    have ho : other ∈ middle ++ [kind] := by simpa [or_comm] using ho
    exact (List.pairwise_cons.mp hp).1 other ho
  exact (hto source hs).trans (hfrom target ht)

/-- A cycle leads from a kind back to it. -/
theorem IsCycle.transGen {Edge : κ → κ → Prop} {cycle : List κ} (h : IsCycle Edge cycle) :
    ∃ kind, Relation.TransGen Edge kind kind := by
  obtain ⟨kind, middle, hc, -⟩ := h.closed
  have hk : kind ∈ cycle := by simp [hc]
  exact ⟨kind, h.reaches hk hk⟩

namespace ConversionGraph

variable {K : KindSet κ} {g : ConversionGraph κ}

/-- The reported cycles are cycles of the graph. -/
def Search.Sound (K : KindSet κ) (g : ConversionGraph κ) (s : Search κ) : Prop :=
  ∀ cycle ∈ s.cycles, IsCycle (g.Edge K) cycle

/-- A path without repetition that an edge leads back to closes a cycle. -/
theorem isCycle_of_mem_closedCycle [DecidableEq κ] {Edge : κ → κ → Prop}
    {path cycle : List κ} {kind : κ} (hn : path.Nodup) (hchain : (path ++ [kind]).IsChain Edge)
    (h : cycle ∈ closedCycle path kind) : IsCycle Edge cycle := by
  unfold closedCycle at h
  split at h
  · next hm =>
    cases List.mem_singleton.mp h
    obtain ⟨before, after, rfl⟩ := List.append_of_mem hm
    have hbefore : ∀ other ∈ before, decide (other ≠ kind) = true := by
      intro other ho
      rw [decide_eq_true_eq]
      exact (List.nodup_append.mp hn).2.2 other ho kind List.mem_cons_self
    have hdrop : (before ++ kind :: after).dropWhile (· ≠ kind) = kind :: after := by
      rw [List.dropWhile_append_of_pos hbefore, List.dropWhile_cons_of_neg (by simp)]
    rw [hdrop]
    rw [List.append_assoc] at hchain
    exact ⟨⟨kind, after, rfl, (List.nodup_append.mp hn).2.1⟩, hchain.right_of_append⟩
  · cases h

/-- A step of the search from a path reports cycles only. -/
def Reports (K : KindSet κ) (g : ConversionGraph κ) (path : List κ) (budget : Nat)
    (step : Search κ → κ → Except Fault (Search κ)) : Prop :=
  ∀ kind s s', (path ++ [kind]).IsChain (g.Edge K) → Searching K g path s →
    s.progress.count .unvisited ≤ budget → s.Sound K g → step s kind = .ok s' → s'.Sound K g

variable {path : List κ}

/-- Steps for several kinds report cycles only. -/
theorem Reports.foldlM {budget : Nat} {step : Search κ → κ → Except Fault (Search κ)}
    (hstep : Reports K g path budget step) (hsettles : Settles K g path budget step)
    (kinds : List κ) (hkinds : ∀ kind ∈ kinds, (path ++ [kind]).IsChain (g.Edge K))
    (s s' : Search κ) (h : Searching K g path s) (hb : s.progress.count .unvisited ≤ budget)
    (hs : s.Sound K g) (hf : kinds.foldlM step s = .ok s') : s'.Sound K g := by
  induction kinds generalizing s with
  | nil =>
    cases hf
    exact hs
  | cons kind rest ih =>
    obtain ⟨s₁, hs₁, h₁, hext, -⟩ := hsettles kind s h hb
    have hsound := hstep kind s s₁ (hkinds kind List.mem_cons_self) h hb hs hs₁
    rw [List.foldlM_cons, hs₁] at hf
    exact ih (fun other ho ↦ hkinds other (List.mem_cons_of_mem _ ho)) s₁ h₁
      (Nat.le_trans hext.unvisited hb) hsound hf

variable [DecidableEq κ] {kind : κ} {s s' : Search κ}

/-- A visit of a kind that was visited before reports at most the cycle that the kind closes. -/
theorem sound_of_visited {budget : Nat} (hn : path.Nodup)
    (hchain : (path ++ [kind]).IsChain (g.Edge K)) (hv : ¬ s.At K kind .unvisited)
    (hs : s.Sound K g) (h : g.visit K budget path kind s = .ok s') : s'.Sound K g := by
  unfold visit at h
  split at h
  · cases h
  · cases h
    intro cycle hc
    rcases List.mem_append.mp hc with hc | hc
    · exact hs cycle hc
    · exact isCycle_of_mem_closedCycle hn hchain hc
  · cases h
    exact hs
  · next hp => exact absurd hp hv
  · next hp => exact absurd hp hv

/-- A visit along a path without repetition reports cycles only. -/
theorem visit_reports (hK : K.Lawful) (hg : g.edges.length = K.count) (budget : Nat)
    (path : List κ) (hn : path.Nodup) :
    Reports K g path budget fun s kind ↦ g.visit K budget path kind s := by
  induction budget generalizing path with
  | zero =>
    intro kind s s' hchain h hb hs hv
    refine sound_of_visited hn hchain ?_ hs hv
    intro hu
    have hc := Search.count_mark_visiting hu
    omega
  | succ budget ih =>
    intro kind s s' hchain h hb hs hv
    by_cases hu : s.At K kind .unvisited
    · have hp : s.progress[K.index kind]? = some .unvisited := hu
      simp only [visit, hp] at hv
      obtain ⟨targets, ht, hv⟩ := ok_of_bind hv
      obtain ⟨s₂, hs₂, hv⟩ := ok_of_bind hv
      cases hv
      have hc := Search.count_mark_visiting hu
      have hfresh : kind ∉ path := by
        intro hm
        cases hu.unique ((h.onPath kind).mpr hm)
      have hn' : (path ++ [kind]).Nodup := by
        rw [← List.concat_eq_append]
        exact List.Nodup.concat hfresh hn
      have hchains : ∀ target ∈ targets, (path ++ [kind] ++ [target]).IsChain (g.Edge K) := by
        intro target hm
        have hedge : [kind, target].IsChain (g.Edge K) :=
          List.isChain_pair.mpr ⟨targets, ht, hm⟩
        rw [List.append_assoc]
        exact List.isChain_split.mpr ⟨hchain, hedge⟩
      exact (ih (path ++ [kind]) hn').foldlM (visit_settles hK hg budget (path ++ [kind])) targets
        hchains _ s₂ (h.enter hK hu) (by omega) hs hs₂
    · exact sound_of_visited hn hchain hu hs hv

/-- All cycles that the detection reports are cycles of the graph. -/
theorem detectCycles_sound (hK : K.Lawful) (hg : g.edges.length = K.count)
    {cycles : List (List κ)} (h : g.detectCycles K = .ok cycles) :
    ∀ cycle ∈ cycles, IsCycle (g.Edge K) cycle := by
  obtain ⟨s, hs, h⟩ := ok_of_bind h
  cases h
  have hnone : Search.Sound K g ⟨List.replicate g.edges.length .unvisited, []⟩ := by
    intro cycle hc
    cases hc
  refine (visit_reports hK hg g.edges.length [] List.nodup_nil).foldlM
    (visit_settles hK hg g.edges.length []) K.all ?_ _ s (searching_start hg)
    (Nat.le_of_eq List.count_replicate_self) hnone hs
  intro kind _
  exact List.isChain_singleton kind

/-- The detection reports nothing exactly when no kind reaches itself. -/
theorem detectCycles_eq_nil_iff (hK : K.Lawful) (hg : g.edges.length = K.count)
    {cycles : List (List κ)} (h : g.detectCycles K = .ok cycles) :
    cycles = [] ↔ ∀ kind, ¬ Relation.TransGen (g.Edge K) kind kind := by
  constructor
  · rintro rfl
    obtain ⟨cycles, hc, hfeedback⟩ := detectCycles_feedback hK hg
    cases h.symm.trans hc
    rwa [openEdge_nil] at hfeedback
  · intro hacyclic
    cases cycles with
    | nil => rfl
    | cons cycle rest =>
      obtain ⟨kind, hk⟩ := (detectCycles_sound hK hg h cycle List.mem_cons_self).transGen
      exact absurd hk (hacyclic kind)

end ConversionGraph
end RoleResolution

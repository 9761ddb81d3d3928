import Mathlib.Data.List.Nodup
import RoleResolution.Proofs.Conversion.Feedback

/-!
# What a kind reaches

The breadth-first search keeps the kinds reached and, among them, a queue of those whose own
targets are still to be met. Every round meets the targets of one kind, and no kind is queued twice,
so one round more than there are kinds empties the queue: it is no fault to insist on that. By then
the kinds reached are exactly those that conversion edges lead to.
-/

namespace RoleResolution

variable {κ : Type}

namespace Strict

variable (K : KindSet κ) (g : ConversionGraph κ)

/-- Follow the queue until it is empty; the rounds must suffice. -/
def follow : Nat → List κ → List κ → Except Fault (List κ)
  | _, [], reached => .ok reached
  | 0, _ :: _, _ => .error .chainOverrun
  | rounds + 1, kind :: queue, reached => do
    let targets ← g.targets K kind
    let (queue, reached) ← g.meet K targets queue reached
    follow rounds queue reached

/-- Every kind that a kind reaches by one or more conversions, nearest first. -/
def reachable (source : κ) : Except Fault (List κ) :=
  follow K g (g.edges.length + 1) [source] []

end Strict

namespace ConversionGraph

variable {K : KindSet κ} {g : ConversionGraph κ}

/-- Meeting targets reaches those that were not reached before, and queues them. -/
theorem meet_ok (hK : K.Lawful) (hg : g.edges.length = K.count) (targets queue reached : List κ)
    (hn : reached.Nodup) :
    ∃ new, g.meet K targets queue reached = .ok (queue ++ new, reached ++ new) ∧
      (reached ++ new).Nodup ∧ ∀ kind, kind ∈ reached ++ new ↔ kind ∈ reached ∨ kind ∈ targets := by
  induction targets generalizing queue reached with
  | nil => exact ⟨[], by simp [meet], by simpa using hn, by simp⟩
  | cons target rest ih =>
    have hi : K.index target < g.edges.length := hg ▸ hK.index_lt target
    have hseen : (reached.any fun kind ↦ K.index kind == K.index target) = true ↔
        target ∈ reached := by
      rw [List.any_eq_true]
      constructor
      · rintro ⟨kind, hm, he⟩
        exact hK.index_inj (beq_iff_eq.mp he) ▸ hm
      · intro hm
        exact ⟨target, hm, beq_self_eq_true _⟩
    by_cases hm : target ∈ reached
    · obtain ⟨new, hmeet, hnodup, hmem⟩ := ih queue reached hn
      refine ⟨new, ?_, hnodup, fun kind ↦ ?_⟩
      · rw [meet, if_pos hi, if_pos (hseen.mpr hm), hmeet]
      · rw [hmem, List.mem_cons]
        constructor
        · exact Or.imp_right .inr
        · rintro (hr | rfl | ht)
          · exact .inl hr
          · exact .inl hm
          · exact .inr ht
    · have hn' : (reached ++ [target]).Nodup := by
        rw [← List.concat_eq_append]
        exact List.Nodup.concat hm hn
      obtain ⟨new, hmeet, hnodup, hmem⟩ := ih (queue ++ [target]) (reached ++ [target]) hn'
      refine ⟨target :: new, ?_, by simpa using hnodup, fun kind ↦ ?_⟩
      · rw [meet, if_pos hi, if_neg fun h ↦ hm (hseen.mp h), hmeet]
        simp
      · have hk := hmem kind
        simp only [List.append_assoc, List.singleton_append, List.mem_append, List.mem_cons,
          List.not_mem_nil, or_false] at hk ⊢
        rw [hk]
        exact or_assoc

/-- A search that empties the queue does not need to insist on it. -/
theorem follow_of_strict {rounds : Nat} {queue reached all : List κ}
    (h : Strict.follow K g rounds queue reached = .ok all) :
    g.follow K rounds queue reached = .ok all := by
  induction rounds generalizing queue reached with
  | zero =>
    cases queue with
    | nil => exact h
    | cons kind queue => cases h
  | succ rounds ih =>
    cases queue with
    | nil => exact h
    | cons kind queue =>
      unfold Strict.follow at h
      obtain ⟨targets, ht, h⟩ := ok_of_bind h
      obtain ⟨⟨queue', reached'⟩, hmeet, h⟩ := ok_of_bind h
      simp only [follow, ht, hmeet, bind, Except.bind]
      exact ih h

/-- What every round preserves holds when the queue is empty, and the rounds suffice to empty it
when they are as many as the kinds queued and those not reached yet. -/
theorem follow_ok (hK : K.Lawful) (hg : g.edges.length = K.count)
    {invariant : List κ → List κ → Prop}
    (hround : ∀ kind queue reached new, invariant (kind :: queue) reached →
      (reached ++ new).Nodup →
      (∀ target, target ∈ reached ++ new ↔ target ∈ reached ∨ g.Edge K kind target) →
      invariant (queue ++ new) (reached ++ new))
    (rounds : Nat) (queue reached : List κ) (h : invariant queue reached) (hn : reached.Nodup)
    (hb : queue.length + K.count ≤ rounds + reached.length) :
    ∃ all, Strict.follow K g rounds queue reached = .ok all ∧ all.Nodup ∧ invariant [] all := by
  induction rounds generalizing queue reached with
  | zero =>
    cases queue with
    | nil => exact ⟨reached, rfl, hn, h⟩
    | cons kind queue =>
      have hl := hK.length_le_count hn
      rw [List.length_cons] at hb
      omega
  | succ rounds ih =>
    cases queue with
    | nil => exact ⟨reached, rfl, hn, h⟩
    | cons kind queue =>
      obtain ⟨targets, ht⟩ := targets_total hK hg kind
      obtain ⟨new, hmeet, hnodup, hmem⟩ := meet_ok hK hg targets queue reached hn
      have hedge : ∀ target, g.Edge K kind target ↔ target ∈ targets := by
        intro target
        constructor
        · rintro ⟨targets', ht', hm⟩
          rw [ht] at ht'
          cases ht'
          exact hm
        · intro hm
          exact ⟨targets, ht, hm⟩
      have hnext := hround kind queue reached new h hnodup fun target ↦ by rw [hmem, hedge]
      have hleft : (queue ++ new).length + K.count ≤ rounds + (reached ++ new).length := by
        rw [List.length_append, List.length_append]
        rw [List.length_cons] at hb
        omega
      obtain ⟨all, hf, hall⟩ := ih (queue ++ new) (reached ++ new) hnext hnodup hleft
      refine ⟨all, ?_, hall⟩
      simp only [Strict.follow, ht, hmeet, bind, Except.bind]
      exact hf

/-- The rounds suffice for what a kind reaches, and what every round preserves holds at the end when
it holds of the source alone. -/
theorem reachable_strict_ok (hK : K.Lawful) (hg : g.edges.length = K.count)
    {invariant : List κ → List κ → Prop}
    (hround : ∀ kind queue reached new, invariant (kind :: queue) reached →
      (reached ++ new).Nodup →
      (∀ target, target ∈ reached ++ new ↔ target ∈ reached ∨ g.Edge K kind target) →
      invariant (queue ++ new) (reached ++ new))
    {source : κ} (h : invariant [source] []) :
    ∃ reached, Strict.reachable K g source = .ok reached ∧ reached.Nodup ∧
      invariant [] reached := by
  refine follow_ok hK hg hround (g.edges.length + 1) [source] [] h List.nodup_nil ?_
  rw [hg, List.length_singleton, List.length_nil]
  omega

/-- The state of a search from a source: all kinds reached are led to, and the targets of the
source and of every kind reached are reached, unless the kind is still queued. -/
structure Following (K : KindSet κ) (g : ConversionGraph κ) (source : κ) (queue reached : List κ) :
    Prop where
  queued : ∀ kind ∈ queue, kind = source ∨ kind ∈ reached
  led : ∀ kind ∈ reached, Relation.TransGen (g.Edge K) source kind
  closed : ∀ kind, kind = source ∨ kind ∈ reached →
    kind ∈ queue ∨ ∀ target, g.Edge K kind target → target ∈ reached

namespace Following

variable {source kind : κ} {queue reached new : List κ}

/-- Before the search only the source is queued. -/
theorem start (source : κ) : Following K g source [source] [] where
  queued := by simp
  led := by simp
  closed := by
    rintro kind (rfl | hm)
    · exact .inl List.mem_cons_self
    · cases hm

/-- A round goes on with the search. -/
theorem round (h : Following K g source (kind :: queue) reached)
    (hmem : ∀ target, target ∈ reached ++ new ↔ target ∈ reached ∨ g.Edge K kind target) :
    Following K g source (queue ++ new) (reached ++ new) := by
  have hled : ∀ target, g.Edge K kind target → Relation.TransGen (g.Edge K) source target := by
    intro target hedge
    rcases h.queued kind List.mem_cons_self with rfl | hk
    · exact .single hedge
    · exact (h.led kind hk).tail hedge
  constructor
  · intro other ho
    rcases List.mem_append.mp ho with ho | ho
    · exact (h.queued other (List.mem_cons_of_mem kind ho)).imp_right (List.mem_append_left new)
    · exact .inr (List.mem_append_right reached ho)
  · intro other ho
    rcases (hmem other).mp ho with ho | hedge
    · exact h.led other ho
    · exact hled other hedge
  · intro other ho
    have hold : (other = source ∨ other ∈ reached) ∨ other ∈ new := by
      rw [List.mem_append] at ho
      exact or_assoc.mpr ho
    rcases hold with hold | hnew
    · rcases h.closed other hold with hq | hclosed
      · rcases List.mem_cons.mp hq with rfl | hq
        · exact .inr fun target hedge ↦ (hmem target).mpr (.inr hedge)
        · exact .inl (List.mem_append_left new hq)
      · exact .inr fun target hedge ↦ List.mem_append_left new (hclosed target hedge)
    · exact .inl (List.mem_append_right queue hnew)

/-- When the queue is empty the kinds reached are those that edges lead to. -/
theorem mem_iff (h : Following K g source [] reached) (kind : κ) :
    kind ∈ reached ↔ Relation.TransGen (g.Edge K) source kind := by
  have hclosed : ∀ other, other = source ∨ other ∈ reached →
      ∀ target, g.Edge K other target → target ∈ reached := by
    intro other ho
    exact (h.closed other ho).resolve_left List.not_mem_nil
  refine ⟨h.led kind, fun hr ↦ ?_⟩
  induction hr with
  | single hedge => exact hclosed source (.inl rfl) _ hedge
  | tail _ hedge ih => exact hclosed _ (.inr ih) _ hedge

end Following

/-- The search for what a kind reaches ends with an empty queue, and lists exactly the kinds that
edges lead to, each of them once. -/
theorem reachable_ok (hK : K.Lawful) (hg : g.edges.length = K.count) (source : κ) :
    ∃ reached, Strict.reachable K g source = .ok reached ∧ g.reachable K source = .ok reached ∧
      reached.Nodup ∧ ∀ kind, kind ∈ reached ↔ Relation.TransGen (g.Edge K) source kind := by
  obtain ⟨reached, hr, hn, h⟩ :=
    reachable_strict_ok hK hg (fun _ _ _ _ h _ hmem ↦ h.round hmem) (Following.start source)
  exact ⟨reached, hr, follow_of_strict hr, hn, h.mem_iff⟩

variable [DecidableEq κ]

/-- It is answered of any two kinds whether one reaches the other, and edges tell which. -/
theorem canReach_ok (hK : K.Lawful) (hg : g.edges.length = K.count) (source target : κ) :
    ∃ reaches, g.canReach K source target = .ok reaches ∧
      (reaches = true ↔ Relation.TransGen (g.Edge K) source target) := by
  obtain ⟨reached, -, hr, -, hmem⟩ := reachable_ok hK hg source
  refine ⟨decide (target ∈ reached), ?_, ?_⟩
  · simp only [canReach, hr, bind, Except.bind]
    rfl
  · rw [decide_eq_true_eq, hmem]

/-- A kind reaches the kinds that edges lead to. -/
theorem canReach_iff (hK : K.Lawful) (hg : g.edges.length = K.count) {source target : κ} :
    g.canReach K source target = .ok true ↔ Relation.TransGen (g.Edge K) source target := by
  obtain ⟨reaches, hr, hiff⟩ := canReach_ok hK hg source target
  rw [hr, Except.ok.injEq, hiff]

/-- A kind does not reach the others. -/
theorem not_canReach_iff (hK : K.Lawful) (hg : g.edges.length = K.count) {source target : κ} :
    g.canReach K source target = .ok false ↔ ¬ Relation.TransGen (g.Edge K) source target := by
  obtain ⟨reaches, hr, hiff⟩ := canReach_ok hK hg source target
  rw [hr, Except.ok.injEq, ← hiff, Bool.not_eq_true]

end ConversionGraph
end RoleResolution

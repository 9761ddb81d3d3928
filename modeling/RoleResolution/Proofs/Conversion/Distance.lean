import Mathlib.Data.List.Duplicate
import Mathlib.Data.Nat.Find
import Mathlib.Order.Bounds.Basic
import RoleResolution.Proofs.Conversion.Opening

/-!
# Nearest kinds first

The queue of the search for what a kind reaches holds kinds of at most two levels: those that some
number of conversions leads to, and behind them those that one more leads to. Every kind is reached
at the level of its predecessor or the next, so the kinds come in the order of their distances from
the source. The source itself is reached like any other kind, when it lies on a cycle.
-/

namespace RoleResolution

variable {κ : Type} {Edge : κ → κ → Prop} {source kind target : κ}

/-! ### Walks -/

/-- A number of edges lead from a source to a kind. -/
inductive Walk (Edge : κ → κ → Prop) (source : κ) : Nat → κ → Prop where
  | start : Walk Edge source 0 source
  | step {n : Nat} {kind target : κ} (before : Walk Edge source n kind) (edge : Edge kind target) :
      Walk Edge source (n + 1) target

/-- The length of the shortest walk along one or more edges. -/
def Distance (Edge : κ → κ → Prop) (source target : κ) (n : Nat) : Prop :=
  IsLeast {m | 0 < m ∧ Walk Edge source m target} n

/-- A walk goes on along a path of edges to the last kind of the path. -/
theorem Walk.along {n : Nat} {path : List κ} (h : Walk Edge source n kind)
    (hp : (kind :: path).IsChain Edge) (hl : (kind :: path).getLast? = some target) :
    Walk Edge source (n + path.length) target := by
  induction path generalizing n kind with
  | nil =>
    cases hl
    exact h
  | cons next path ih =>
    rw [List.isChain_cons_cons] at hp
    rw [List.getLast?_cons_cons] at hl
    have hw := ih (h.step hp.1) hp.2 hl
    rwa [Nat.add_right_comm] at hw

/-- A walk along one or more edges is no shorter than the distance. -/
theorem Walk.exists_distance {n : Nat} (h : Walk Edge source n target) (hn : 0 < n) :
    ∃ distance ≤ n, Distance Edge source target distance := by
  classical
  have hw : ∃ m, 0 < m ∧ Walk Edge source m target := ⟨n, hn, h⟩
  exact ⟨Nat.find hw, Nat.find_min' hw ⟨hn, h⟩, Nat.find_spec hw, fun _ hm ↦ Nat.find_min' hw hm⟩

/-- A closed path leads to a cycle through its start: what lies between two visits of one kind can
be left out. -/
theorem exists_isCycle_of_isChain (path : List κ) (hk : path.head? = some kind)
    (h : (path ++ [kind]).IsChain Edge) : ∃ cycle, IsCycle Edge cycle ∧ kind ∈ cycle := by
  by_cases hn : path.Nodup
  · obtain ⟨middle, rfl⟩ := List.head?_eq_some_iff.mp hk
    exact ⟨kind :: middle ++ [kind], ⟨⟨kind, middle, rfl, hn⟩, h⟩, List.mem_cons_self⟩
  · obtain ⟨twice, hd⟩ := List.exists_duplicate_iff_not_nodup.mpr hn
    obtain ⟨first, second, hsplit, hfirst, hsecond⟩ :=
      List.cons_sublist_iff.mp (List.duplicate_iff_sublist.mp hd)
    obtain ⟨before, between, rfl⟩ := List.append_of_mem hfirst
    obtain ⟨between', after, rfl⟩ := List.append_of_mem (List.singleton_sublist.mp hsecond)
    rw [hsplit] at hk h
    have hcut : (before ++ twice :: after ++ [kind]).IsChain Edge := by
      simp only [List.append_assoc, List.cons_append] at h ⊢
      rw [List.isChain_split] at h ⊢
      exact ⟨h.1, h.2.suffix ⟨twice :: (between ++ between'), by simp⟩⟩
    have hhead : (before ++ twice :: after).head? = some kind := by
      cases before <;> simpa using hk
    exact exists_isCycle_of_isChain (before ++ twice :: after) hhead hcut
termination_by path.length
decreasing_by
  rw [hsplit]
  simp only [List.length_append, List.length_cons]
  omega

/-- A kind reaches itself exactly when it lies on a cycle. -/
theorem transGen_self_iff :
    Relation.TransGen Edge kind kind ↔ ∃ cycle, IsCycle Edge cycle ∧ kind ∈ cycle := by
  constructor
  · intro h
    obtain ⟨last, hbefore, hedge⟩ := Relation.TransGen.tail'_iff.mp h
    obtain ⟨path, hpath, hend⟩ := List.exists_isChain_cons_of_relationReflTransGen hbefore
    refine exists_isCycle_of_isChain (kind :: path) rfl (hpath.append (.singleton kind) ?_)
    intro other ho first hf
    rw [List.getLast?_eq_some_getLast (List.cons_ne_nil kind path), hend] at ho
    cases ho
    cases hf
    exact hedge
  · rintro ⟨cycle, hc, hm⟩
    exact hc.reaches hm hm

/-! ### Levels -/

/-- The kinds that were reached, each with its level, behind the source. What was followed comes
before what is queued, both by level, and the levels of the queue differ by one at most. -/
structure Layered (Edge : κ → κ → Prop) (source : κ) (done waiting entries : List (κ × Nat)) :
    Prop where
  order : done ++ waiting = (source, 0) :: entries
  sorted : (done ++ waiting).Pairwise (·.2 ≤ ·.2)
  window : ∀ entry ∈ waiting, ∀ other ∈ waiting, other.2 ≤ entry.2 + 1
  walks : ∀ entry ∈ entries, 0 < entry.2 ∧ Walk Edge source entry.2 entry.1
  followed : ∀ entry ∈ done, ∀ target, Edge entry.1 target →
    ∃ level ≤ entry.2 + 1, (target, level) ∈ entries

namespace Layered

variable {done waiting entries : List (κ × Nat)}

/-- Before the search the source waits at level zero. -/
theorem start (source : κ) : Layered Edge source [] [(source, 0)] [] where
  order := rfl
  sorted := by simp
  window := by simp
  walks := by simp
  followed := by simp

/-- Every entry, that of the source included, is at the end of a walk as long as its level. -/
theorem walk (h : Layered Edge source done waiting entries) {entry : κ × Nat}
    (he : entry ∈ done ++ waiting) : Walk Edge source entry.2 entry.1 := by
  rw [h.order] at he
  rcases List.mem_cons.mp he with rfl | he
  · exact .start
  · exact (h.walks entry he).2

/-- No entry is more than one level behind the first that waits. -/
theorem le_succ {entry other : κ × Nat} (h : Layered Edge source done (entry :: waiting) entries)
    (ho : other ∈ done ++ entry :: waiting) : other.2 ≤ entry.2 + 1 := by
  rcases List.mem_append.mp ho with ho | ho
  · have hle := (List.pairwise_append.mp h.sorted).2.2 other ho entry List.mem_cons_self
    omega
  · exact h.window entry List.mem_cons_self other ho

/-- A round reaches what it meets one level behind the kind that it follows. -/
theorem round {level : Nat} {new : List κ}
    (h : Layered Edge source done ((kind, level) :: waiting) entries)
    (hn : (entries.map (·.1) ++ new).Nodup)
    (hmem : ∀ target, target ∈ entries.map (·.1) ++ new ↔
      target ∈ entries.map (·.1) ∨ Edge kind target) :
    Layered Edge source (done ++ [(kind, level)]) (waiting ++ new.map (·, level + 1))
      (entries ++ new.map (·, level + 1)) := by
  have hbehind : ∀ entry ∈ waiting, level ≤ entry.2 :=
    (List.pairwise_cons.mp (List.pairwise_append.mp h.sorted).2.1).1
  have hnew : ∀ entry ∈ new.map (·, level + 1), entry.1 ∈ new ∧ entry.2 = level + 1 := by
    rintro entry he
    obtain ⟨target, ht, rfl⟩ := List.mem_map.mp he
    exact ⟨ht, rfl⟩
  have hlevel : ∀ entry ∈ waiting ++ new.map (·, level + 1),
      level ≤ entry.2 ∧ entry.2 ≤ level + 1 := by
    intro entry he
    rcases List.mem_append.mp he with he | he
    · exact ⟨hbehind entry he,
        h.le_succ (List.mem_append_right done (List.mem_cons_of_mem _ he))⟩
    · rw [(hnew entry he).2]
      exact ⟨Nat.le_succ level, Nat.le_refl _⟩
  have horder : done ++ [(kind, level)] ++ (waiting ++ new.map (·, level + 1)) =
      done ++ (kind, level) :: waiting ++ new.map (·, level + 1) := by simp
  constructor
  · rw [horder, h.order, List.cons_append]
  · rw [horder, List.pairwise_append]
    refine ⟨h.sorted, ?_, ?_⟩
    · rw [List.pairwise_map]
      exact List.pairwise_of_forall fun _ _ ↦ Nat.le_refl _
    · intro entry he other ho
      rw [(hnew other ho).2]
      exact h.le_succ he
  · intro entry he other ho
    have hentry := hlevel entry he
    have hother := hlevel other ho
    omega
  · intro entry he
    rcases List.mem_append.mp he with he | he
    · exact h.walks entry he
    · obtain ⟨hm, hl⟩ := hnew entry he
      have hfresh : entry.1 ∉ entries.map (·.1) := fun hold ↦
        (List.nodup_append.mp hn).2.2 entry.1 hold entry.1 hm rfl
      have hedge := ((hmem entry.1).mp (List.mem_append_right _ hm)).resolve_left hfresh
      have hw := h.walk (List.mem_append_right done List.mem_cons_self)
      rw [hl]
      exact ⟨Nat.succ_pos level, .step hw hedge⟩
  · intro entry he target hedge
    rcases List.mem_append.mp he with he | he
    · obtain ⟨found, hle, hm⟩ := h.followed entry he target hedge
      exact ⟨found, hle, List.mem_append_left _ hm⟩
    · cases List.mem_singleton.mp he
      rcases List.mem_append.mp ((hmem target).mpr (.inr hedge)) with hold | hm
      · obtain ⟨old, ho, rfl⟩ := List.mem_map.mp hold
        refine ⟨old.2, h.le_succ ?_, List.mem_append_left _ ho⟩
        rw [h.order]
        exact List.mem_cons_of_mem _ ho
      · exact ⟨level + 1, Nat.le_refl _, List.mem_append_right _ (List.mem_map_of_mem hm)⟩

/-- When nothing waits any more, no walk is shorter than the level of the kind it ends at. -/
theorem level_le (h : Layered Edge source done [] entries) {n : Nat}
    (hw : Walk Edge source n target) :
    n = 0 ∧ target = source ∨ ∃ level ≤ n, (target, level) ∈ entries := by
  have hdone : done = (source, 0) :: entries := by simpa using h.order
  induction hw with
  | start => exact .inl ⟨rfl, rfl⟩
  | @step n kind target before hedge ih =>
    have hk : ∃ level ≤ n, (kind, level) ∈ done := by
      rw [hdone]
      rcases ih with ⟨rfl, rfl⟩ | ⟨level, hle, hm⟩
      · exact ⟨0, Nat.le_refl 0, List.mem_cons_self⟩
      · exact ⟨level, hle, List.mem_cons_of_mem _ hm⟩
    obtain ⟨level, hle, hm⟩ := hk
    obtain ⟨next, hnext, ht⟩ := h.followed (kind, level) hm target hedge
    exact .inr ⟨next, by simp only at hnext; omega, ht⟩

/-- When nothing waits any more, the levels are the distances. -/
theorem distance (h : Layered Edge source done [] entries) (hn : (entries.map (·.1)).Nodup)
    {entry : κ × Nat} (he : entry ∈ entries) : Distance Edge source entry.1 entry.2 := by
  refine ⟨h.walks entry he, ?_⟩
  rintro n ⟨hpos, hw⟩
  rcases h.level_le hw with ⟨rfl, -⟩ | ⟨level, hle, hm⟩
  · exact absurd hpos (Nat.lt_irrefl 0)
  · have hsame : entry = (entry.1, level) := List.inj_on_of_nodup_map hn he hm rfl
    rw [hsame]
    exact hle

end Layered

/-- What is queued and what was reached are the kinds of entries with levels. -/
def Levelled (Edge : κ → κ → Prop) (source : κ) (queue reached : List κ) : Prop :=
  ∃ done waiting entries, queue = waiting.map (·.1) ∧ reached = entries.map (·.1) ∧
    Layered Edge source done waiting entries

/-- A round goes on level by level. -/
theorem Levelled.round {queue reached new : List κ}
    (h : Levelled Edge source (kind :: queue) reached) (hn : (reached ++ new).Nodup)
    (hmem : ∀ target, target ∈ reached ++ new ↔ target ∈ reached ∨ Edge kind target) :
    Levelled Edge source (queue ++ new) (reached ++ new) := by
  obtain ⟨done, waiting, entries, hq, rfl, hlayered⟩ := h
  cases waiting with
  | nil => cases hq
  | cons entry waiting =>
    cases hq
    have hkinds : (new.map (·, entry.2 + 1)).map (·.1) = new := by
      rw [List.map_map]
      exact List.map_id new
    refine ⟨_, _, _, ?_, ?_, hlayered.round hn hmem⟩
    · rw [List.map_append, hkinds]
    · rw [List.map_append, hkinds]

namespace ConversionGraph

variable {K : KindSet κ} {g : ConversionGraph κ}

/-- The search for what a kind reaches lists kinds in the order of their distances. -/
theorem reachable_distances (hK : K.Lawful) (hg : g.edges.length = K.count) {reached : List κ}
    (h : Strict.reachable K g source = .ok reached) :
    ∃ distances, List.Forall₂ (Distance (g.Edge K) source) reached distances ∧
      distances.Pairwise (· ≤ ·) := by
  have hstart : Levelled (g.Edge K) source [source] [] :=
    ⟨[], [(source, 0)], [], rfl, rfl, .start source⟩
  obtain ⟨all, hall, hn, done, waiting, entries, hq, rfl, hlayered⟩ :=
    reachable_strict_ok hK hg (fun _ _ _ _ h hn hmem ↦ h.round hn hmem) hstart
  cases h.symm.trans hall
  cases List.map_eq_nil_iff.mp hq.symm
  refine ⟨entries.map (·.2), ?_, ?_⟩
  · rw [List.forall₂_map_left_iff, List.forall₂_map_right_iff, List.forall₂_same]
    exact fun entry he ↦ hlayered.distance hn he
  · have hsorted := hlayered.sorted
    rw [hlayered.order] at hsorted
    rw [List.pairwise_map]
    exact (List.pairwise_cons.mp hsorted).2

end ConversionGraph

namespace Registry

variable [DecidableEq κ] {K : KindSet κ}

/-- The search for what a kind reaches, in a registry that was built, ends with an empty queue. It
lists once each exactly the kinds that conversions lead to, itself when it lies on a cycle, and it
lists them in the order of their distances. -/
theorem reachable_nearest_first (hK : K.Lawful) {b : RegistryBuilder κ} {R : Registry K}
    (hb : (b.build K).1 = .ok R) (source : κ) :
    ∃ reached distances, Strict.reachable K R.graph source = .ok reached ∧
      R.graph.reachable K source = .ok reached ∧ reached.Nodup ∧
      (∀ kind, kind ∈ reached ↔ Relation.TransGen R.ConvertsTo source kind) ∧
      (source ∈ reached ↔ ∃ cycle, IsCycle R.ConvertsTo cycle ∧ source ∈ cycle) ∧
      List.Forall₂ (Distance R.ConvertsTo source) reached distances ∧
      distances.Pairwise (· ≤ ·) := by
  have hg := length_edges_of_build hb
  obtain ⟨reached, hstrict, hr, hn, hmem⟩ := ConversionGraph.reachable_ok hK hg source
  obtain ⟨distances, hdistances, hsorted⟩ := ConversionGraph.reachable_distances hK hg hstrict
  rw [edge_graph] at hmem hdistances
  exact ⟨reached, distances, hstrict, hr, hn, hmem, (hmem source).trans transGen_self_iff,
    hdistances, hsorted⟩

end Registry

namespace Rank

/-- From an admin, the owner and the guest are one conversion away, the admin itself and the member
two, and the editor three. -/
theorem maze_nearest_first :
    ∃ (R : Registry kinds) (reached : List Rank) (distances : List Nat), kinds.Lawful ∧
      (maze.build kinds).1 = .ok R ∧ reached = [owner, guest, admin, member, editor] ∧
      Strict.reachable kinds R.graph admin = .ok reached ∧
      R.graph.reachable kinds admin = .ok reached ∧ reached.Nodup ∧
      (∀ kind, kind ∈ reached ↔ Relation.TransGen R.ConvertsTo admin kind) ∧
      (admin ∈ reached ↔ ∃ cycle, IsCycle R.ConvertsTo cycle ∧ admin ∈ cycle) ∧
      List.Forall₂ (Distance R.ConvertsTo admin) reached distances ∧
      distances.Pairwise (· ≤ ·) := by
  have hb : (maze.build kinds).1 = .ok ⟨maze.definitions⟩ := rfl
  have hreached : (Registry.graph (K := kinds) ⟨maze.definitions⟩).reachable kinds admin =
      .ok [owner, guest, admin, member, editor] := rfl
  obtain ⟨reached, distances, hstrict, hr, h⟩ :=
    Registry.reachable_nearest_first lawful_kinds hb admin
  exact ⟨_, reached, distances, lawful_kinds, hb, Except.ok.inj (hr.symm.trans hreached), hstrict,
    hr, h⟩

end Rank
end RoleResolution

import Mathlib.Data.List.Infix
import Mathlib.Data.List.Rotate
import RoleResolution.Proofs.Conversion.Opening

/-!
# No cycle is reported twice

The search enters a kind once and finds no target twice among those of a kind, so it examines every
edge once. The edge that closes a cycle is examined when the cycle is reported. It can be no edge of
a cycle that was reported before, be it as its closing edge or elsewhere, and so the new cycle is
none of those before it, wherever they are taken to start.
-/

namespace RoleResolution

variable {κ : Type}

/-! ### Edges of a path -/

/-- The last kind of an extended path is the new one. -/
theorem singleton_suffix_concat {path : List κ} {source last : κ} :
    [source] <:+ path ++ [last] ↔ source = last := by
  constructor
  · rintro ⟨front, h⟩
    exact List.singleton_inj.mp (List.append_inj' h rfl).2
  · rintro rfl
    exact List.suffix_append path _

/-- The last edge of an extended path leads from its end to the new kind. -/
theorem pair_suffix_concat {path : List κ} {source target last : κ} :
    [source, target] <:+ path ++ [last] ↔ target = last ∧ [source] <:+ path := by
  constructor
  · rintro ⟨front, h⟩
    rw [List.append_cons] at h
    obtain ⟨hp, hl⟩ := List.append_inj' h rfl
    exact ⟨List.singleton_inj.mp hl, front, hp⟩
  · rintro ⟨rfl, front, rfl⟩
    exact ⟨front, List.append_cons ..⟩

/-- The edges of an extended path are its last edge and the edges of the path. -/
theorem pair_infix_concat {path : List κ} {source target last : κ} :
    [source, target] <:+: path ++ [last] ↔
      target = last ∧ [source] <:+ path ∨ [source, target] <:+: path := by
  rw [List.infix_concat_iff, pair_suffix_concat]

/-- A path without repetition has no edge from its end. -/
theorem not_pair_infix_of_last {path : List κ} {source : κ} (hn : (path ++ [source]).Nodup)
    (target : κ) : ¬ [source, target] <:+: path ++ [source] := by
  have hs : source ∉ path := fun hm ↦
    (List.nodup_append.mp hn).2.2 source hm source List.mem_cons_self rfl
  rw [pair_infix_concat]
  rintro (⟨-, h⟩ | h)
  · exact hs (h.mem List.mem_cons_self)
  · exact hs (h.mem List.mem_cons_self)

/-- Rotations of each other are made of the same two parts. -/
theorem exists_append_of_isRotated {path path' : List κ} (h : path.IsRotated path') :
    ∃ front back, path = front ++ back ∧ path' = back ++ front := by
  obtain ⟨n, rfl⟩ := h
  exact ⟨_, _, (List.take_append_drop (n % path.length) path).symm,
    List.rotate_eq_drop_append_take_mod⟩

/-- Every cycle has a closing edge. -/
theorem IsCycle.exists_closing {Edge : κ → κ → Prop} {cycle : List κ} (h : IsCycle Edge cycle) :
    ∃ source target, [source, target] <:+ cycle := by
  obtain ⟨kind, middle, rfl, -⟩ := h.closed
  obtain ⟨front, last, hf⟩ := (kind :: middle).eq_nil_or_concat'.resolve_left nofun
  exact ⟨last, kind, pair_suffix_concat.mpr ⟨rfl, front, hf.symm⟩⟩

/-- A cycle goes along the closing edge of every cycle that it is a rotation of. -/
theorem IsCycle.closing_of_isRotated {Edge : κ → κ → Prop} {cycle other : List κ}
    (h : IsCycle Edge cycle) (ho : IsCycle Edge other)
    (hrotated : cycle.dropLast.IsRotated other.dropLast) {source target : κ}
    (hcloses : [source, target] <:+ other) : [source, target] <:+: cycle := by
  obtain ⟨kind, middle, rfl, -⟩ := h.closed
  obtain ⟨kind', middle', rfl, -⟩ := ho.closed
  rw [List.dropLast_concat, List.dropLast_concat] at hrotated
  obtain ⟨front, back, hc, hc'⟩ := exists_append_of_isRotated hrotated
  cases back with
  | nil =>
    rw [List.append_nil] at hc
    obtain ⟨rfl, rfl⟩ := List.cons.inj (hc'.trans hc.symm)
    exact hcloses.isInfix
  | cons first back =>
    rcases front.eq_nil_or_concat' with rfl | ⟨front, last, rfl⟩
    · rw [List.append_nil] at hc'
      obtain ⟨rfl, rfl⟩ := List.cons.inj (hc'.trans hc.symm)
      exact hcloses.isInfix
    · -- the other cycle is closed by the edge from the end of its back to the start of its front
      obtain ⟨rfl, hs⟩ := pair_suffix_concat.mp hcloses
      rw [hc', ← List.append_assoc] at hs
      obtain rfl := singleton_suffix_concat.mp hs
      obtain ⟨rfl, -⟩ := List.cons.inj hc'
      rw [hc]
      exact ⟨front, back ++ [kind], by simp⟩

namespace ConversionGraph

variable {K : KindSet κ} {g : ConversionGraph κ} {path : List κ}

/-! ### Edges that are examined once -/

/-- The closing edge of a reported cycle is no edge of the cycles reported before it. -/
def ClosesAnew (cycles : List (List κ)) : Prop :=
  cycles.Pairwise fun earlier cycle ↦
    ∀ source target, [source, target] <:+ cycle → ¬ [source, target] <:+: earlier

/-- What the reports of a search say while a path is searched: the kinds of the reported cycles are
on the path or explored, and every cycle was closed by a new edge. -/
structure Reporting (K : KindSet κ) (path : List κ) (s : Search κ) : Prop where
  met : ∀ cycle ∈ s.cycles, ∀ kind ∈ cycle, kind ∈ path ∨ s.At K kind .explored
  anew : ClosesAnew s.cycles

/-- No reported cycle uses the edge from the end of a path to a kind. -/
def Unexamined (path : List κ) (cycles : List (List κ)) (kind : κ) : Prop :=
  ∀ source, [source] <:+ path → ∀ cycle ∈ cycles, ¬ [source, kind] <:+: cycle

/-- The cycles that are reported while the search goes on from a path to some kinds leave the path
only at its end, and only to one of these kinds. -/
def Within (path : List κ) (kinds : List κ) (cycles : List (List κ)) : Prop :=
  ∀ cycle ∈ cycles, ∃ kind ∈ kinds, ∀ source ∈ path, ∀ target, [source, target] <:+: cycle →
    [source, target] <:+: path ++ [kind]

/-- A step of the search from a path examines an edge that was not examined before. -/
def Examines (K : KindSet κ) (g : ConversionGraph κ) (path : List κ) (budget : Nat)
    (step : Search κ → κ → Except Fault (Search κ)) : Prop :=
  ∀ kind s s', Searching K g path s → s.progress.count .unvisited ≤ budget →
    Reporting K path s → Unexamined path s.cycles kind → step s kind = .ok s' →
    Reporting K path s' ∧ ∃ added, s'.cycles = s.cycles ++ added ∧ Within path [kind] added

/-- What is reported on the way to one target does not use the edges to the others. -/
theorem Within.unexamined {kind other : κ} {added : List (List κ)} (hn : path.Nodup)
    (h : Within path [kind] added) (ho : other ≠ kind) : Unexamined path added other := by
  rintro source ⟨front, rfl⟩ cycle hc hedge
  obtain ⟨target, ht, hpath⟩ := h cycle hc
  obtain rfl := List.mem_singleton.mp ht
  have hs := hpath source (List.mem_append_right _ List.mem_cons_self) other hedge
  rcases pair_infix_concat.mp hs with ⟨he, -⟩ | hs
  · exact ho he
  · exact not_pair_infix_of_last hn other hs

/-- Steps for different kinds examine an edge each. -/
theorem Examines.foldlM {budget : Nat} {step : Search κ → κ → Except Fault (Search κ)}
    (hstep : Examines K g path budget step) (hsettles : Settles K g path budget step)
    (hn : path.Nodup) (kinds : List κ) (hkinds : kinds.Nodup) (s s' : Search κ)
    (h : Searching K g path s) (hb : s.progress.count .unvisited ≤ budget)
    (hr : Reporting K path s) (hu : ∀ kind ∈ kinds, Unexamined path s.cycles kind)
    (hf : kinds.foldlM step s = .ok s') :
    Reporting K path s' ∧ ∃ added, s'.cycles = s.cycles ++ added ∧ Within path kinds added := by
  induction kinds generalizing s with
  | nil =>
    cases hf
    exact ⟨hr, [], (List.append_nil _).symm, nofun⟩
  | cons kind rest ih =>
    obtain ⟨s₁, hs₁, h₁, hext, -⟩ := hsettles kind s h hb
    obtain ⟨hr₁, added, ha, hw⟩ := hstep kind s s₁ h hb hr (hu kind List.mem_cons_self) hs₁
    obtain ⟨hkind, hrest⟩ := List.nodup_cons.mp hkinds
    have hu₁ : ∀ other ∈ rest, Unexamined path s₁.cycles other := by
      intro other ho source hs cycle hc
      rw [ha] at hc
      rcases List.mem_append.mp hc with hc | hc
      · exact hu other (List.mem_cons_of_mem kind ho) source hs cycle hc
      · have hne : other ≠ kind := fun he ↦ hkind (he ▸ ho)
        exact hw.unexamined hn hne source hs cycle hc
    rw [List.foldlM_cons, hs₁] at hf
    obtain ⟨hr', later, hl, hw'⟩ := ih hrest s₁ h₁ (Nat.le_trans hext.unvisited hb) hr₁ hu₁ hf
    refine ⟨hr', added ++ later, by rw [hl, ha, List.append_assoc], ?_⟩
    intro cycle hc
    rcases List.mem_append.mp hc with hc | hc
    · obtain ⟨target, ht, hp⟩ := hw cycle hc
      exact ⟨target, List.mem_cons.mpr (.inl (List.mem_singleton.mp ht)), hp⟩
    · obtain ⟨target, ht, hp⟩ := hw' cycle hc
      exact ⟨target, List.mem_cons_of_mem kind ht, hp⟩

/-! ### The whole search -/

variable {kind : κ} {s s' : Search κ}

/-- An unvisited kind is in no reported cycle, so none of its edges has been examined. -/
theorem Reporting.enter (hK : K.Lawful) (h : Searching K g path s) (hr : Reporting K path s)
    (hu : s.At K kind .unvisited) :
    Reporting K (path ++ [kind]) (s.mark (K.index kind) .visiting) ∧
      ∀ target, Unexamined (path ++ [kind]) s.cycles target := by
  refine ⟨⟨fun cycle hc other ho ↦ ?_, hr.anew⟩, ?_⟩
  · rw [Search.explored_mark_visiting hK h.length hu]
    exact (hr.met cycle hc other ho).imp_left (List.mem_append_left _)
  · intro target source hs cycle hc hedge
    obtain rfl := singleton_suffix_concat.mp hs
    rcases hr.met cycle hc source (hedge.mem List.mem_cons_self) with hp | he
    · cases hu.unique ((h.onPath source).mpr hp)
    · cases hu.unique he

/-- A kind that leaves the path is explored, and what was reported from it is within the path. -/
theorem Reporting.leave (hK : K.Lawful) (h : Searching K g (path ++ [kind]) s)
    (hr : Reporting K (path ++ [kind]) s) :
    Reporting K path (s.mark (K.index kind) .explored) := by
  refine ⟨fun cycle hc other ho ↦ ?_, hr.anew⟩
  rw [Search.explored_mark_explored hK h.length]
  rcases hr.met cycle hc other ho with hp | he
  · rcases List.mem_append.mp hp with hp | hk
    · exact .inl hp
    · exact .inr (.inl (List.mem_singleton.mp hk))
  · exact .inr (.inr he)

/-- What is within an extended path is within the path. -/
theorem Within.shorten {targets : List κ} {added : List (List κ)} (hk : kind ∉ path)
    (h : Within (path ++ [kind]) targets added) : Within path [kind] added := by
  intro cycle hc
  obtain ⟨target, -, hp⟩ := h cycle hc
  refine ⟨kind, List.mem_cons_self, fun source hs next hedge ↦ ?_⟩
  have hedge := hp source (List.mem_append_left _ hs) next hedge
  rcases pair_infix_concat.mp hedge with ⟨-, hlast⟩ | hedge
  · exact absurd (singleton_suffix_concat.mp hlast ▸ hs) hk
  · exact hedge

variable [DecidableEq κ]

/-- The cycle that a kind closes is part of the path and the kind. -/
theorem suffix_of_mem_closedCycle {cycle : List κ} (h : cycle ∈ closedCycle path kind) :
    kind ∈ path ∧ cycle <:+ path ++ [kind] := by
  unfold closedCycle at h
  split at h
  · next hm =>
    cases List.mem_singleton.mp h
    refine ⟨hm, ?_⟩
    obtain ⟨front, hf⟩ : path.dropWhile (fun other ↦ decide (other ≠ kind)) <:+ path :=
      List.dropWhile_suffix _
    exact ⟨front, by rw [← List.append_assoc, hf]⟩
  · cases h

/-- A visit of a kind that was visited before reports at most the cycle that the new edge closes. -/
theorem visit_visited_examines {budget : Nat} (hv : ¬ s.At K kind .unvisited)
    (hr : Reporting K path s) (hu : Unexamined path s.cycles kind)
    (h : g.visit K budget path kind s = .ok s') :
    Reporting K path s' ∧ ∃ added, s'.cycles = s.cycles ++ added ∧ Within path [kind] added := by
  unfold visit at h
  split at h
  · cases h
  · cases h
    refine ⟨⟨?_, ?_⟩, _, rfl, ?_⟩
    · intro cycle hc other ho
      rcases List.mem_append.mp hc with hc | hc
      · exact hr.met cycle hc other ho
      · obtain ⟨hm, hs⟩ := suffix_of_mem_closedCycle hc
        rcases List.mem_append.mp (hs.mem ho) with ho | ho
        · exact .inl ho
        · exact .inl (List.mem_singleton.mp ho ▸ hm)
    · refine List.pairwise_append.mpr ⟨hr.anew, ?_, ?_⟩
      · unfold closedCycle
        split
        · exact List.pairwise_singleton ..
        · exact .nil
      · intro earlier he cycle hc source target hcloses
        obtain ⟨-, hs⟩ := suffix_of_mem_closedCycle hc
        obtain ⟨rfl, hlast⟩ := pair_suffix_concat.mp (hcloses.trans hs)
        exact hu source hlast earlier he
    · intro cycle hc
      obtain ⟨-, hs⟩ := suffix_of_mem_closedCycle hc
      exact ⟨kind, List.mem_cons_self, fun _ _ _ hedge ↦ hedge.trans hs.isInfix⟩
  · cases h
    exact ⟨hr, [], (List.append_nil _).symm, nofun⟩
  · next hp => exact absurd hp hv
  · next hp => exact absurd hp hv

/-- A visit along a path without repetition examines an edge. -/
theorem visit_examines (hK : K.Lawful) (hg : g.edges.length = K.count)
    (hn : ∀ source targets, g.targets K source = .ok targets → targets.Nodup) (budget : Nat)
    (path : List κ) (hpath : path.Nodup) :
    Examines K g path budget fun s kind ↦ g.visit K budget path kind s := by
  induction budget generalizing path with
  | zero =>
    intro kind s s' h hb hr hu hv
    refine visit_visited_examines ?_ hr hu hv
    intro hn
    have hc := Search.count_mark_visiting hn
    omega
  | succ budget ih =>
    intro kind s s' h hb hr hu hv
    by_cases hun : s.At K kind .unvisited
    · have hp : s.progress[K.index kind]? = some .unvisited := hun
      simp only [visit, hp] at hv
      obtain ⟨targets, ht, hv⟩ := ok_of_bind hv
      obtain ⟨s₂, hs₂, hv⟩ := ok_of_bind hv
      cases hv
      have hc := Search.count_mark_visiting hun
      have hfresh : kind ∉ path := by
        intro hm
        cases hun.unique ((h.onPath kind).mpr hm)
      have hpath' : (path ++ [kind]).Nodup := by
        rw [← List.concat_eq_append]
        exact List.Nodup.concat hfresh hpath
      have hsettles := visit_settles hK hg budget (path ++ [kind])
      have h₁ := h.enter hK hun
      obtain ⟨hr₁, hu₁⟩ := hr.enter hK h hun
      obtain ⟨s₃, hs₃, h₂, -, -⟩ := hsettles.foldlM targets _ h₁ (by omega)
      cases hs₂.symm.trans hs₃
      obtain ⟨hr₂, added, ha, hw⟩ := (ih (path ++ [kind]) hpath').foldlM hsettles hpath' targets
        (hn kind targets ht) _ s₂ h₁ (by omega) hr₁ (fun target _ ↦ hu₁ target) hs₂
      exact ⟨hr₂.leave hK h₂, added, ha, hw.shorten hfresh⟩
    · exact visit_visited_examines hun hr hu hv

/-- The detection reports every cycle by a new closing edge. -/
theorem detectCycles_anew (hK : K.Lawful) (hg : g.edges.length = K.count)
    (hn : ∀ source targets, g.targets K source = .ok targets → targets.Nodup)
    {cycles : List (List κ)} (h : g.detectCycles K = .ok cycles) : ClosesAnew cycles := by
  obtain ⟨s, hs, h⟩ := ok_of_bind h
  cases h
  have hr : Reporting K [] ⟨List.replicate g.edges.length .unvisited, []⟩ := ⟨nofun, .nil⟩
  have hu : ∀ kind ∈ K.all, Unexamined [] [] kind := by
    intro kind _ source _ cycle hc
    cases hc
  exact ((visit_examines hK hg hn g.edges.length [] List.nodup_nil).foldlM
    (visit_settles hK hg g.edges.length []) List.nodup_nil K.all hK.nodup_all _ s
    (searching_start hg) (Nat.le_of_eq List.count_replicate_self) hr hu hs).1.anew

/-- Removing repetitions leaves none. -/
theorem nodup_eraseDups (kinds : List κ) : kinds.eraseDups.Nodup := by
  match kinds with
  | [] => exact List.nodup_nil
  | kind :: rest =>
    rw [List.eraseDups_cons, List.nodup_cons]
    exact ⟨by simp [List.mem_eraseDups], nodup_eraseDups _⟩
termination_by kinds.length
decreasing_by
  exact Nat.lt_succ_of_le (List.length_filter_le ..)

end ConversionGraph

namespace Registry

variable [DecidableEq κ] {K : KindSet κ}

/-- The conversion graph of a registry lists no target twice. -/
theorem nodup_targets (R : Registry K) {source : κ} {targets : List κ}
    (h : R.graph.targets K source = .ok targets) : targets.Nodup := by
  unfold ConversionGraph.targets graph ConversionGraph.ofDefinitions at h
  rw [List.getElem?_map] at h
  cases hd : R.definitions[K.index source]? with
  | none =>
    rw [hd] at h
    cases h
  | some d =>
    rw [hd] at h
    cases h
    exact ConversionGraph.nodup_eraseDups _

/-- Every cycle that is reported for a registry that was built goes along edges of the conversion
graph, starts and ends with one kind and repeats no other. No two of them have the same closing
edge, and none is another one with a different start. -/
theorem detectCycles_distinct (hK : K.Lawful) {b : RegistryBuilder κ} {R : Registry K}
    (hb : (b.build K).1 = .ok R) :
    ∃ cycles, R.graph.detectCycles K = .ok cycles ∧
      (∀ cycle ∈ cycles, 2 ≤ cycle.length ∧ IsCycle (R.graph.Edge K) cycle) ∧
      cycles.Pairwise fun cycle other ↦ ¬ cycle.dropLast.IsRotated other.dropLast ∧
        ∀ source target, [source, target] <:+ cycle → ¬ [source, target] <:+ other := by
  have hg := length_edges_of_build hb
  obtain ⟨cycles, hc, -⟩ := ConversionGraph.detectCycles_feedback hK hg
  have hsound := ConversionGraph.detectCycles_sound hK hg hc
  have hanew := ConversionGraph.detectCycles_anew hK hg (fun _ _ h ↦ R.nodup_targets h) hc
  refine ⟨cycles, hc, fun cycle hm ↦ ⟨?_, hsound cycle hm⟩, ?_⟩
  · obtain ⟨source, target, hcloses⟩ := (hsound cycle hm).exists_closing
    exact hcloses.length_le
  · refine hanew.imp_of_mem fun {cycle other} hm ho hnew ↦ ⟨fun hrotated ↦ ?_, ?_⟩
    · obtain ⟨source, target, hcloses⟩ := (hsound other ho).exists_closing
      exact hnew source target hcloses
        ((hsound cycle hm).closing_of_isRotated (hsound other ho) hrotated hcloses)
    · intro source target hcycle hother
      exact hnew source target hother hcycle.isInfix

end Registry

namespace Rank

/-- The four cycles of the maze are closed by different edges, although three of them meet. -/
theorem maze_distinct :
    ∃ (R : Registry kinds) (cycles : List (List Rank)), kinds.Lawful ∧
      (maze.build kinds).1 = .ok R ∧ R.graph.detectCycles kinds = .ok cycles ∧
      cycles = [[member, editor, member], [guest, member, guest], [guest, guest],
        [admin, owner, admin]] ∧
      (∀ cycle ∈ cycles, 2 ≤ cycle.length ∧ IsCycle (R.graph.Edge kinds) cycle) ∧
      cycles.Pairwise fun cycle other ↦ ¬ cycle.dropLast.IsRotated other.dropLast ∧
        ∀ source target, [source, target] <:+ cycle → ¬ [source, target] <:+ other := by
  have hb : (maze.build kinds).1 = .ok ⟨maze.definitions⟩ := rfl
  have hcycles : (Registry.graph (K := kinds) ⟨maze.definitions⟩).detectCycles kinds =
      .ok [[member, editor, member], [guest, member, guest], [guest, guest],
        [admin, owner, admin]] := rfl
  obtain ⟨cycles, hc, hsound, hdistinct⟩ := Registry.detectCycles_distinct lawful_kinds hb
  exact ⟨_, cycles, lawful_kinds, hb, hc, Except.ok.inj (hc.symm.trans hcycles), hsound, hdistinct⟩

end Rank
end RoleResolution

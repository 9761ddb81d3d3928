import RoleResolution.Proofs.Conversion.Feedback
import RoleResolution.Proofs.Registry.Reference
import RoleResolution.Proofs.Registry.Supply

/-!
# When the search for cycles has an answer

The search for cycles starts from the listed kinds and keeps the progress of every kind at its
index, so an index that the graph does not have ends it with a fault. In the graph of arranged
definitions edges lead to kinds with definitions only. Over any kind set the search therefore has an
answer exactly when no listed kind reports an index past the graph, and that is when the number of
kinds, as the set gives it, is not less than the length of the list.
-/

namespace RoleResolution

variable {κ : Type} {K : KindSet κ}

namespace ConversionGraph

/-- Every edge of a graph leads to a kind that has edges of its own. -/
def Inside (K : KindSet κ) (g : ConversionGraph κ) : Prop :=
  ∀ targets ∈ g.edges, ∀ target ∈ targets, K.index target < g.edges.length

section Runs

variable {α ε σ : Type} {invariant : σ → Prop} {f : σ → α → Except ε σ} {s : σ} {xs : List α}

/-- A run over a list succeeds when its steps do and keep an invariant. -/
theorem foldlM_ok (good : α → Prop)
    (hgood : ∀ x, good x → ∀ s, invariant s → ∃ s', f s x = .ok s' ∧ invariant s')
    (hs : invariant s) (hxs : ∀ x ∈ xs, good x) :
    ∃ s', xs.foldlM f s = .ok s' ∧ invariant s' := by
  induction xs generalizing s with
  | nil => exact ⟨s, rfl, hs⟩
  | cons x xs ih =>
    obtain ⟨hx, hrest⟩ := List.forall_mem_cons.mp hxs
    obtain ⟨s₁, h₁, hs₁⟩ := hgood x hx s hs
    obtain ⟨s', h', hs'⟩ := ih hs₁ hrest
    refine ⟨s', ?_, hs'⟩
    rw [List.foldlM_cons, h₁]
    exact h'

/-- It fails when one of the steps does. -/
theorem foldlM_error {e : ε} (good : α → Prop)
    (hgood : ∀ x, good x → ∀ s, invariant s → ∃ s', f s x = .ok s' ∧ invariant s')
    (hbad : ∀ x, ¬ good x → ∀ s, invariant s → f s x = .error e) (hs : invariant s)
    (hxs : ∃ x ∈ xs, ¬ good x) : xs.foldlM f s = .error e := by
  induction xs generalizing s with
  | nil =>
    obtain ⟨x, hx, -⟩ := hxs
    cases hx
  | cons x xs ih =>
    rw [List.foldlM_cons]
    by_cases hx : good x
    · obtain ⟨s₁, h₁, hs₁⟩ := hgood x hx s hs
      obtain ⟨y, hy, hn⟩ := hxs
      have hrest : y ∈ xs := (List.mem_cons.mp hy).resolve_left fun he ↦ hn (he ▸ hx)
      rw [h₁]
      exact ih hs₁ ⟨y, hrest, hn⟩
    · rw [hbad x hx s hs]
      rfl

end Runs

variable [DecidableEq κ] {g : ConversionGraph κ}

/-- In a graph whose edges stay inside, a visit of a kind with an index of the graph has an
answer. -/
theorem visit_ok (hg : g.Inside K) (budget : Nat) (path : List κ) {kind : κ} {s : Search κ}
    (hk : K.index kind < g.edges.length) (hs : s.progress.length = g.edges.length) :
    ∃ s', g.visit K budget path kind s = .ok s' ∧ s'.progress.length = g.edges.length := by
  induction budget generalizing path kind s with
  | zero =>
    have hi : K.index kind < s.progress.length := hs.symm ▸ hk
    unfold visit
    rw [List.getElem?_eq_getElem hi]
    cases s.progress[K.index kind] <;> exact ⟨_, rfl, hs⟩
  | succ budget ih =>
    have hi : K.index kind < s.progress.length := hs.symm ▸ hk
    have hp := List.getElem?_eq_getElem hi
    cases hq : s.progress[K.index kind] with
    | unvisited =>
      rw [hq] at hp
      have hentered : (s.mark (K.index kind) .visiting).progress.length = g.edges.length :=
        (List.length_set ..).trans hs
      obtain ⟨s', hs', hl⟩ := foldlM_ok (K.index · < g.edges.length)
        (fun _ ht _ hl ↦ ih (path ++ [kind]) ht hl) hentered (hg _ (List.getElem_mem hk))
      exact ⟨_, visit_unvisited hp (targets_of_lt hk) hs', (List.length_set ..).trans hl⟩
    | visiting | explored =>
      rw [hq] at hp
      unfold visit
      rw [hp]
      exact ⟨_, rfl, hs⟩

/-- A visit of a kind without an index of the graph faults. -/
theorem visit_error (budget : Nat) (path : List κ) {kind : κ} {s : Search κ}
    (hk : ¬ K.index kind < g.edges.length) (hs : s.progress.length = g.edges.length) :
    g.visit K budget path kind s = .error .indexOutOfRange := by
  have hp : s.progress[K.index kind]? = none := by
    rw [List.getElem?_eq_none_iff]
    omega
  unfold visit
  rw [hp]

/-- When all edges stay inside and all listed kinds have an index of the graph, the search for
cycles has an answer. -/
theorem detectCycles_ok (hg : g.Inside K) (hall : ∀ kind ∈ K.all, K.index kind < g.edges.length) :
    ∃ cycles, g.detectCycles K = .ok cycles := by
  have hstart : (⟨List.replicate g.edges.length .unvisited, []⟩ : Search κ).progress.length =
      g.edges.length := List.length_replicate
  obtain ⟨s, hs, -⟩ := foldlM_ok (K.index · < g.edges.length)
    (fun _ hk _ hl ↦ visit_ok hg g.edges.length [] hk hl) hstart hall
  refine ⟨s.cycles, ?_⟩
  unfold detectCycles
  dsimp only
  rw [hs]
  rfl

/-- A listed kind without an index of the graph ends the search for cycles. -/
theorem detectCycles_error (hg : g.Inside K)
    (hall : ∃ kind ∈ K.all, ¬ K.index kind < g.edges.length) :
    g.detectCycles K = .error .indexOutOfRange := by
  have hstart : (⟨List.replicate g.edges.length .unvisited, []⟩ : Search κ).progress.length =
      g.edges.length := List.length_replicate
  have hs := foldlM_error (K.index · < g.edges.length)
    (fun _ hk _ hl ↦ visit_ok hg g.edges.length [] hk hl)
    (fun _ hk _ hl ↦ visit_error g.edges.length [] hk hl) hstart hall
  unfold detectCycles
  dsimp only
  rw [hs]
  rfl

end ConversionGraph

namespace Registry

variable {definitions arranged : List (RoleDefinition κ)}

/-- When no reference dangles, every reference of a placed definition is to a kind whose index
has a definition. -/
theorem isDefined_of_dangling? {places : List (Option (RoleDefinition κ))}
    (h : dangling? K places = none) {d : RoleDefinition κ} (hd : some d ∈ places) {kind : κ}
    (hk : d.RefersTo kind) : isDefined K places kind = true := by
  unfold dangling? at h
  obtain ⟨family, hf⟩ := hk
  have hm : d ∈ places.filterMap id := List.mem_filterMap.mpr ⟨some d, hd, rfl⟩
  have hn := List.findSome?_eq_none_iff.mp h d hm
  rw [Option.map_eq_none_iff, List.find?_eq_none] at hn
  simpa using hn (family, kind) (RoleDefinition.mem_references.mpr hf)

/-- A kind whose index has a definition reports one of the counted indices. -/
theorem index_lt_of_isDefined {kind : κ} (h : isDefined K (slots K definitions) kind = true) :
    K.index kind < K.count := by
  unfold isDefined at h
  split at h
  · next d hd =>
    have hl := (List.getElem?_eq_some_iff.mp hd).1
    simpa using hl
  · cases h

/-- When no reference dangles, the placed definitions refer to kinds whose indices have a place. -/
theorem index_lt_of_refersTo (h : dangling? K (slots K definitions) = none) {d : RoleDefinition κ}
    (hd : d ∈ (slots K definitions).filterMap id) {kind : κ} (hr : d.RefersTo kind) :
    K.index kind < K.count := by
  obtain ⟨place, hplace, rfl⟩ := List.mem_filterMap.mp hd
  exact index_lt_of_isDefined (isDefined_of_dangling? h hplace hr)

/-- When no listed kind is misindexed, the listed kinds report indices below a number exactly when
there are no more of them. -/
theorem index_lt_iff (h : misindexed? K = none) {n : Nat} :
    (∀ kind ∈ K.all, K.index kind < n) ↔ K.all.length ≤ n := by
  constructor
  · intro hall
    by_contra hlt
    have hn : n < K.all.length := by omega
    have hk := hall _ (List.getElem_mem hn)
    rw [index_of_misindexed? h (List.getElem?_eq_getElem hn)] at hk
    omega
  · intro hle kind hk
    obtain ⟨i, hi, rfl⟩ := List.getElem_of_mem hk
    rw [index_of_misindexed? h (List.getElem?_eq_getElem hi)]
    omega

variable [DecidableEq κ]

/-- The edges of arranged definitions stay inside their graph. -/
theorem inside_of_arrange (h : arrange K definitions = .ok arranged) :
    (ConversionGraph.ofDefinitions arranged).Inside K := by
  obtain ⟨-, -, hd, -, -, he⟩ := arrange_ok h
  intro targets ht target hm
  obtain ⟨d, hd', rfl⟩ := List.mem_map.mp ht
  obtain ⟨rule, hr, rfl⟩ := List.mem_map.mp (List.mem_eraseDups.mp hm)
  obtain ⟨position, hp⟩ := List.mem_iff_getElem?.mp hr
  rw [length_edges, (arrange_places h).1]
  exact index_lt_of_refersTo hd (he ▸ hd') ⟨.conversion, position, rule, hp, rfl⟩

/-- After an arrangement the search for cycles has an answer when no more kinds are listed than
counted. -/
theorem detectCycles_of_arrange (h : arrange K definitions = .ok arranged)
    (hle : K.all.length ≤ K.count) :
    ∃ cycles, (ConversionGraph.ofDefinitions arranged).detectCycles K = .ok cycles := by
  apply ConversionGraph.detectCycles_ok (inside_of_arrange h)
  rw [length_edges, (arrange_places h).1, index_lt_iff (arrange_ok h).1]
  exact hle

/-- Otherwise the build faults there. -/
theorem build_fault_of_arrange {b : RegistryBuilder κ}
    (h : arrange K b.definitions = .ok arranged) (hlt : K.count < K.all.length) :
    (b.build K).1 = .error (.fault .indexOutOfRange) := by
  have hall : ∃ kind ∈ K.all,
      ¬ K.index kind < (ConversionGraph.ofDefinitions arranged).edges.length := by
    by_contra hn
    simp only [not_exists, not_and, not_not] at hn
    rw [length_edges, (arrange_places h).1, index_lt_iff (arrange_ok h).1] at hn
    omega
  have hc := ConversionGraph.detectCycles_error (inside_of_arrange h) hall
  unfold RegistryBuilder.build
  rw [h]
  dsimp only
  rw [hc]

/-- What is built counts all listed kinds. -/
theorem length_all_le_of_build {b : RegistryBuilder κ} {R : Registry K}
    (h : (b.build K).1 = .ok R) : K.all.length ≤ K.count := by
  by_contra hlt
  rw [build_fault_of_arrange (build_ok h).1 (by omega)] at h
  cases h

end Registry
end RoleResolution

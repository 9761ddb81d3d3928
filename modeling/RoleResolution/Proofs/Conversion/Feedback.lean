import Mathlib.Logic.Relation
import RoleResolution.Conversion.Cycles
import RoleResolution.Proofs.Registry.Arrangement

/-!
# Closing edges

Every cycle that the detection reports ends with an edge back to a kind on the path of the
search. Without these closing edges no kind reaches itself: an explored kind has explored
targets only, apart from those of its closing edges, and they were all explored before it.
-/

namespace RoleResolution.ConversionGraph

variable {κ : Type}

/-- A kind converts into another directly. -/
def Edge (K : KindSet κ) (g : ConversionGraph κ) (source target : κ) : Prop :=
  ∃ targets, g.targets K source = .ok targets ∧ target ∈ targets

/-- One of the cycles ends with an edge. -/
def Closes (cycles : List (List κ)) (source target : κ) : Prop :=
  ∃ cycle ∈ cycles, [source, target] <:+ cycle

/-- An edge that ends none of the cycles. -/
def OpenEdge (K : KindSet κ) (g : ConversionGraph κ) (cycles : List (List κ))
    (source target : κ) : Prop :=
  g.Edge K source target ∧ ¬ Closes cycles source target

/-- The progress of the search with a kind. -/
def Search.At (K : KindSet κ) (s : Search κ) (kind : κ) (p : Progress) : Prop :=
  s.progress[K.index kind]? = some p

/-- The state of the search while a path is searched. The kinds on the path are the ones being
visited. What an explored kind reaches without the closing edges is explored and does not
include the kind. -/
structure Searching (K : KindSet κ) (g : ConversionGraph κ) (path : List κ) (s : Search κ) :
    Prop where
  length : s.progress.length = K.count
  onPath : ∀ kind, s.At K kind .visiting ↔ kind ∈ path
  closed : ∀ source target, s.At K source .explored → g.OpenEdge K s.cycles source target →
    s.At K target .explored
  acyclic : ∀ kind, s.At K kind .explored →
    ¬ Relation.TransGen (g.OpenEdge K s.cycles) kind kind

/-- The search goes on from one state to another: it keeps what is explored and reported, and
leaves no more kinds unvisited. -/
structure Search.Extends (K : KindSet κ) (s s' : Search κ) : Prop where
  explored : ∀ kind, s.At K kind .explored → s'.At K kind .explored
  cycles : s.cycles ⊆ s'.cycles
  unvisited : s'.progress.count .unvisited ≤ s.progress.count .unvisited

/-- A target of the last kind of a path is done with: it is explored, or the edge to it closes
a reported cycle. -/
def Search.Done (K : KindSet κ) (path : List κ) (s : Search κ) (target : κ) : Prop :=
  s.At K target .explored ∨ ∃ front source, path = front ++ [source] ∧
    Closes s.cycles source target

variable {K : KindSet κ} {g : ConversionGraph κ} {path : List κ} {s s₁ s' : Search κ} {kind : κ}

namespace Search

/-- A kind has one progress at a time. -/
theorem At.unique {p q : Progress} (hp : s.At K kind p) (hq : s.At K kind q) : p = q :=
  Option.some.inj (hp.symm.trans hq)

/-- Marking a kind sets its progress. -/
theorem at_mark_self (hK : K.Lawful) (hl : s.progress.length = K.count) (p : Progress) :
    (s.mark (K.index kind) p).At K kind p := by
  have hi := hK.index_lt kind
  rw [← hl] at hi
  unfold At mark
  rw [List.getElem?_set, if_pos rfl, if_pos hi]

/-- Marking a kind leaves the other kinds. -/
theorem at_mark_of_ne (hK : K.Lawful) {other : κ} (h : other ≠ kind) (p q : Progress) :
    (s.mark (K.index kind) p).At K other q ↔ s.At K other q := by
  have hi : K.index kind ≠ K.index other := fun he ↦ h (hK.index_inj he).symm
  unfold At mark
  rw [List.getElem?_set, if_neg hi]

/-- Entering an unvisited kind leaves the explored kinds. -/
theorem explored_mark_visiting (hK : K.Lawful) (hl : s.progress.length = K.count)
    (hu : s.At K kind .unvisited) (other : κ) :
    (s.mark (K.index kind) .visiting).At K other .explored ↔ s.At K other .explored := by
  by_cases ho : other = kind
  · subst ho
    constructor
    · intro he
      cases he.unique (at_mark_self hK hl .visiting)
    · intro he
      cases he.unique hu
  · exact at_mark_of_ne hK ho .visiting .explored

/-- Leaving a kind adds it to the explored kinds. -/
theorem explored_mark_explored (hK : K.Lawful) (hl : s.progress.length = K.count)
    (kind other : κ) : (s.mark (K.index kind) .explored).At K other .explored ↔
      other = kind ∨ s.At K other .explored := by
  by_cases ho : other = kind
  · subst ho
    exact ⟨fun _ ↦ .inl rfl, fun _ ↦ at_mark_self hK hl .explored⟩
  · rw [at_mark_of_ne hK ho]
    exact ⟨.inr, fun he ↦ he.resolve_left ho⟩

/-- Marking an unvisited kind as visited leaves one unvisited kind less. -/
theorem count_mark_visiting (h : s.At K kind .unvisited) :
    (s.mark (K.index kind) .visiting).progress.count .unvisited + 1 =
      s.progress.count .unvisited := by
  obtain ⟨hi, hp⟩ := List.getElem?_eq_some_iff.mp h
  have hpos : 0 < s.progress.count .unvisited := List.count_pos_iff.mpr (List.mem_of_getElem? h)
  have hne : (Progress.visiting == Progress.unvisited) = false := rfl
  unfold mark
  simp only [List.count_set hi, hp, hne, beq_self_eq_true, Bool.false_eq_true, if_true, if_false]
  omega

/-- Marking a kind as explored leaves no more unvisited kinds. -/
theorem count_mark_explored (s : Search κ) (index : Nat) :
    (s.mark index .explored).progress.count .unvisited ≤ s.progress.count .unvisited := by
  unfold mark
  by_cases hi : index < s.progress.length
  · have hne : (Progress.explored == Progress.unvisited) = false := rfl
    simp only [List.count_set hi, hne, Bool.false_eq_true, if_false]
    omega
  · apply Nat.le_of_eq
    rw [List.set_eq_of_length_le (by omega)]

/-- A state extends itself. -/
theorem Extends.refl (s : Search κ) : s.Extends K s :=
  ⟨fun _ h ↦ h, fun _ h ↦ h, Nat.le_refl _⟩

/-- Extensions add up. -/
theorem Extends.trans (h : s.Extends K s₁) (h' : s₁.Extends K s') : s.Extends K s' :=
  ⟨fun kind he ↦ h'.explored kind (h.explored kind he), fun _ hc ↦ h'.cycles (h.cycles hc),
    Nat.le_trans h'.unvisited h.unvisited⟩

end Search

/-- More reported cycles leave fewer edges open. -/
theorem OpenEdge.mono {cycles cycles' : List (List κ)} (h : cycles ⊆ cycles') {source target : κ}
    (he : g.OpenEdge K cycles' source target) : g.OpenEdge K cycles source target := by
  refine ⟨he.1, ?_⟩
  rintro ⟨cycle, hc, hs⟩
  exact he.2 ⟨cycle, h hc, hs⟩

/-- Without reported cycles every edge is open. -/
theorem openEdge_nil : g.OpenEdge K [] = g.Edge K := by
  funext source target
  apply propext
  constructor
  · intro hedge
    exact hedge.1
  · intro hedge
    refine ⟨hedge, ?_⟩
    rintro ⟨cycle, hc, -⟩
    cases hc

/-- What is done with remains so. -/
theorem Search.Done.mono (h : s.Extends K s') (hd : s.Done K path kind) : s'.Done K path kind := by
  rcases hd with he | ⟨front, source, hp, cycle, hc, hs⟩
  · exact .inl (h.explored kind he)
  · exact .inr ⟨front, source, hp, cycle, h.cycles hc, hs⟩

/-! ### Steps of the search -/

namespace Searching

/-- An explored kind reaches explored kinds only by open edges. -/
theorem reaches (h : Searching K g path s) {source target : κ} (he : s.At K source .explored)
    (hr : Relation.ReflTransGen (g.OpenEdge K s.cycles) source target) :
    s.At K target .explored := by
  induction hr with
  | refl => exact he
  | tail before edge ih => exact h.closed _ _ ih edge

/-- Reporting cycles goes on with the search. -/
theorem report (h : Searching K g path s) (cycles : List (List κ)) :
    Searching K g path { s with cycles := s.cycles ++ cycles } := by
  have hsub : s.cycles ⊆ s.cycles ++ cycles := List.subset_append_left s.cycles cycles
  constructor
  · exact h.length
  · exact h.onPath
  · intro source target he hedge
    exact h.closed source target he (hedge.mono hsub)
  · intro other he hcycle
    apply h.acyclic other he
    exact Relation.TransGen.mono (fun _ _ hedge ↦ OpenEdge.mono hsub hedge) _ _ hcycle

/-- An unvisited kind extends the path. -/
theorem enter (hK : K.Lawful) (h : Searching K g path s) (hu : s.At K kind .unvisited) :
    Searching K g (path ++ [kind]) (s.mark (K.index kind) .visiting) := by
  have hself : (s.mark (K.index kind) .visiting).At K kind .visiting :=
    Search.at_mark_self hK h.length .visiting
  have hexplored := Search.explored_mark_visiting hK h.length hu
  constructor
  · exact (List.length_set ..).trans h.length
  · intro other
    rw [List.mem_append, List.mem_singleton]
    by_cases ho : other = kind
    · subst ho
      exact ⟨fun _ ↦ .inr rfl, fun _ ↦ hself⟩
    · rw [Search.at_mark_of_ne hK ho, h.onPath other]
      exact ⟨.inl, fun hm ↦ hm.resolve_right ho⟩
  · intro source target he hedge
    rw [hexplored] at he ⊢
    exact h.closed source target he hedge
  · intro other he hcycle
    rw [hexplored] at he
    exact h.acyclic other he hcycle

/-- A kind whose targets are done with leaves the path. -/
theorem leave (hK : K.Lawful) (h : Searching K g (path ++ [kind]) s) (hp : kind ∉ path)
    (hd : ∀ target, g.Edge K kind target → s.Done K (path ++ [kind]) target) :
    Searching K g path (s.mark (K.index kind) .explored) := by
  have hself : (s.mark (K.index kind) .explored).At K kind .explored :=
    Search.at_mark_self hK h.length .explored
  have hexplored := Search.explored_mark_explored hK h.length kind
  -- an open edge from the kind leads to a kind that was explored before it
  have hopen : ∀ target, g.OpenEdge K s.cycles kind target → s.At K target .explored := by
    intro target hedge
    rcases hd target hedge.1 with he | ⟨front, source, hf, hc⟩
    · exact he
    · obtain ⟨-, hs⟩ := List.append_inj' hf rfl
      cases hs
      exact absurd hc hedge.2
  have hvisiting : s.At K kind .visiting :=
    (h.onPath kind).mpr (List.mem_append_right _ List.mem_cons_self)
  constructor
  · exact (List.length_set ..).trans h.length
  · intro other
    by_cases ho : other = kind
    · subst ho
      constructor
      · intro hv
        cases hv.unique hself
      · intro hm
        exact absurd hm hp
    · rw [Search.at_mark_of_ne hK ho, h.onPath other, List.mem_append, List.mem_singleton]
      exact ⟨fun hm ↦ hm.resolve_right ho, .inl⟩
  · intro source target he hedge
    rw [hexplored] at he ⊢
    rcases he with rfl | he
    · exact .inr (hopen target hedge)
    · exact .inr (h.closed source target he hedge)
  · intro other he hcycle
    rw [hexplored] at he
    rcases he with rfl | he
    · obtain ⟨target, hedge, hr⟩ := Relation.TransGen.head'_iff.mp hcycle
      cases (h.reaches (hopen target hedge) hr).unique hvisiting
    · exact h.acyclic other he hcycle

end Searching

/-! ### The whole search -/

/-- A step of the search from a path is done with the kind that it is for. -/
def Settles (K : KindSet κ) (g : ConversionGraph κ) (path : List κ) (budget : Nat)
    (step : Search κ → κ → Except Fault (Search κ)) : Prop :=
  ∀ kind s, Searching K g path s → s.progress.count .unvisited ≤ budget →
    ∃ s', step s kind = .ok s' ∧ Searching K g path s' ∧ s.Extends K s' ∧ s'.Done K path kind

/-- Steps for several kinds are done with all of them. -/
theorem Settles.foldlM {budget : Nat} {step : Search κ → κ → Except Fault (Search κ)}
    (hstep : Settles K g path budget step) (kinds : List κ) (s : Search κ)
    (h : Searching K g path s) (hb : s.progress.count .unvisited ≤ budget) :
    ∃ s', kinds.foldlM step s = .ok s' ∧ Searching K g path s' ∧ s.Extends K s' ∧
      ∀ kind ∈ kinds, s'.Done K path kind := by
  induction kinds generalizing s with
  | nil => exact ⟨s, rfl, h, .refl s, by simp⟩
  | cons kind rest ih =>
    obtain ⟨s₁, hs₁, h₁, hext₁, hd₁⟩ := hstep kind s h hb
    obtain ⟨s', hs', h', hext', hd'⟩ := ih s₁ h₁ (Nat.le_trans hext₁.unvisited hb)
    refine ⟨s', ?_, h', hext₁.trans hext', ?_⟩
    · rw [List.foldlM_cons, hs₁]
      exact hs'
    · intro other ho
      rcases List.mem_cons.mp ho with rfl | ho
      · exact hd₁.mono hext'
      · exact hd' other ho

/-- A kind whose index is one of the sources has targets. -/
theorem targets_of_lt (h : K.index kind < g.edges.length) :
    g.targets K kind = .ok g.edges[K.index kind] := by
  unfold targets
  rw [List.getElem?_eq_getElem h]

/-- A graph with as many sources as kinds are listed has targets for every kind. -/
theorem targets_total (hK : K.Lawful) (hg : g.edges.length = K.count) (kind : κ) :
    ∃ targets, g.targets K kind = .ok targets :=
  ⟨_, targets_of_lt (hg ▸ hK.index_lt kind)⟩

variable [DecidableEq κ]

/-- The cycle that a kind on the path closes ends with an edge from the end of the path. -/
theorem closes_closedCycle {front : List κ} {source target : κ}
    (h : target ∈ front ++ [source]) :
    Closes (closedCycle (front ++ [source]) target) source target := by
  have hend : ∃ middle, (front ++ [source]).dropWhile (· ≠ target) = middle ++ [source] := by
    induction front with
    | nil =>
      have he := List.mem_singleton.mp h
      exact ⟨[], by simp [he]⟩
    | cons kind rest ih =>
      by_cases hk : kind = target
      · exact ⟨kind :: rest, by simp [hk]⟩
      · have hr : target ∈ rest ++ [source] :=
          (List.mem_cons.mp h).resolve_left fun he ↦ hk he.symm
        obtain ⟨middle, hm⟩ := ih hr
        refine ⟨middle, ?_⟩
        rw [List.cons_append, List.dropWhile_cons, if_pos (decide_eq_true hk)]
        exact hm
  obtain ⟨middle, hm⟩ := hend
  unfold closedCycle
  rw [if_pos h, hm]
  exact ⟨_, List.mem_cons_self, middle, by simp⟩

/-- A visit of a kind that was visited before is done with it. -/
theorem visit_visited (hK : K.Lawful) (budget : Nat) (h : Searching K g path s)
    (hv : ¬ s.At K kind .unvisited) :
    ∃ s', g.visit K budget path kind s = .ok s' ∧ Searching K g path s' ∧ s.Extends K s' ∧
      s'.Done K path kind := by
  have hi := hK.index_lt kind
  rw [← h.length] at hi
  have hp := List.getElem?_eq_getElem hi
  unfold visit
  cases hq : s.progress[K.index kind] with
  | unvisited =>
    rw [hq] at hp
    exact absurd hp hv
  | visiting =>
    rw [hq] at hp
    rw [hp]
    have hm := (h.onPath kind).mp hp
    refine ⟨_, rfl, h.report _, ⟨fun _ he ↦ he, List.subset_append_left _ _, Nat.le_refl _⟩, ?_⟩
    obtain rfl | ⟨front, source, rfl⟩ := path.eq_nil_or_concat'
    · cases hm
    · obtain ⟨cycle, hc, hs⟩ := closes_closedCycle hm
      exact .inr ⟨front, source, rfl, cycle, List.mem_append_right _ hc, hs⟩
  | explored =>
    rw [hq] at hp
    rw [hp]
    exact ⟨s, rfl, h, .refl s, .inl hp⟩

/-- A visit of an unvisited kind enters it, visits its targets and leaves it explored. -/
theorem visit_unvisited {budget : Nat} {targets : List κ} (hu : s.At K kind .unvisited)
    (ht : g.targets K kind = .ok targets)
    (hs : targets.foldlM (fun s target ↦ g.visit K budget (path ++ [kind]) target s)
      (s.mark (K.index kind) .visiting) = .ok s') :
    g.visit K (budget + 1) path kind s = .ok (s'.mark (K.index kind) .explored) := by
  have hp : s.progress[K.index kind]? = some .unvisited := hu
  unfold visit
  rw [hp]
  simp only [ht, hs, bind, Except.bind]
  rfl

/-- A visit with budget enough for the unvisited kinds is done with the kind that it is for. -/
theorem visit_settles (hK : K.Lawful) (hg : g.edges.length = K.count) (budget : Nat)
    (path : List κ) :
    Settles K g path budget fun s kind ↦ g.visit K budget path kind s := by
  induction budget generalizing path with
  | zero =>
    intro kind s h hb
    refine visit_visited hK 0 h fun hu ↦ ?_
    have hc := Search.count_mark_visiting hu
    omega
  | succ budget ih =>
    intro kind s h hb
    by_cases hu : s.At K kind .unvisited
    · obtain ⟨targets, ht⟩ := targets_total hK hg kind
      have hc := Search.count_mark_visiting hu
      obtain ⟨s₂, hs₂, h₂, hext, hd⟩ :=
        (ih (path ++ [kind])).foldlM targets _ (h.enter hK hu) (by omega)
      have hfresh : kind ∉ path := by
        intro hm
        cases hu.unique ((h.onPath kind).mpr hm)
      refine ⟨s₂.mark (K.index kind) .explored, visit_unvisited hu ht hs₂,
        h₂.leave hK hfresh ?_, ?_, .inl (Search.at_mark_self hK h₂.length .explored)⟩
      · rintro target ⟨targets', ht', hm⟩
        rw [ht] at ht'
        cases ht'
        exact hd target hm
      · constructor
        · intro other he
          have ho : other ≠ kind := by
            rintro rfl
            cases hu.unique he
          rw [Search.at_mark_of_ne hK ho]
          apply hext.explored
          rwa [Search.at_mark_of_ne hK ho]
        · exact hext.cycles
        · have hle := Search.count_mark_explored s₂ (K.index kind)
          have hext := hext.unvisited
          omega
    · exact visit_visited hK (budget + 1) h hu

omit [DecidableEq κ] in
/-- Before the search nothing is visited. -/
theorem searching_start (hg : g.edges.length = K.count) :
    Searching K g [] ⟨List.replicate g.edges.length .unvisited, []⟩ := by
  have hat : ∀ kind p, Search.At K ⟨List.replicate g.edges.length .unvisited, []⟩ kind p →
      p = .unvisited := by
    intro kind p hp
    have hm := List.mem_of_getElem? hp
    exact List.eq_of_mem_replicate hm
  constructor
  · rw [List.length_replicate, hg]
  · intro kind
    constructor
    · intro hv
      cases hat kind _ hv
    · intro hm
      cases hm
  · intro source target he
    cases hat source _ he
  · intro kind he
    cases hat kind _ he

/-- The detection succeeds, and no kind reaches itself without the closing edges of the cycles
that it reports. -/
theorem detectCycles_feedback (hK : K.Lawful) (hg : g.edges.length = K.count) :
    ∃ cycles, g.detectCycles K = .ok cycles ∧
      ∀ kind, ¬ Relation.TransGen (g.OpenEdge K cycles) kind kind := by
  have hbudget : (List.replicate g.edges.length Progress.unvisited).count .unvisited ≤
      g.edges.length := by
    exact Nat.le_of_eq List.count_replicate_self
  obtain ⟨s, hs, h, -, hd⟩ :=
    (visit_settles hK hg g.edges.length []).foldlM K.all _ (searching_start hg) hbudget
  refine ⟨s.cycles, ?_, fun kind ↦ ?_⟩
  · unfold detectCycles
    simp only [hs, bind, Except.bind]
    rfl
  · rcases hd kind (hK.mem_all kind) with he | ⟨front, source, hp, -⟩
    · exact h.acyclic kind he
    · cases front <;> cases hp

end RoleResolution.ConversionGraph

namespace RoleResolution.Registry

variable {κ : Type} {K : KindSet κ} {R : Registry K}

/-- A kind has a conversion rule into another. -/
def ConvertsTo (R : Registry K) (source target : κ) : Prop :=
  ∃ d, R.lookup source = .ok d ∧ ∃ rule ∈ d.conversions, rule.targetKind = target

variable [DecidableEq κ]

/-- The edges of the conversion graph are the conversion rules. -/
theorem edge_graph (R : Registry K) : R.graph.Edge K = R.ConvertsTo := by
  funext source target
  apply propext
  unfold ConversionGraph.Edge ConvertsTo
  have ht : R.graph.targets K source =
      (R.lookup source).map fun d ↦ (d.conversions.map (·.targetKind)).eraseDups := by
    unfold ConversionGraph.targets graph ConversionGraph.ofDefinitions lookup
    rw [List.getElem?_map]
    cases R.definitions[K.index source]? <;> rfl
  rw [ht]
  cases R.lookup source with
  | error fault =>
    constructor
    · rintro ⟨targets, h, -⟩
      cases h
    · rintro ⟨d, h, -⟩
      cases h
  | ok d =>
    constructor
    · rintro ⟨targets, h, hm⟩
      cases h
      rw [List.mem_eraseDups, List.mem_map] at hm
      exact ⟨d, rfl, hm⟩
    · rintro ⟨e, h, hm⟩
      cases h
      refine ⟨_, rfl, ?_⟩
      rwa [List.mem_eraseDups, List.mem_map]

/-- The graph of definitions has a source for each of them. -/
@[simp]
theorem length_edges (definitions : List (RoleDefinition κ)) :
    (ConversionGraph.ofDefinitions definitions).edges.length = definitions.length :=
  List.length_map ..

/-- The conversion graph of a registry that was built has a source for every listed kind. -/
theorem length_edges_of_build {b : RegistryBuilder κ} (h : (b.build K).1 = .ok R) :
    R.graph.edges.length = K.count :=
  (length_edges R.definitions).trans (arrange_places (build_ok h).1).1

/-- A failed arrangement is the failure of the build. -/
theorem build_of_arrange_error {b : RegistryBuilder κ} {failure : Failure (BuildError κ)}
    (h : arrange K b.definitions = .error failure) : b.build K = (.error failure, []) := by
  unfold RegistryBuilder.build
  rw [h]

/-- After an arrangement over a lawful set the search for cycles succeeds, and the build fails
only when one was found and is to be rejected. -/
theorem build_of_arrange (hK : K.Lawful) {definitions arranged : List (RoleDefinition κ)}
    (h : arrange K definitions = .ok arranged) :
    ∃ cycles, (ConversionGraph.ofDefinitions arranged).detectCycles K = .ok cycles ∧
      ∀ config : RegistryConfig, (RegistryBuilder.build K ⟨definitions, config⟩).1 =
        match config.rejectConversionCycles, cycles with
        | true, path :: _ => .error (.error (.conversionCycle path))
        | _, _ => .ok ⟨arranged⟩ := by
  have hg : (ConversionGraph.ofDefinitions arranged).edges.length = K.count :=
    (length_edges arranged).trans (arrange_places h).1
  obtain ⟨cycles, hc, -⟩ := ConversionGraph.detectCycles_feedback hK hg
  refine ⟨cycles, hc, fun config ↦ ?_⟩
  unfold RegistryBuilder.build
  dsimp only
  rw [h]
  dsimp only
  rw [hc]
  rcases config with ⟨_ | _⟩ <;> cases cycles <;> rfl

/-- Where the detection finds no cycle, no kind is converted back into itself. -/
theorem acyclic_of_detectCycles (hK : K.Lawful) (hlength : R.definitions.length = K.count)
    (h : R.graph.detectCycles K = .ok []) (kind : κ) :
    ¬ Relation.TransGen R.ConvertsTo kind kind := by
  have hg : R.graph.edges.length = K.count := (List.length_map ..).trans hlength
  obtain ⟨cycles, hd, hfeedback⟩ := ConversionGraph.detectCycles_feedback hK hg
  rw [h] at hd
  cases hd
  rw [← edge_graph, ← ConversionGraph.openEdge_nil]
  exact hfeedback kind

/-- No kind of a registry that was built free of cycles is converted back into itself. -/
theorem acyclic_of_build (hK : K.Lawful) {b : RegistryBuilder κ}
    (h : (b.build K).1 = .ok R) (hr : b.config.rejectConversionCycles = true) (kind : κ) :
    ¬ Relation.TransGen R.ConvertsTo kind kind := by
  obtain ⟨ha, hcycles⟩ := build_ok h
  exact acyclic_of_detectCycles hK (arrange_places ha).1 (hcycles hr) kind

end RoleResolution.Registry

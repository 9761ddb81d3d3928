import RoleResolution.Proofs.Strict.Arrangement

/-!
# Building with every access checked

The conversion graph is filled definition by definition, and the search for cycles reads and writes
the progress of kinds at their indices and has one path, on which kinds are pushed and popped. Here
all of this faults at an index that a table does not have, and the search also faults when its
budget is used up. It comes back from every kind with the path that it had there, and over any kind
set, lawful or not, a build comes out the same.
-/

namespace RoleResolution

variable {κ : Type} {K : KindSet κ}

namespace Strict

variable [DecidableEq κ]

/-! ### The graph -/

/-- Add a target unless it is there. -/
def addTarget (targets : List κ) (rule : ConversionRule κ) : List κ :=
  if rule.targetKind ∈ targets then targets else targets ++ [rule.targetKind]

/-- Add the conversions of a definition to the edges at the index of its kind. -/
def addEdges (K : KindSet κ) (edges : List (List κ)) (d : RoleDefinition κ) :
    Except Fault (List (List κ)) := do
  let targets ← fetch edges (K.index d.kind)
  store edges (K.index d.kind) (d.conversions.foldl addTarget targets)

/-- The graph of definitions, filled one after another. -/
def graph (K : KindSet κ) (definitions : List (RoleDefinition κ)) :
    Except Fault (ConversionGraph κ) := do
  let edges ← definitions.foldlM (addEdges K) (List.replicate K.count [])
  return ⟨edges⟩

/-- Targets that are added one after another are those that were there and then the new ones, each
once. -/
theorem foldl_addTarget (rules : List (ConversionRule κ)) (targets : List κ) :
    rules.foldl addTarget targets =
      targets ++ ((rules.map (·.targetKind)).filter (· ∉ targets)).eraseDups := by
  induction rules generalizing targets with
  | nil => simp
  | cons rule rest ih =>
    rw [List.foldl_cons, ih, List.map_cons]
    by_cases h : rule.targetKind ∈ targets
    · simp [addTarget, h]
    · rw [addTarget, if_neg h, List.filter_cons_of_pos (by simpa using h), List.eraseDups_cons,
        List.filter_filter, List.append_assoc, List.singleton_append]
      congr 3
      apply List.filter_congr
      intro target _
      by_cases ht : target = rule.targetKind <;> simp [ht]

/-- A definition adds its edges where there are none yet. -/
theorem addEdges_of_new {filled : List (List κ)} {rest : List (List κ)} {d : RoleDefinition κ}
    (h : K.index d.kind = filled.length) :
    addEdges K (filled ++ [] :: rest) d =
      .ok (filled ++ [(d.conversions.map (·.targetKind)).eraseDups] ++ rest) := by
  have hf : (filled ++ [] :: rest)[K.index d.kind]? = some [] := by
    simp [h]
  have hlt : K.index d.kind < (filled ++ [] :: rest).length := by
    rw [List.length_append, List.length_cons]
    omega
  unfold addEdges
  rw [fetch_of_getElem? hf]
  simp only [bind, Except.bind]
  rw [store_of_lt hlt, foldl_addTarget, h]
  simp

/-- Definitions that stand at the indices of their kinds fill the graph that they have as a
whole. -/
theorem graph_eq {definitions : List (RoleDefinition κ)} (hlength : definitions.length = K.count)
    (hplaces : ∀ i d, definitions[i]? = some d → K.index d.kind = i) :
    graph K definitions = .ok (.ofDefinitions definitions) := by
  -- the edges of the definitions so far, with empty ones for those to come
  have hfill : ∀ rest filled : List (RoleDefinition κ),
      (∀ i d, (filled ++ rest)[i]? = some d → K.index d.kind = i) →
      rest.foldlM (addEdges K)
          ((ConversionGraph.ofDefinitions filled).edges ++ List.replicate rest.length []) =
        .ok (ConversionGraph.ofDefinitions (filled ++ rest)).edges := by
    intro rest
    induction rest with
    | nil =>
      intro filled _
      simp
      rfl
    | cons d rest ih =>
      intro filled hp
      have hi : K.index d.kind = (ConversionGraph.ofDefinitions filled).edges.length := by
        rw [Registry.length_edges]
        exact hp filled.length d (by simp)
      have hnext := ih (filled ++ [d]) (by simpa using hp)
      rw [List.foldlM_cons, List.length_cons, List.replicate_succ, addEdges_of_new hi]
      simpa [ConversionGraph.ofDefinitions, bind, Except.bind] using hnext
  have h : definitions.foldlM (addEdges K) (List.replicate K.count []) =
      .ok (ConversionGraph.ofDefinitions definitions).edges := by
    rw [← hlength]
    exact hfill definitions [] hplaces
  unfold graph
  rw [h]
  rfl

/-! ### Cycles -/

/-- A state of the search with the path to the kind that the search is at. -/
structure Trail (κ : Type) extends ConversionGraph.Search κ where
  path : List κ

/-- Search from a kind; the budget must suffice. The kind is on the path from when it is entered
until it is left. -/
def visit (K : KindSet κ) (g : ConversionGraph κ) : Nat → κ → Trail κ → Except Fault (Trail κ)
  | budget, kind, s =>
    match fetch s.progress (K.index kind), budget with
    | .error fault, _ => .error fault
    | .ok .visiting, _ =>
      .ok { s with cycles := s.cycles ++ ConversionGraph.closedCycle s.path kind }
    | .ok .explored, _ => .ok s
    | .ok .unvisited, 0 => .error .chainOverrun
    | .ok .unvisited, budget + 1 => do
      let entered ← store s.progress (K.index kind) .visiting
      let targets ← g.targets K kind
      let s ← targets.foldlM (fun s target ↦ visit K g budget target s)
        { s with progress := entered, path := s.path ++ [kind] }
      let left ← store s.progress (K.index kind) .explored
      return { s with progress := left, path := s.path.dropLast }

/-- The cycles of a conversion graph, in the order in which the search closes them. Every listed
kind starts a path of its own. -/
def detectCycles (K : KindSet κ) (g : ConversionGraph κ) : Except Fault (List (List κ)) := do
  let start : Trail κ := ⟨⟨List.replicate g.edges.length .unvisited, []⟩, []⟩
  let s ← K.all.foldlM (fun s kind ↦ visit K g g.edges.length kind { s with path := [] }) start
  return s.cycles

/-- A state of the search has a progress for every source, and the budget allows for all unvisited
ones. -/
structure Affords (g : ConversionGraph κ) (budget : Nat) (s : ConversionGraph.Search κ) : Prop where
  length : s.progress.length = g.edges.length
  unvisited : s.progress.count .unvisited ≤ budget

namespace Affords

variable {g : ConversionGraph κ} {budget : Nat} {kind : κ} {s : ConversionGraph.Search κ}

omit [DecidableEq κ]

/-- What is unvisited can be afforded. -/
theorem budget_pos (h : Affords g budget s) (hu : s.progress[K.index kind]? = some .unvisited) :
    0 < budget :=
  Nat.lt_of_lt_of_le (List.count_pos_iff.mpr (List.mem_of_getElem? hu)) h.unvisited

/-- Entering an unvisited kind takes one from the budget. -/
theorem enter (h : Affords g (budget + 1) s)
    (hu : s.progress[K.index kind]? = some .unvisited) :
    Affords g budget (s.mark (K.index kind) .visiting) := by
  refine ⟨(List.length_set ..).trans h.length, ?_⟩
  have hcount := ConversionGraph.Search.count_mark_visiting hu
  have hunvisited := h.unvisited
  omega

/-- Leaving a kind puts it back. -/
theorem leave (h : Affords g budget s) (index : Nat) :
    Affords g (budget + 1) (s.mark index .explored) := by
  refine ⟨(List.length_set ..).trans h.length, ?_⟩
  have hcount := ConversionGraph.Search.count_mark_explored s index
  have hunvisited := h.unvisited
  omega

end Affords

/-- A run of the search with its path comes out as one without, comes back to the path, and leaves
what the budget allows for. -/
structure Retraces (g : ConversionGraph κ) (budget : Nat) (path : List κ)
    (run : Except Fault (Trail κ)) (plain : Except Fault (ConversionGraph.Search κ)) : Prop where
  same : run = plain.map fun s ↦ ⟨s, path⟩
  affords : ∀ s, plain = .ok s → Affords g budget s

section Runs

variable {g : ConversionGraph κ} {budget : Nat} {path : List κ} {s : ConversionGraph.Search κ}

namespace Retraces

omit [DecidableEq κ]

/-- Both runs fault alike. -/
theorem fault (fault : Fault) : Retraces g budget path (.error fault) (.error fault) where
  same := rfl
  affords := by simp

/-- Both runs end in one state, with the path in one of them. -/
theorem ok (hs : Affords g budget s) : Retraces g budget path (.ok ⟨s, path⟩) (.ok s) where
  same := rfl
  affords _ h := Except.ok.inj h ▸ hs

/-- Steps for several kinds come back to the path when each of them does. -/
theorem foldlM {step : Trail κ → κ → Except Fault (Trail κ)}
    {plain : ConversionGraph.Search κ → κ → Except Fault (ConversionGraph.Search κ)}
    (hstep : ∀ kind s, Affords g budget s →
      Retraces g budget path (step ⟨s, path⟩ kind) (plain s kind))
    (kinds : List κ) (hs : Affords g budget s) :
    Retraces g budget path (kinds.foldlM step ⟨s, path⟩) (kinds.foldlM plain s) := by
  induction kinds generalizing s with
  | nil => exact .ok hs
  | cons kind rest ih =>
    have h := hstep kind s hs
    rw [List.foldlM_cons, List.foldlM_cons, h.same]
    cases hp : plain s kind with
    | error fault => exact .fault fault
    | ok s₁ => exact ih (h.affords s₁ hp)

end Retraces

/-- A kind that was visited before leaves the path, as one without a place does. -/
theorem visit_retraces_of_visited {kind : κ} (hv : s.progress[K.index kind]? ≠ some .unvisited)
    (hs : Affords g budget s) :
    Retraces g budget path (visit K g budget kind ⟨s, path⟩) (g.visit K budget path kind s) := by
  unfold visit ConversionGraph.visit fetch
  dsimp only
  cases hp : s.progress[K.index kind]? with
  | none => exact .fault _
  | some p =>
    cases p with
    | unvisited => exact absurd hp hv
    | visiting => exact .ok ⟨hs.length, hs.unvisited⟩
    | explored => exact .ok hs

/-- An unvisited kind is pushed on the path for its targets, and popped after them. -/
private theorem visit_enter {kind : κ} (hu : s.progress[K.index kind]? = some .unvisited)
    (hk : K.index kind < g.edges.length) :
    visit K g (budget + 1) kind ⟨s, path⟩ = (do
      let s ← g.edges[K.index kind].foldlM (fun s target ↦ visit K g budget target s)
        ⟨s.mark (K.index kind) .visiting, path ++ [kind]⟩
      let left ← store s.progress (K.index kind) .explored
      return { s with progress := left, path := s.path.dropLast }) := by
  have hi : K.index kind < s.progress.length := (List.getElem?_eq_some_iff.mp hu).1
  rw [visit.eq_def]
  dsimp only
  rw [fetch_of_getElem? hu]
  simp only [store_of_lt hi, ConversionGraph.targets_of_lt hk]
  rfl

/-- Without a path of its own the search hands the longer path to the targets. -/
private theorem plain_visit_enter {kind : κ} (hu : s.progress[K.index kind]? = some .unvisited)
    (hk : K.index kind < g.edges.length) :
    g.visit K (budget + 1) path kind s = (do
      let s ← g.edges[K.index kind].foldlM
        (fun s target ↦ g.visit K budget (path ++ [kind]) target s)
        (s.mark (K.index kind) .visiting)
      return s.mark (K.index kind) .explored) := by
  rw [ConversionGraph.visit.eq_def]
  dsimp only
  rw [hu]
  simp only [ConversionGraph.targets_of_lt hk]
  rfl

/-- A search that can afford it visits a kind with its path as it does without, and comes back to
the path. -/
theorem visit_retraces (budget : Nat) (path : List κ) (kind : κ) (hs : Affords g budget s) :
    Retraces g budget path (visit K g budget kind ⟨s, path⟩) (g.visit K budget path kind s) := by
  -- entering the kind pays for one visit, and the targets are visited with what is left
  induction budget generalizing path kind s with
  | zero =>
    exact visit_retraces_of_visited (fun hu ↦ absurd (hs.budget_pos hu) (Nat.lt_irrefl 0)) hs
  | succ budget ih =>
    by_cases hu : s.progress[K.index kind]? = some .unvisited
    · have hk : K.index kind < g.edges.length := hs.length ▸ (List.getElem?_eq_some_iff.mp hu).1
      have hinner : Retraces g budget (path ++ [kind])
          (g.edges[K.index kind].foldlM (fun s target ↦ visit K g budget target s)
            ⟨s.mark (K.index kind) .visiting, path ++ [kind]⟩)
          (g.edges[K.index kind].foldlM (fun s target ↦ g.visit K budget (path ++ [kind]) target s)
            (s.mark (K.index kind) .visiting)) :=
        .foldlM (fun target s hs ↦ ih (path ++ [kind]) target hs) _ (hs.enter hu)
      rw [visit_enter hu hk, plain_visit_enter hu hk, hinner.same]
      cases hp : g.edges[K.index kind].foldlM
          (fun s target ↦ g.visit K budget (path ++ [kind]) target s)
          (s.mark (K.index kind) .visiting) with
      | error fault => exact .fault fault
      | ok s' =>
        have hs' := hinner.affords s' hp
        have hi : K.index kind < s'.progress.length := hs'.length ▸ hk
        constructor
        · simp only [Except.map, bind, Except.bind, store_of_lt hi, List.dropLast_concat]
          rfl
        · rintro _ ⟨⟩
          exact hs'.leave _
    · exact visit_retraces_of_visited hu hs

end Runs

/-- A graph is searched for cycles the same with every access checked. -/
theorem detectCycles_eq (g : ConversionGraph κ) : detectCycles K g = g.detectCycles K := by
  have hstart : Affords g g.edges.length ⟨List.replicate g.edges.length .unvisited, []⟩ :=
    ⟨List.length_replicate, by simp⟩
  have h : Retraces g g.edges.length []
      (K.all.foldlM (fun s kind ↦ visit K g g.edges.length kind { s with path := [] })
        ⟨⟨List.replicate g.edges.length .unvisited, []⟩, []⟩)
      (K.all.foldlM (fun s kind ↦ g.visit K g.edges.length [] kind s)
        ⟨List.replicate g.edges.length .unvisited, []⟩) :=
    .foldlM (fun kind s hs ↦ visit_retraces g.edges.length [] kind hs) K.all hstart
  unfold detectCycles ConversionGraph.detectCycles
  dsimp only
  rw [h.same]
  cases K.all.foldlM (fun s kind ↦ g.visit K g.edges.length [] kind s)
    ⟨List.replicate g.edges.length .unvisited, []⟩ <;> rfl

/-! ### Building -/

/-- Build a registry, and say what was done. -/
def build (K : KindSet κ) (b : RegistryBuilder κ) :
    Except (Failure (BuildError κ)) (Registry K) × List (Event κ) :=
  match arrange K b.definitions with
  | .error failure => (.error failure, [])
  | .ok definitions =>
    match graph K definitions with
    | .error fault => (.error (.fault fault), [])
    | .ok g =>
      match detectCycles K g with
      | .error fault => (.error (.fault fault), [])
      | .ok cycles =>
        let warnings := cycles.map .conversionCycle
        let built := (.ok ⟨definitions⟩,
          warnings ++ [.registryBuilt K.count g.edgeCount cycles.length])
        if b.config.rejectConversionCycles then
          match cycles with
          | path :: _ => (.error (.error (.conversionCycle path)), warnings)
          | [] => built
        else built

/-- With every access checked a build comes out the same, over any kind set. -/
theorem build_eq (b : RegistryBuilder κ) : build K b = b.build K := by
  unfold build RegistryBuilder.build
  rw [arrange_eq]
  cases ha : Registry.arrange K b.definitions with
  | error failure => rfl
  | ok arranged =>
    obtain ⟨hlength, hplaces⟩ := Registry.arrange_places ha
    have hg := graph_eq hlength fun i d hd ↦ (hplaces i d hd).1
    simp only [hg, detectCycles_eq]
    cases (ConversionGraph.ofDefinitions arranged).detectCycles K with
    | error fault => rfl
    | ok cycles => cases b.config.rejectConversionCycles <;> cases cycles <;> rfl

end Strict
end RoleResolution

import RoleResolution.Proofs.Conversion.Distance
import RoleResolution.Proofs.Search.Termination

/-!
# The way of a resolution through the graph

Whatever the conversion functions answer, and whatever state they keep, a search goes along edges of
the conversion graph only. Every kind that it enters is a target of one that it entered before, the
kinds converted on the way to a grant are among those entered, in this order, and a kind that it
comes to again is one that edges lead to.
-/

namespace RoleResolution

variable {κ : Type} {Edge : κ → κ → Prop}

/-- Kinds that come one by one, each along an edge from a known kind or from one before it. -/
inductive Spreads (Edge : κ → κ → Prop) : List κ → List κ → Prop where
  | nil {known : List κ} : Spreads Edge known []
  | cons {known later : List κ} {source kind : κ} (here : source ∈ known) (edge : Edge source kind)
      (rest : Spreads Edge (known ++ [kind]) later) : Spreads Edge known (kind :: later)

namespace Spreads

variable {known known' later more : List κ}

/-- More known kinds do no harm. -/
theorem mono (h : Spreads Edge known later) (hs : known ⊆ known') : Spreads Edge known' later := by
  induction h generalizing known' with
  | nil => exact .nil
  | cons here edge rest ih =>
    refine .cons (hs here) edge (ih (List.append_subset.mpr ⟨?_, List.subset_append_right _ _⟩))
    exact List.Subset.trans hs (List.subset_append_left _ _)

/-- Kinds that came are known to those after them. -/
theorem append (h : Spreads Edge known later) (hm : Spreads Edge (known ++ later) more) :
    Spreads Edge known (later ++ more) := by
  induction h with
  | nil => rwa [List.append_nil] at hm
  | cons here edge rest ih =>
    refine .cons here edge (ih ?_)
    rwa [List.append_assoc]

/-- Every kind that came is the target of one at an earlier position. -/
theorem exists_source (h : Spreads Edge known later) {i : Nat} {kind : κ}
    (hi : (known ++ later)[i]? = some kind) (hl : known.length ≤ i) :
    ∃ j < i, ∃ source, (known ++ later)[j]? = some source ∧ Edge source kind := by
  induction h with
  | @nil known =>
    rw [List.append_nil] at hi
    exact absurd (List.getElem?_eq_some_iff.mp hi).1 (Nat.not_lt.mpr hl)
  | @cons known later source next here edge rest ih =>
    rw [← List.append_cons] at ih
    rcases Nat.lt_or_eq_of_le hl with hlt | rfl
    · refine ih hi ?_
      rwa [List.length_append, List.length_singleton]
    · rw [List.getElem?_append_right (Nat.le_refl _), Nat.sub_self] at hi
      cases hi
      obtain ⟨j, hj, hsource⟩ := List.getElem_of_mem here
      refine ⟨j, hj, source, ?_, edge⟩
      rw [List.getElem?_append_left hj, List.getElem?_eq_getElem hj, hsource]

end Spreads

/-- The trial of the conversions of a kind enters kinds that come along edges from it, converts into
those on the path of a grant, and comes again only to kinds that edges lead to. -/
structure Leads (Edge : κ → κ → Prop) (kind : κ) (entered : List κ) (finding : Finding κ) :
    Prop where
  spreads : Spreads Edge [kind] entered
  granted : ∀ rule path, finding = .ok (some (rule, path)) →
    path ≠ [] ∧ (kind :: path).IsChain Edge ∧ path.dropLast.Sublist entered
  repeated : ∀ e, finding = .error (.error e) → Relation.TransGen Edge kind e.kind

/-- A search from a role of a kind ends with the role, or it enters the kind and goes on to where
that leads. -/
inductive Route (Edge : κ → κ → Prop) (kind : κ) (visited : List κ) (finding : Finding κ) :
    List κ → Prop where
  | stays (granted : ∀ rule path, finding = .ok (some (rule, path)) → path = [])
      (repeated : ∀ e, finding = .error (.error e) → e.kind = kind ∧ kind ∈ visited) :
      Route Edge kind visited finding []
  | goes {entered : List κ} (leads : Leads Edge kind entered finding) :
      Route Edge kind visited finding (kind :: entered)

namespace Route

variable {kind : κ} {visited entered : List κ} {finding : Finding κ}

/-- What is entered from a target of a kind comes along edges from the kind. -/
theorem spreads {source : κ} (hedge : Edge source kind)
    (h : Route Edge kind visited finding entered) : Spreads Edge [source] entered := by
  cases h with
  | stays granted repeated => exact .nil
  | goes leads =>
    refine .cons List.mem_cons_self hedge (leads.spreads.mono ?_)
    exact List.subset_append_right _ _

/-- The path of a grant is a walk, and the kinds before its end were entered in this order. -/
theorem walk {rule : MatchedRule} {path : List κ}
    (h : Route Edge kind visited (.ok (some (rule, path))) entered) :
    (kind :: path).IsChain Edge ∧ (kind :: path).dropLast.Sublist entered := by
  cases h with
  | stays granted repeated =>
    obtain rfl := granted rule path rfl
    exact ⟨List.isChain_singleton kind, List.nil_sublist []⟩
  | goes leads =>
    obtain ⟨hne, hchain, hsub⟩ := leads.granted rule path rfl
    rw [List.dropLast_cons_of_ne_nil hne]
    exact ⟨hchain, hsub.cons_cons kind⟩

/-- The kinds entered start with the kind itself, and each of the others is the target of one at an
earlier position. -/
theorem source (h : Route Edge kind visited finding entered) {i : Nat} {target : κ}
    (hi : entered[i]? = some target) :
    i = 0 ∧ target = kind ∨ ∃ j < i, ∃ source, entered[j]? = some source ∧ Edge source target := by
  cases h with
  | stays granted repeated => cases hi
  | goes leads =>
    cases i with
    | zero =>
      cases hi
      exact .inl ⟨rfl, rfl⟩
    | succ i => exact .inr (leads.spreads.exists_source hi (Nat.succ_pos i))

/-- A search that comes to a kind again, though not at once, is led to it. -/
theorem transGen {e : CycleError κ} (h : Route Edge kind visited (.error (.error e)) entered)
    (hfresh : kind ∉ visited) : Relation.TransGen Edge kind e.kind := by
  cases h with
  | stays granted repeated => exact absurd (repeated e rfl).2 hfresh
  | goes leads => exact leads.repeated e rfl

end Route

namespace Leads

variable {kind target : κ} {visited entered later : List κ} {finding finding' : Finding κ}

/-- Without conversions nothing is entered and nothing found. -/
theorem done (kind : κ) : Leads Edge kind [] (.ok none) where
  spreads := .nil
  granted := nofun
  repeated := nofun

/-- A search from the result of a conversion that finds nothing leaves it to the others. -/
theorem after_route (hedge : Edge kind target) (h : Route Edge target visited finding' entered)
    (hl : Leads Edge kind later finding) : Leads Edge kind (entered ++ later) finding where
  spreads := (h.spreads hedge).append (hl.spreads.mono (List.subset_append_left _ _))
  granted := by
    intro rule path hf
    obtain ⟨hne, hchain, hsub⟩ := hl.granted rule path hf
    exact ⟨hne, hchain, hsub.trans (List.sublist_append_right entered later)⟩
  repeated := hl.repeated

/-- What is decided after a conversion is one edge further away. -/
theorem of_route (hedge : Edge kind target) (h : Route Edge target visited finding entered) :
    Leads Edge kind entered (finding.after target) where
  spreads := h.spreads hedge
  granted := by
    intro rule path hf
    obtain ⟨rest, rfl, hrest⟩ := Finding.after_eq_granted.mp hf
    rw [hrest] at h
    obtain ⟨hchain, hsub⟩ := h.walk
    exact ⟨List.cons_ne_nil target rest, List.isChain_cons_cons.mpr ⟨hedge, hchain⟩, hsub⟩
  repeated := by
    intro e hf
    have hf := Finding.after_eq_error.mp hf
    cases h with
    | stays granted repeated =>
      rw [(repeated e hf).1]
      exact .single hedge
    | goes leads => exact .head hedge (leads.repeated e hf)

end Leads

/-- Without cycles no kind comes twice along edges. -/
theorem nodup_of_isChain {path : List κ} (hacyclic : ∀ cycle, ¬ IsCycle Edge cycle)
    (h : path.IsChain Edge) : path.Nodup := by
  refine (pairwise_of_isChain h).imp ?_
  rintro kind _ hk rfl
  obtain ⟨cycle, hc, -⟩ := transGen_self_iff.mp hk
  exact hacyclic cycle hc

namespace Resolver

variable {K : KindSet κ} {R : Registry K}

/-- An attempt that succeeds leads along a conversion rule of the kind. -/
theorem attempt_convertsTo {owner : κ} {provided converted : Role κ} {d : RoleDefinition κ}
    {rule : ConversionRule κ} {index : Nat} {s s₁ : Session κ} (hd : R.lookup owner = .ok d)
    (hr : d.conversions[index]? = some rule)
    (h : attempt owner provided rule index s = (some converted, s₁)) :
    R.ConvertsTo owner converted.kind := by
  unfold attempt at h
  dsimp only at h
  split at h
  · cases h
  · cases h
    exact ⟨d, hd, rule, List.mem_of_getElem? hr, rfl⟩

variable [DecidableEq κ] {required : Role κ}

mutual

/-- A search from a tracker without repetitions goes along the conversion rules. -/
theorem Explores.route (hK : K.Lawful) (hR : R.Complete) {provided : Role κ} {s s' : Session κ}
    {examined : List (Role κ)} {finding : Finding κ}
    (h : Explores R required provided s examined finding s') (hn : s.tracker.visited.Nodup) :
    ∃ entered, s'.tracker.visited = s.tracker.visited ++ entered ∧
      Route R.ConvertsTo provided.kind s.tracker.visited finding entered := by
  have hi := inspected hR required provided s
  match h with
  | .settled hs =>
    rw [hs] at hi
    cases hi with
    | granted matched tracker =>
      refine ⟨[], by rw [tracker, List.append_nil], .stays ?_ nofun⟩
      rintro rule path ⟨⟩
      rfl
    | barren unmatched unconverted tracker =>
      exact ⟨[], by rw [tracker, List.append_nil], .stays nofun nofun⟩
    | repeated unmatched converts visited tracker =>
      refine ⟨[], by rw [tracker, List.append_nil], .stays nofun ?_⟩
      rintro e ⟨⟩
      exact ⟨rfl, visited⟩
    | overrun fresh full =>
      have hl := hK.length_le_count (CycleTracker.nodup_fresh hn fresh)
      omega
  | .entered hs tried =>
    rw [hs] at hi
    cases hi with
    | entered unmatched lookup converts fresh tracker =>
      obtain ⟨d, hd, hk⟩ := hR provided.kind
      rw [lookup] at hd
      cases hd
      have hn₁ := CycleTracker.nodup_fresh hn fresh
      rw [← tracker] at hn₁
      obtain ⟨entered, hv, hl⟩ :=
        tried.leads hK hR (hk ▸ lookup) (by rw [List.drop_zero]) hn₁
      refine ⟨provided.kind :: entered, ?_, .goes (hk ▸ hl)⟩
      rw [hv, tracker, List.append_assoc]
      rfl

/-- A trial of conversions of an entered kind goes along the conversion rules likewise. -/
theorem ExploresRules.leads (hK : K.Lawful) (hR : R.Complete) {owner : κ} {provided : Role κ}
    {d : RoleDefinition κ} {rules : List (ConversionRule κ × Nat)} {n : Nat} {s s' : Session κ}
    {examined : List (Role κ)} {finding : Finding κ}
    (h : ExploresRules R required owner provided rules s examined finding s')
    (hd : R.lookup owner = .ok d) (hrules : rules = (d.conversions.drop n).zipIdx n)
    (hn : s.tracker.visited.Nodup) :
    ∃ entered, s'.tracker.visited = s.tracker.visited ++ entered ∧
      Leads R.ConvertsTo owner entered finding := by
  match h with
  | .done => exact ⟨[], (List.append_nil _).symm, .done owner⟩
  | .declined attempted rest =>
    obtain ⟨-, rfl, hrest⟩ := zipIdx_drop_cons hrules
    have ht := (attempt_frame attempted).1
    obtain ⟨entered, hv, hl⟩ := rest.leads hK hR hd hrest (ht.symm ▸ hn)
    exact ⟨entered, by rw [hv, ht], hl⟩
  | .fruitless attempted inner rest =>
    obtain ⟨hr, rfl, hrest⟩ := zipIdx_drop_cons hrules
    have ht := (attempt_frame attempted).1
    have hedge := attempt_convertsTo hd hr attempted
    have hn₁ := ht.symm ▸ hn
    obtain ⟨-, _, _, hw, -, -⟩ := inner.work hK hR hn₁
    obtain ⟨entered₁, hv₁, hroute⟩ := inner.route hK hR hn₁
    obtain ⟨entered₂, hv₂, hl⟩ := rest.leads hK hR hd hrest hw.fresh
    refine ⟨entered₁ ++ entered₂, ?_, .after_route hedge hroute hl⟩
    rw [hv₂, hv₁, ht, List.append_assoc]
  | .decided attempted inner decisive =>
    obtain ⟨hr, rfl, -⟩ := zipIdx_drop_cons hrules
    have ht := (attempt_frame attempted).1
    have hedge := attempt_convertsTo hd hr attempted
    obtain ⟨entered, hv, hroute⟩ := inner.route hK hR (ht.symm ▸ hn)
    exact ⟨entered, by rw [hv, ht], .of_route hedge hroute⟩

end

/-- A resolution with a fresh tracker goes along edges of the conversion graph of the registry that
was built. The path of a grant is a walk that repeats no kind before its end, nor at all in a graph
without cycles, and it is no shorter than the distance. Every kind entered is the target of one
entered before, the provided kind first of all. The kind of a cycle error is reached from the
provided kind. -/
theorem resolve_route (hK : K.Lawful) {b : RegistryBuilder κ} {r : Resolver K}
    (hb : (b.build K).1 = .ok r.registry) (required provided : Role κ) :
    (∀ rule path, (r.resolve required provided).1 = .ok (.granted rule path) →
      (provided.kind :: path).IsChain (r.registry.graph.Edge K) ∧
      (provided.kind :: path).dropLast.Nodup ∧
      (∀ last, path.getLast? = some last →
        ∃ n ≤ path.length, Distance (r.registry.graph.Edge K) provided.kind last n) ∧
      ((∀ cycle, ¬ IsCycle (r.registry.graph.Edge K) cycle) → (provided.kind :: path).Nodup)) ∧
    (∀ i kind, (r.resolve required provided).2.tracker.visited[i]? = some kind →
      i = 0 ∧ kind = provided.kind ∨
        ∃ j < i, ∃ source, (r.resolve required provided).2.tracker.visited[j]? = some source ∧
          r.registry.graph.Edge K source kind) ∧
    ∀ e, (r.resolve required provided).1 = .error (.error e) →
      r.registry.graph.canReach K provided.kind e.kind = .ok true := by
  have hR := Registry.complete_of_build hK hb
  have hn : ({} : CycleTracker κ).visited.Nodup := List.nodup_nil
  obtain ⟨examined, finding, s', he, hr, ht, -⟩ :=
    resolveWith_explores hK hR required provided hn
  obtain ⟨entered, hv, hroute⟩ := he.route hK hR hn
  obtain ⟨-, _, _, hw, -, -⟩ := he.work hK hR hn
  have hfresh := hw.fresh
  rw [List.nil_append] at hv
  rw [hv] at hfresh
  simp only [ConversionGraph.canReach_iff hK (Registry.length_edges_of_build hb)]
  rw [Registry.edge_graph]
  unfold resolve
  rw [hr, ht, hv]
  refine ⟨?_, fun i kind ↦ hroute.source, ?_⟩
  · intro rule path hg
    rw [Finding.resolution_eq_granted.mp hg] at hroute
    obtain ⟨hchain, hsub⟩ := hroute.walk
    refine ⟨hchain, hfresh.sublist hsub, ?_, fun hacyclic ↦ nodup_of_isChain hacyclic hchain⟩
    intro last hl
    cases path with
    | nil => cases hl
    | cons kind rest =>
      have hw := Walk.start.along hchain (List.getLast?_cons_cons.trans hl)
      rw [Nat.zero_add] at hw
      exact hw.exists_distance (Nat.succ_pos rest.length)
  · intro e herr
    rw [Finding.resolution_eq_error.mp herr] at hroute
    exact hroute.transGen List.not_mem_nil

end Resolver

open Rank in
/-- On the ladder the way from a member to an admin is a walk that repeats no kind, and the editor
that an owner comes to twice is reached from an owner. -/
theorem Rank.ladder_route :
    kinds.Lawful ∧ ((builder []).build kinds).1 = .ok (ladder []) ∧
      ((resolver []).resolve (.unit admin) (.unit member)).1 =
        .ok (.granted .identity [editor, admin]) ∧
      [member, editor, admin].IsChain ((ladder []).graph.Edge kinds) ∧
      [member, editor].Nodup ∧
      (∀ cycle, ¬ IsCycle ((ladder []).graph.Edge kinds) cycle) ∧ [member, editor, admin].Nodup ∧
      (∃ n ≤ 2, Distance ((ladder []).graph.Edge kinds) member admin n) ∧
      ((resolver []).resolve (.unit member) (.unit owner)).1 =
        .error (.error ⟨editor, [owner, editor, admin, editor]⟩) ∧
      (ladder []).graph.canReach kinds owner editor = .ok true := by
  have hb : ((builder []).build kinds).1 = .ok (resolver []).registry := build_ladder
  have hg : ((resolver []).resolve (.unit admin) (.unit member)).1 =
      .ok (.granted .identity [editor, admin]) := rfl
  have he : ((resolver []).resolve (.unit member) (.unit owner)).1 =
      .error (.error ⟨editor, [owner, editor, admin, editor]⟩) := rfl
  obtain ⟨hgranted, -, -⟩ :=
    Resolver.resolve_route lawful_kinds hb (.unit admin) (.unit member)
  obtain ⟨-, -, hrepeated⟩ :=
    Resolver.resolve_route lawful_kinds hb (.unit member) (.unit owner)
  have hacyclic : ∀ cycle, ¬ IsCycle ((ladder []).graph.Edge kinds) cycle := by
    intro cycle hc
    obtain ⟨kind, hk⟩ := hc.transGen
    rw [Registry.edge_graph] at hk
    exact Registry.acyclic_of_build lawful_kinds build_ladder rfl kind hk
  obtain ⟨hchain, hnodup, hdistance, hsimple⟩ := hgranted .identity [editor, admin] hg
  exact ⟨lawful_kinds, build_ladder, hg, hchain, hnodup, hacyclic, hsimple hacyclic,
    hdistance admin rfl, he, hrepeated _ he⟩

end RoleResolution

import RoleResolution.Proofs.Chain
import RoleResolution.Proofs.Conversion.Reach
import RoleResolution.Proofs.Search.Exploration

/-!
# What a resolution depends on

A search reads the direct rules of the required kind, and the conversion rules of the kinds that it
examines. All of these are the provided kind and what it reaches in the conversion graph, whatever
the conversions answer. Registries that agree on these rules cannot be told apart by the check,
however much they differ in schemas, logging and other rules.
-/

namespace RoleResolution

variable {κ : Type} {K : KindSet κ}

namespace Registry

/-- The conversion rules of a kind. -/
def conversionsOf (R : Registry K) (kind : κ) : Except Fault (List (ConversionRule κ)) :=
  (R.lookup kind).map (·.conversions)

variable [DecidableEq κ]

/-- Two registries have the same direct rules for a required kind: the same kinds pass, and the
attribute rules and the delegated predicates are the same. -/
structure SameDirectRules (R R' : Registry K) (kind : κ) : Prop where
  passes : ∀ other, (R.lookup kind).map (·.passesKind other) =
    (R'.lookup kind).map (·.passesKind other)
  attributeRules : (R.lookup kind).map (·.attributeRules) =
    (R'.lookup kind).map (·.attributeRules)
  delegated : (R.lookup kind).map (·.delegated) = (R'.lookup kind).map (·.delegated)

/-- Two registries have the same conversion rules for all kinds of a collection, which the
conversion rules of the first one do not leave. -/
structure SameConversions (R R' : Registry K) (within : κ → Prop) : Prop where
  same : ∀ kind, within kind → R.conversionsOf kind = R'.conversionsOf kind
  closed : ∀ source target, within source → R.ConvertsTo source target → within target

/-- What a kind reaches in the conversion graph is such a collection, together with the kind. -/
theorem sameConversions_of_reachable (hK : K.Lawful) {R R' : Registry K}
    (hlength : R.definitions.length = K.count) {source : κ} {reached : List κ}
    (hreached : R.graph.reachable K source = .ok reached)
    (h : ∀ kind, kind = source ∨ kind ∈ reached → R.conversionsOf kind = R'.conversionsOf kind) :
    SameConversions R R' fun kind ↦ kind = source ∨ kind ∈ reached := by
  have hg : R.graph.edges.length = K.count := (length_edges R.definitions).trans hlength
  obtain ⟨reached', -, hr, -, hmem⟩ := ConversionGraph.reachable_ok hK hg source
  rw [hreached] at hr
  cases hr
  rw [edge_graph] at hmem
  refine ⟨h, fun kind target hk hedge ↦ .inr ((hmem target).mpr ?_)⟩
  rcases hk with rfl | hk
  · exact .single hedge
  · exact ((hmem kind).mp hk).tail hedge

end Registry

namespace Resolver

open Registry

variable [DecidableEq κ] {R R' : Registry K} {required : Role κ}

/-- A trial of the rules of a definition depends on the kind and the direct rules only. -/
theorem matchRules_congr {d e : RoleDefinition κ} (hkind : d.kind = e.kind)
    (hpasses : ∀ kind, d.passesKind kind = e.passesKind kind)
    (hattribute : d.attributeRules = e.attributeRules) (hdelegated : d.delegated = e.delegated)
    (required provided : Role κ) (s : Session κ) :
    matchRules d required provided s = matchRules e required provided s := by
  unfold matchRules firstAttributeRule?
  rw [hpasses, hattribute, hkind, hdelegated]

/-- The direct rules are tried alike over registries that have the same ones. -/
theorem matchDirect_congr (hR : R.Complete) (hR' : R'.Complete)
    (h : SameDirectRules R R' required.kind) (provided : Role κ) (s : Session κ) :
    matchDirect R required provided s = matchDirect R' required provided s := by
  obtain ⟨d, hd, hk⟩ := hR required.kind
  obtain ⟨e, he, hk'⟩ := hR' required.kind
  obtain ⟨hpasses, hattribute, hdelegated⟩ := h
  rw [hd, he] at hpasses hattribute hdelegated
  have hrules := matchRules_congr (hk.trans hk'.symm) (fun kind ↦ Except.ok.inj (hpasses kind))
    (Except.ok.inj hattribute) (Except.ok.inj hdelegated) required provided s
  unfold matchDirect
  rw [hd, he]
  dsimp only
  rw [hrules]

omit [DecidableEq κ] in
/-- Conversions are tried alike when the searches from their results are alike. -/
theorem tryConversions_congr {within : κ → Prop} {search search' : SearchFrom κ}
    (h : ∀ u s, within u.kind → search u s = search' u s) (owner : κ) (provided : Role κ)
    (rules : List (ConversionRule κ × Nat)) (hrules : ∀ entry ∈ rules, within entry.1.targetKind)
    (s : Session κ) :
    tryConversions search owner provided rules s =
      tryConversions search' owner provided rules s := by
  induction rules generalizing s with
  | nil => rfl
  | cons entry rest ih =>
    obtain ⟨rule, index⟩ := entry
    have htarget : within rule.targetKind := hrules _ List.mem_cons_self
    have hrest := fun s ↦ ih (fun entry he ↦ hrules entry (List.mem_cons_of_mem _ he)) s
    simp only [tryConversions]
    split
    · exact hrest _
    · next payload _ =>
      rw [h ⟨rule.targetKind, payload⟩ _ htarget]
      split
      · rfl
      · exact hrest _
      · rfl

/-- A role of the collection is examined alike when the roles that it is converted into are. -/
theorem examine_congr (hR : R.Complete) (hR' : R'.Complete)
    (hrules : SameDirectRules R R' required.kind) {within : κ → Prop}
    (hconversions : SameConversions R R' within) {search search' : SearchFrom κ}
    (h : ∀ u s, within u.kind → search u s = search' u s) (provided : Role κ) (s : Session κ)
    (hp : within provided.kind) :
    examine R required search provided s = examine R' required search' provided s := by
  obtain ⟨d, hd, hk⟩ := hR provided.kind
  obtain ⟨e, he, hk'⟩ := hR' provided.kind
  have hsame : d.conversions = e.conversions := by
    have hs := hconversions.same provided.kind hp
    unfold conversionsOf at hs
    rw [hd, he] at hs
    exact Except.ok.inj hs
  have htargets : ∀ entry ∈ d.conversions.zipIdx, within entry.1.targetKind := by
    intro entry hm
    have hrule := List.mem_of_getElem? (List.mem_zipIdx_iff_getElem?.mp hm)
    exact hconversions.closed provided.kind _ hp ⟨d, hd, entry.1, hrule, rfl⟩
  have htry := tryConversions_congr h d.kind provided d.conversions.zipIdx htargets
  unfold examine
  rw [matchDirect_congr hR hR' hrules, hd, he]
  simp only [htry]
  rw [hsame, hk, hk']

/-- Searches along chains of bounded length are alike from every role of the collection. -/
theorem searchWithin_congr (hR : R.Complete) (hR' : R'.Complete)
    (hrules : SameDirectRules R R' required.kind) {within : κ → Prop}
    (hconversions : SameConversions R R' within) (hops : Nat) (provided : Role κ) (s : Session κ)
    (hp : within provided.kind) :
    searchWithin R required hops provided s = searchWithin R' required hops provided s := by
  induction hops generalizing provided s with
  | zero => exact examine_congr hR hR' hrules hconversions (fun _ _ _ ↦ rfl) provided s hp
  | succ hops ih => exact examine_congr hR hR' hrules hconversions ih provided s hp

/-- Two registries of one kind set that have the same direct rules for the required kind, and the
same conversion rules for the provided kind and for all that it reaches in the first one, resolve
the check alike: with the same outcome, the same tracker afterwards and the same invocations. The
configurations, schemas and other rules do not matter. -/
theorem resolveWith_local (hK : K.Lawful) {b b' : RegistryBuilder κ} {r r' : Resolver K}
    (hb : (b.build K).1 = .ok r.registry) (hb' : (b'.build K).1 = .ok r'.registry)
    (required provided : Role κ) (t : CycleTracker κ)
    (hrules : SameDirectRules r.registry r'.registry required.kind) {reached : List κ}
    (hreached : r.registry.graph.reachable K provided.kind = .ok reached)
    (hconversions : ∀ kind, kind = provided.kind ∨ kind ∈ reached →
      r.registry.conversionsOf kind = r'.registry.conversionsOf kind) :
    (r.resolveWith required provided t).1 = (r'.resolveWith required provided t).1 ∧
      (r.resolveWith required provided t).2.tracker =
        (r'.resolveWith required provided t).2.tracker ∧
      (r.resolveWith required provided t).2.history =
        (r'.resolveWith required provided t).2.history := by
  have hR := complete_of_build hK hb
  have hR' := complete_of_build hK hb'
  have hlength := (arrange_places (build_ok hb).1).1
  have hsame := sameConversions_of_reachable hK hlength hreached hconversions
  have hsearch : search r.registry required provided ⟨t, [], []⟩ =
      search r'.registry required provided ⟨t, [], []⟩ :=
    searchWithin_congr hR hR' hrules hsame K.count provided ⟨t, [], []⟩ (.inl rfl)
  obtain ⟨ho, ht, hh⟩ := resolveIn_search hR required provided ⟨t, [], []⟩
  obtain ⟨ho', ht', hh'⟩ := resolveIn_search hR' required provided ⟨t, [], []⟩
  unfold resolveWith
  rw [ho, ho', ht, ht', hh, hh', hsearch]
  exact ⟨rfl, rfl, rfl⟩

end Resolver

namespace Rank

/-- A council that admits owners and editors as admins, after it has asked about members. Guests are
converted into members, and members into editors. The kinds that pass may be listed in any way. -/
def council (passes : List Rank) (away : List (ConversionRule Rank)) (schema : Option FieldSet) :
    RegistryBuilder Rank where
  definitions := [
    { RoleDefinition.ofKind guest with conversions := [never editor, always member], schema },
    { RoleDefinition.ofKind member with
      conversions := [always editor], passes := [owner], logging := schema.isSome },
    { RoleDefinition.ofKind editor with passes := away.map (·.targetKind) },
    { RoleDefinition.ofKind admin with
      passes, schema, conversions := away,
      delegated := [⟨member, [], fun history _ _ ↦ history.length == 0⟩] },
    { RoleDefinition.ofKind owner with conversions := away, schema }]

/-- Two councils that differ in schemas, logging, the order of passes and the rules of other ranks
admit a guest in the same way. -/
theorem council_local :
    ∃ r r' : Resolver kinds,
      ((council [owner, editor] [] none).build kinds).1 = .ok r.registry ∧
      ((council [editor, owner, editor] [always guest, always admin] (some .empty)).build kinds).1 =
        .ok r'.registry ∧
      r'.config.traceAllKinds = true ∧
      (r.resolveWith (.unit admin) (.unit guest) ⟨[owner]⟩).1 =
        .ok (.granted .unconditionalPass [member, editor]) ∧
      (r'.resolveWith (.unit admin) (.unit guest) ⟨[owner]⟩).1 =
        .ok (.granted .unconditionalPass [member, editor]) ∧
      (r'.resolveWith (.unit admin) (.unit guest) ⟨[owner]⟩).2.tracker =
        ⟨[owner, guest, member]⟩ := by
  let r : Resolver kinds := ⟨⟨(council [owner, editor] [] none).definitions⟩, {}⟩
  let r' : Resolver kinds :=
    ⟨⟨(council [editor, owner, editor] [always guest, always admin] (some .empty)).definitions⟩,
      { traceAllKinds := true }⟩
  have hb : ((council [owner, editor] [] none).build kinds).1 = .ok r.registry := rfl
  have hb' : ((council [editor, owner, editor] [always guest, always admin]
      (some .empty)).build kinds).1 = .ok r'.registry := rfl
  have hrules : Registry.SameDirectRules r.registry r'.registry admin :=
    ⟨fun other ↦ by cases other <;> rfl, rfl, rfl⟩
  have hreached : r.registry.graph.reachable kinds guest = .ok [editor, member] := rfl
  have hconversions : ∀ kind, kind = guest ∨ kind ∈ [editor, member] →
      r.registry.conversionsOf kind = r'.registry.conversionsOf kind := by
    intro kind hk
    simp only [List.mem_cons, List.not_mem_nil, or_false] at hk
    rcases hk with rfl | rfl | rfl <;> rfl
  have hgranted : (r.resolveWith (.unit admin) (.unit guest) ⟨[owner]⟩).1 =
      .ok (.granted .unconditionalPass [member, editor]) := rfl
  have htracker : (r.resolveWith (.unit admin) (.unit guest) ⟨[owner]⟩).2.tracker =
      ⟨[owner, guest, member]⟩ := rfl
  obtain ⟨ho, ht, -⟩ := Resolver.resolveWith_local lawful_kinds hb hb' (.unit admin) (.unit guest)
    ⟨[owner]⟩ hrules hreached hconversions
  exact ⟨r, r', hb, hb', rfl, hgranted, ho.symm.trans hgranted, ht.symm.trans htracker⟩

end Rank
end RoleResolution

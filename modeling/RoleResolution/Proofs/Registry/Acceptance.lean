import RoleResolution.Proofs.Conversion.Feedback
import RoleResolution.Proofs.Registry.Flaw

/-!
# Which definitions are accepted

Over a lawful kind set, definitions of pairwise different kinds are accepted when they have no
flaw. Otherwise the build fails with the flaw at the first place: references to kinds without
definition come before kinds without definition, and these before undeclared fields. The order in
which the definitions are supplied makes no difference.
-/

namespace RoleResolution
namespace Registry

variable {κ : Type} {K : KindSet κ} {definitions : List (RoleDefinition κ)}

/-! ### Places of a lawful set -/

/-- The kinds of a lawful set report their places. -/
theorem misindexed?_of_lawful (hK : K.Lawful) : misindexed? K = none :=
  misindexed?_eq_none_iff.mpr hK.placed

/-- A lawful set lists the kinds of all definitions. -/
theorem unlisted?_of_lawful (hK : K.Lawful) (definitions : List (RoleDefinition κ)) :
    unlisted? K definitions = none := by
  unfold unlisted?
  rw [Option.map_eq_none_iff, List.find?_eq_none]
  intro d _
  simpa using hK.index_lt d.kind

/-- Definitions of different kinds of a lawful set have different indices. -/
theorem nodup_index_of_lawful (hK : K.Lawful) (hn : (definitions.map (·.kind)).Nodup) :
    (definitions.map fun d ↦ K.index d.kind).Nodup :=
  nodup_index (misindexed?_of_lawful hK) hn fun d _ ↦ hK.mem_all d.kind

/-- The place of a kind of a lawful set holds the definition of that kind. -/
theorem getElem?_slots_iff (hK : K.Lawful) (hn : (definitions.map (·.kind)).Nodup) {kind : κ}
    {d : RoleDefinition κ} :
    (slots K definitions)[K.index kind]? = some (some d) ↔ d ∈ definitions ∧ d.kind = kind := by
  rw [getElem?_slots (hK.index_lt kind), Option.some.injEq,
    find?_index_iff (nodup_index_of_lawful hK hn)]
  constructor
  · rintro ⟨hd, hi⟩
    exact ⟨hd, hK.index_inj hi⟩
  · rintro ⟨hd, rfl⟩
    exact ⟨hd, rfl⟩

/-- The place of a kind of a lawful set is empty when the kind has no definition. -/
theorem getElem?_slots_none_iff (hK : K.Lawful) {kind : κ} :
    (slots K definitions)[K.index kind]? = some none ↔ ¬ Defined definitions kind := by
  rw [getElem?_slots (hK.index_lt kind), Option.some.injEq, List.find?_eq_none]
  constructor
  · rintro hnone ⟨d, hd, rfl⟩
    exact hnone d (List.mem_reverse.mpr hd) (by simp)
  · intro hu d hd hi
    exact hu ⟨d, List.mem_reverse.mp hd, hK.index_inj (by simpa using hi)⟩

/-- The kinds whose index has a definition are the ones with a definition. -/
theorem isDefined_slots_iff (hK : K.Lawful) {kind : κ} :
    isDefined K (slots K definitions) kind = true ↔ Defined definitions kind := by
  have hi : K.index kind < (slots K definitions).length := by
    rw [length_slots]
    exact hK.index_lt kind
  have hnone : (slots K definitions)[K.index kind]? = some none ↔ ¬ Defined definitions kind :=
    getElem?_slots_none_iff hK
  unfold isDefined
  rw [List.getElem?_eq_getElem hi] at hnone ⊢
  cases hp : (slots K definitions)[K.index kind] with
  | none => simpa [hp] using hnone
  | some d => simpa [hp] using hnone

/-- A search through the placed definitions finds the first thing by index when the search of
every definition does. -/
theorem findsFirst_slots {ε : Type} (hK : K.Lawful) (hn : (definitions.map (·.kind)).Nodup)
    {Stands : RoleDefinition κ → List Nat → ε → Prop} {f : RoleDefinition κ → Option ε}
    (h : ∀ d ∈ definitions, FindsFirst (Stands d) (f d)) :
    FindsFirst (fun place e ↦ ∃ d ∈ definitions, ∃ rest, place = K.index d.kind :: rest ∧
      Stands d rest e) (((slots K definitions).filterMap id).findSome? f) := by
  rw [findSome?_filterMap_id]
  have hplace : ∀ place ∈ slots K definitions,
      FindsFirst (fun rest e ↦ ∃ d, place = some d ∧ Stands d rest e) (place.bind f) := by
    intro place hp
    cases place with
    | none =>
      apply FindsFirst.nothing
      rintro rest e ⟨d, hd, -⟩
      cases hd
    | some d =>
      obtain ⟨i, hi⟩ := List.mem_iff_getElem?.mp hp
      apply (h d (of_getElem?_slots hi).1).congr
      intro rest e
      simp
  apply (FindsFirst.elements hplace).congr
  intro place e
  constructor
  · rintro ⟨d, hd, rest, rfl, hs⟩
    exact ⟨K.index d.kind, some d, rest, rfl, (getElem?_slots_iff hK hn).mpr ⟨hd, rfl⟩, d, rfl, hs⟩
  · rintro ⟨i, _, rest, rfl, hi, d, rfl, hs⟩
    obtain ⟨hd, rfl⟩ := of_getElem?_slots hi
    exact ⟨d, hd, rest, rfl, hs⟩

/-! ### The first flaw of each sort -/

/-- The first check finds the first reference to a kind without definition. -/
theorem findsFirst_dangling? (hK : K.Lawful) (hn : (definitions.map (·.kind)).Nodup) :
    FindsFirst (fun place e ↦ Flaw K definitions (0 :: place) e)
      (dangling? K (slots K definitions)) := by
  unfold dangling?
  apply (findsFirst_slots hK hn fun d _ ↦ (d.findsFirst_references fun kind ↦
    !isDefined K (slots K definitions) kind).map fun reference ↦
      BuildError.danglingKind d.kind reference.1 reference.2).congr
  intro place e
  rw [Flaw.dangling_iff]
  constructor
  · rintro ⟨d, hd, family, position, kind, rfl, hr, hu, rfl⟩
    refine ⟨d, hd, _, rfl, (family, kind), ⟨position, rfl, hr, ?_⟩, rfl⟩
    rw [Bool.not_eq_true', Bool.eq_false_iff, ne_eq, isDefined_slots_iff hK]
    exact hu
  · rintro ⟨d, hd, _, rfl, ⟨family, kind⟩, ⟨position, rfl, hr, hu⟩, rfl⟩
    refine ⟨d, hd, family, position, kind, rfl, hr, ?_, rfl⟩
    rw [← isDefined_slots_iff hK]
    simpa using hu

/-- The error for the first listed kind whose place is empty. -/
private def missing? (K : KindSet κ) (places : List (Option (RoleDefinition κ))) :
    Option (BuildError κ) :=
  ((K.all.zip places).find? fun entry ↦ entry.2.isNone).map fun entry ↦
    .missingDefinition entry.1

/-- When the list is counted, the first empty place belongs to the first listed kind without
definition. -/
private theorem refuseEmpty_eq (hK : K.Lawful) {places : List (Option (RoleDefinition κ))}
    (h : places.length = K.count) : refuseEmpty K places = refuse (missing? K places) := by
  unfold refuseEmpty missing?
  cases hp : places.findIdx? (·.isNone) with
  | none =>
    have hn : (K.all.zip places).find? (fun entry ↦ entry.2.isNone) = none := by
      rw [List.findIdx?_eq_none_iff] at hp
      rw [List.find?_eq_none]
      intro entry he
      simp [hp entry.2 (List.of_mem_zip he).2]
    rw [hn]
    rfl
  | some position =>
    obtain ⟨hlt, hempty, hbefore⟩ := List.findIdx?_eq_some_iff_getElem.mp hp
    have hl : position < K.all.length := by
      rw [← hK.counted, ← h]
      exact hlt
    have hf : (K.all.zip places).find? (fun entry ↦ entry.2.isNone) =
        some (K.all[position], places[position]) := by
      rw [List.find?_eq_some_iff_getElem]
      refine ⟨hempty, position, by rw [List.length_zip]; omega, by simp, ?_⟩
      intro earlier he
      simpa [Option.isSome_iff_ne_none] using hbefore earlier he
    rw [hf]
    dsimp only
    rw [List.getElem?_eq_getElem hl]
    rfl

/-- The second check finds the first kind without definition. -/
private theorem findsFirst_missing? (hK : K.Lawful) :
    FindsFirst (fun place e ↦ Flaw K definitions (1 :: place) e)
      (missing? K (slots K definitions)) := by
  unfold missing?
  apply ((FindsFirst.of_find? _ _).map _).congr
  intro place e
  rw [Flaw.missing_iff]
  constructor
  · rintro ⟨kind, rfl, hu, rfl⟩
    refine ⟨(kind, none), ⟨K.index kind, rfl, ?_, rfl⟩, rfl⟩
    exact List.getElem?_zip_eq_some.mpr ⟨hK.listed kind, (getElem?_slots_none_iff hK).mpr hu⟩
  · rintro ⟨⟨kind, place⟩, ⟨i, rfl, hz, hp⟩, rfl⟩
    obtain ⟨hk, hs⟩ := List.getElem?_zip_eq_some.mp hz
    obtain rfl := hK.placed i kind hk
    obtain rfl := Option.isNone_iff_eq_none.mp hp
    exact ⟨kind, rfl, (getElem?_slots_none_iff hK).mp hs, rfl⟩

/-- The error for the first side of a comparison that is not declared. -/
private def undeclared? (owner provider : RoleDefinition κ) (pair : AttributeRule κ) :
    Option (BuildError κ) :=
  ([(owner, pair.requiredField), (provider, pair.providedField)].find? fun side ↦
    !side.1.declares side.2).map fun side ↦ .unknownField owner.kind side.1.kind side.2

/-- When every kind has a definition, the check of fields finds the first undeclared side. -/
private theorem checkFields_eq {arranged : List (RoleDefinition κ)}
    {provider : κ → RoleDefinition κ}
    (hp : ∀ kind, arranged[K.index kind]? = some (provider kind))
    (hkind : ∀ kind, (provider kind).kind = kind)
    (pairs : List (RoleDefinition κ × AttributeRule κ)) :
    checkFields K arranged pairs = refuse (pairs.findSome? fun entry ↦
      undeclared? entry.1 (provider entry.2.providedKind) entry.2) := by
  induction pairs with
  | nil => rfl
  | cons entry rest ih =>
    obtain ⟨owner, pair⟩ := entry
    unfold checkFields
    rw [hp, List.findSome?_cons]
    cases hr : owner.declares pair.requiredField with
    | false => simp [undeclared?, hr, refuse]
    | true =>
      cases hd : (provider pair.providedKind).declares pair.providedField with
      | false => simp [undeclared?, hr, hd, hkind, refuse]
      | true => simpa [undeclared?, hr, hd] using ih

/-- The required side of a comparison is checked before the provided one. -/
private theorem findsFirst_undeclared? (owner provider : RoleDefinition κ)
    (pair : AttributeRule κ) :
    FindsFirst (fun place e ↦
      place = [0] ∧ owner.Lacks pair.requiredField ∧
          e = .unknownField owner.kind owner.kind pair.requiredField ∨
        place = [1] ∧ provider.Lacks pair.providedField ∧
          e = .unknownField owner.kind provider.kind pair.providedField)
      (undeclared? owner provider pair) := by
  unfold undeclared?
  apply ((FindsFirst.of_find? _ _).map _).congr
  intro place e
  constructor
  · rintro (⟨rfl, lacks, rfl⟩ | ⟨rfl, lacks, rfl⟩)
    · refine ⟨_, ⟨0, rfl, rfl, ?_⟩, rfl⟩
      simpa using RoleDefinition.declares_eq_false_iff.mpr lacks
    · refine ⟨_, ⟨1, rfl, rfl, ?_⟩, rfl⟩
      simpa using RoleDefinition.declares_eq_false_iff.mpr lacks
  · rintro ⟨side, ⟨i, rfl, hi, hs⟩, rfl⟩
    have lacks : side.1.Lacks side.2 :=
      RoleDefinition.declares_eq_false_iff.mp (by simpa using hs)
    rcases i with _ | _ | i
    · cases hi
      exact .inl ⟨rfl, lacks, rfl⟩
    · cases hi
      exact .inr ⟨rfl, lacks, rfl⟩
    · cases hi

/-- The third check finds the first field that a schema lacks, when all kinds have definitions. -/
private theorem findsFirst_fields (hK : K.Lawful) (hn : (definitions.map (·.kind)).Nodup)
    {provider : κ → RoleDefinition κ}
    (hp : ∀ kind, provider kind ∈ definitions ∧ (provider kind).kind = kind) :
    FindsFirst (fun place e ↦ Flaw K definitions (2 :: place) e)
      ((((slots K definitions).filterMap id).flatMap fun d ↦
        (comparedFields d).map (d, ·)).findSome? fun entry ↦
          undeclared? entry.1 (provider entry.2.providedKind) entry.2) := by
  rw [findSome?_flatMap]
  simp only [List.findSome?_map]
  apply (findsFirst_slots hK hn fun d _ ↦ d.findsFirst_comparedFields fun pair ↦
    findsFirst_undeclared? d (provider pair.providedKind) pair).congr
  intro place e
  rw [Flaw.undeclared_iff]
  constructor
  · rintro ⟨d, hd, front, pair, back, rfl, compares,
      ⟨rfl, lacks, rfl⟩ | ⟨rfl, f, hf, hkind, lacks, rfl⟩⟩
    · exact ⟨d, hd, _, rfl, front, pair, [0], rfl, compares, .inl ⟨rfl, lacks, rfl⟩⟩
    · obtain ⟨hm, hk⟩ := hp pair.providedKind
      cases List.inj_on_of_nodup_map hn hf hm (hkind.trans hk.symm)
      exact ⟨d, hd, _, rfl, front, pair, [1], rfl, compares, .inr ⟨rfl, lacks, by rw [hk]⟩⟩
  · rintro ⟨d, hd, _, rfl, front, pair, back, rfl, compares,
      ⟨rfl, lacks, rfl⟩ | ⟨rfl, lacks, rfl⟩⟩
    · exact ⟨d, hd, front, pair, [0], rfl, compares, .inl ⟨rfl, lacks, rfl⟩⟩
    · obtain ⟨hm, hk⟩ := hp pair.providedKind
      refine ⟨d, hd, front, pair, [1], rfl, compares, .inr ⟨rfl, _, hm, hk, lacks, ?_⟩⟩
      rw [hk]

/-- When no definition is missing, the arranged definitions are the ones of all kinds. -/
theorem exists_provider (hK : K.Lawful) (hn : (definitions.map (·.kind)).Nodup)
    (htaken : ∀ place ∈ slots K definitions, place.isSome) :
    ∃ provider : κ → RoleDefinition κ,
      (∀ kind, provider kind ∈ definitions ∧ (provider kind).kind = kind) ∧
      ∀ kind, ((slots K definitions).filterMap id)[K.index kind]? = some (provider kind) := by
  have hdefined : ∀ kind, Defined definitions kind := by
    intro kind
    by_contra hu
    have hs := htaken _ (List.mem_of_getElem? ((getElem?_slots_none_iff hK).mpr hu))
    cases hs
  choose provider hd hk using hdefined
  refine ⟨provider, fun kind ↦ ⟨hd kind, hk kind⟩, fun kind ↦ ?_⟩
  have hs := (getElem?_slots_iff hK hn).mpr ⟨hd kind, hk kind⟩
  rw [← map_some_filterMap _ htaken, List.getElem?_map] at hs
  simpa using hs

/-- The third check, too, finds the first flaw of its sort when it is made. -/
private theorem exists_fields (hK : K.Lawful) (hn : (definitions.map (·.kind)).Nodup) :
    ∃ fields? : Option (BuildError κ), (∀ place ∈ slots K definitions, place.isSome) →
      FindsFirst (fun place e ↦ Flaw K definitions (2 :: place) e) fields? ∧
      checkFields K ((slots K definitions).filterMap id)
        (((slots K definitions).filterMap id).flatMap fun d ↦ (comparedFields d).map (d, ·)) =
          refuse fields? := by
  by_cases htaken : ∀ place ∈ slots K definitions, place.isSome
  · obtain ⟨provider, hp, harranged⟩ := exists_provider hK hn htaken
    refine ⟨_, fun _ ↦ ⟨findsFirst_fields hK hn hp, ?_⟩⟩
    exact checkFields_eq harranged (fun kind ↦ (hp kind).2) _
  · exact ⟨none, fun h ↦ absurd h htaken⟩

/-- An arrangement fails with the first flaw, and without a flaw it gives the definitions by
index. -/
theorem arrange_first (hK : K.Lawful) (hn : (definitions.map (·.kind)).Nodup) :
    ∃ found, FindsFirst (Flaw K definitions) found ∧
      arrange K definitions = (do refuse found; return (slots K definitions).filterMap id) := by
  obtain ⟨fields?, hfields⟩ := exists_fields hK hn
  have hlength : (slots K definitions).length = K.count := length_slots
  have hempty := refuseEmpty_eq hK hlength
  have htaken : missing? K (slots K definitions) = none →
      ∀ place ∈ slots K definitions, place.isSome := by
    intro hm
    rw [hm] at hempty
    exact refuseEmpty_ok_iff.mp hempty
  refine ⟨[dangling? K (slots K definitions), missing? K (slots K definitions),
    fields?].findSome? id, ?_, ?_⟩
  · apply FindsFirst.of_findSome?
    · intro place e h
      exact h.sort_lt
    · intro i stage hi hbefore
      rcases i with _ | _ | _ | i
      · cases hi
        exact findsFirst_dangling? hK hn
      · cases hi
        exact findsFirst_missing? hK
      · cases hi
        exact (hfields (htaken (hbefore 1 _ Nat.one_lt_two rfl))).1
      · cases hi
  · unfold arrange
    dsimp only
    rw [misindexed?_of_lawful hK, unlisted?_of_lawful hK, hempty]
    cases hd : dangling? K (slots K definitions) with
    | some e => rfl
    | none =>
      cases hm : missing? K (slots K definitions) with
      | some e => rfl
      | none =>
        rw [(hfields (htaken hm)).2]
        cases fields? <;> rfl

/-! ### Acceptance -/

/-- The judgement of definitions is the first of their flaws, or else a registry that lists the
definitions in the order of the kinds and looks up the supplied one for every kind. -/
inductive Judgement (K : KindSet κ) (definitions : List (RoleDefinition κ)) :
    Except (Failure (BuildError κ)) (Registry K) → Prop where
  | rejected {e : BuildError κ} (first : First (Flaw K definitions) e) :
      Judgement K definitions (.error (.error e))
  | accepted {R : Registry K} (sound : ∀ place e, ¬ Flaw K definitions place e)
      (order : R.definitions.map (·.kind) = K.all)
      (supplied : ∀ kind, ∃ d ∈ definitions, d.kind = kind ∧ R.lookup kind = .ok d) :
      Judgement K definitions (.ok R)

/-- Registries that list the kinds in order and look up the same definitions are the same. -/
theorem eq_of_lookup (hK : K.Lawful) {R R' : Registry K}
    (ho : R.definitions.map (·.kind) = K.all) (ho' : R'.definitions.map (·.kind) = K.all)
    (h : ∀ kind d, R.lookup kind = .ok d → R'.lookup kind = .ok d) : R = R' := by
  have hlength : R.definitions.length = R'.definitions.length := by
    have hl := congrArg List.length (ho.trans ho'.symm)
    simpa using hl
  have hd : R.definitions = R'.definitions := by
    apply List.ext_getElem hlength
    intro i hi hi'
    have hk : K.all[i]? = some R.definitions[i].kind := by
      rw [← ho, List.getElem?_map, List.getElem?_eq_getElem hi]
      rfl
    have hindex := hK.placed i _ hk
    have hl := h R.definitions[i].kind R.definitions[i] (by simp [lookup, hindex, hi])
    simpa [lookup, hindex, hi', eq_comm] using hl
  cases R
  cases R'
  cases hd
  rfl

/-- There is one judgement. -/
theorem Judgement.unique (hK : K.Lawful) (hn : (definitions.map (·.kind)).Nodup)
    {result result' : Except (Failure (BuildError κ)) (Registry K)}
    (h : Judgement K definitions result) (h' : Judgement K definitions result') :
    result = result' := by
  cases h with
  | rejected first =>
    cases h' with
    | rejected first' =>
      have he := First.unique (fun _ _ _ h h' ↦ h.unique hK hn h') first first'
      rw [he]
    | accepted sound =>
      obtain ⟨place, hs, -⟩ := first
      exact absurd hs (sound place _)
  | accepted sound order supplied =>
    cases h' with
    | rejected first =>
      obtain ⟨place, hs, -⟩ := first
      exact absurd hs (sound place _)
    | accepted sound' order' supplied' =>
      congr 1
      apply eq_of_lookup hK order order'
      intro kind d hd
      obtain ⟨e, he, hke, hle⟩ := supplied kind
      obtain ⟨e', he', hke', hle'⟩ := supplied' kind
      cases hd.symm.trans hle
      cases List.inj_on_of_nodup_map hn he he' (hke.trans hke'.symm)
      exact hle'

variable [DecidableEq κ]

/-- Only the places of definitions matter for a build over a lawful set. -/
theorem build_perm (hK : K.Lawful) (hn : (definitions.map (·.kind)).Nodup)
    {definitions' : List (RoleDefinition κ)} (h : definitions.Perm definitions')
    (config : RegistryConfig) :
    Registry.build K config definitions' = Registry.build K config definitions := by
  have hn' : (definitions'.map (·.kind)).Nodup := (h.map _).nodup_iff.mp hn
  have ha : arrange K definitions' = arrange K definitions := by
    unfold arrange
    rw [unlisted?_of_lawful hK, unlisted?_of_lawful hK,
      slots_perm (nodup_index_of_lawful hK hn) h]
  rw [build_of_nodup hn, build_of_nodup hn']
  unfold RegistryBuilder.build
  rw [ha]

/-- The build of definitions of pairwise different kinds of a lawful set gives the judgement of
them, in whatever order they are supplied. -/
theorem build_judgement (hK : K.Lawful) (hn : (definitions.map (·.kind)).Nodup) :
    (∀ result, (Registry.build K ⟨false⟩ definitions).1 = result ↔
      Judgement K definitions result) ∧
    ∀ definitions' : List (RoleDefinition κ), definitions.Perm definitions' →
      Registry.build K ⟨false⟩ definitions' = Registry.build K ⟨false⟩ definitions := by
  have hjudgement : Judgement K definitions (Registry.build K ⟨false⟩ definitions).1 := by
    rw [build_of_nodup hn]
    obtain ⟨found, hfirst, ha⟩ := arrange_first hK hn
    cases found with
    | some e =>
      rw [build_of_arrange_error ha]
      exact .rejected (hfirst.first e rfl)
    | none =>
      obtain ⟨cycles, -, hb⟩ := build_of_arrange hK ha
      rw [hb ⟨false⟩]
      exact .accepted (hfirst.nowhere rfl) (map_kind_of_arrange hK ha) (lookup_of_arrange hK ha)
  constructor
  · intro result
    constructor
    · rintro rfl
      exact hjudgement
    · exact hjudgement.unique hK hn
  · intro definitions' h
    exact build_perm hK hn h ⟨false⟩

end Registry

namespace Rank

/-- Definitions of all ranks but one; two of them are converted into the one left out. -/
def gap : List (RoleDefinition Rank) := [
  { RoleDefinition.ofKind owner with conversions := [always admin] },
  { RoleDefinition.ofKind editor with
    passes := [owner]
    conversions := [always guest, never admin] },
  RoleDefinition.ofKind guest,
  RoleDefinition.ofKind member]

/-- The lower of the two ranks is reported, although the other is supplied first. The ladder is
accepted upside down, and it makes the same registry. -/
theorem gap_judgement :
    Registry.Judgement kinds gap (.error (.error (.danglingKind editor .conversion admin))) ∧
      Registry.Judgement kinds (builder []).definitions.reverse (.ok (ladder [])) ∧
      Registry.build kinds ⟨false⟩ (builder []).definitions.reverse =
        Registry.build kinds ⟨false⟩ (builder []).definitions := by
  have hgap := Registry.build_judgement lawful_kinds (show (gap.map (·.kind)).Nodup by decide)
  have hladder := Registry.build_judgement lawful_kinds
    (show ((builder []).definitions.map (·.kind)).Nodup by decide)
  have hreverse := hladder.2 _ (List.reverse_perm _).symm
  have hupside := Registry.build_judgement lawful_kinds
    (show ((builder []).definitions.reverse.map (·.kind)).Nodup by decide)
  exact ⟨(hgap.1 _).mp rfl, (hupside.1 _).mp rfl, hreverse⟩

end Rank
end RoleResolution

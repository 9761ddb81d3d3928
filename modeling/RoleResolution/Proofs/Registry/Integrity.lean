import RoleResolution.Proofs.Conversion.Totality

/-!
# Registries of arbitrary kind sets

Nothing is assumed of a kind set here: it may leave kinds out of its list, let them report any index
and give any number of kinds. A build places definitions by index, so a kind outside the list that
reports the index of a listed kind takes its place. Without such a kind a registry keeps every
supplied definition under its own kind, and the kinds that rules refer to are listed.
-/

namespace RoleResolution

variable {κ : Type} {K : KindSet κ}

/-- A kind has a definition among the given ones, or a rule of one refers to it. -/
def Uses (definitions : List (RoleDefinition κ)) (kind : κ) : Prop :=
  ∃ d ∈ definitions, d.kind = kind ∨ d.RefersTo kind

/-- A registry is faithful to definitions: all kinds that they use are listed, every listed kind
looks up its own definition, and none of the definitions is lost. -/
structure Registry.Faithful (R : Registry K) (definitions : List (RoleDefinition κ)) : Prop where
  listed : ∀ kind, Uses definitions kind → kind ∈ K.all
  own : ∀ kind ∈ K.all, ∃ d, R.lookup kind = .ok d ∧ d.kind = kind
  kept : ∀ d ∈ definitions, R.lookup d.kind = .ok d

namespace Registry

variable {definitions arranged : List (RoleDefinition κ)}

/-- When no definition is unlisted, every definition reports one of the counted indices. -/
theorem index_lt_of_unlisted? (h : unlisted? K definitions = none) {d : RoleDefinition κ}
    (hd : d ∈ definitions) : K.index d.kind < K.count := by
  unfold unlisted? at h
  rw [Option.map_eq_none_iff, List.find?_eq_none] at h
  simpa using h d hd

/-- Kinds that the definitions refer to are listed when no kind outside the list reports an index
of it. -/
private theorem referred_mem_all (hu : unlisted? K definitions = none)
    (hd : dangling? K (slots K definitions) = none)
    (hindex : (definitions.map fun d ↦ K.index d.kind).Nodup) {d : RoleDefinition κ}
    (hm : d ∈ definitions) {kind : κ} (hr : d.RefersTo kind)
    (hin : kind ∉ K.all → K.count ≤ K.index kind) : kind ∈ K.all := by
  by_contra hn
  have hs := getElem?_slots_of_mem hindex hm (index_lt_of_unlisted? hu hm)
  have hplaced : d ∈ (slots K definitions).filterMap id :=
    List.mem_filterMap.mpr ⟨some d, List.mem_of_getElem? hs, rfl⟩
  have hlt := index_lt_of_refersTo hd hplaced hr
  have hle := hin hn
  omega

/-- An arrangement looks up a definition of every listed kind when all listed kinds are counted and
the kinds of all definitions are listed. -/
private theorem lookup_of_listed (ha : arrange K definitions = .ok arranged)
    (hle : K.all.length ≤ K.count) (hkinds : ∀ d ∈ definitions, d.kind ∈ K.all) {kind : κ}
    (hk : kind ∈ K.all) :
    ∃ d, Registry.lookup (K := K) ⟨arranged⟩ kind = .ok d ∧ d.kind = kind := by
  obtain ⟨hi, -⟩ := arrange_ok ha
  obtain ⟨hlength, hplaces⟩ := arrange_places ha
  have hlt : K.index kind < arranged.length := by
    rw [hlength]
    exact (index_lt_iff hi).mpr hle kind hk
  have hp := List.getElem?_eq_getElem hlt
  obtain ⟨hindex, hm⟩ := hplaces _ _ hp
  exact ⟨arranged[K.index kind], by simp only [lookup, hp], eq_of_index hi (hkinds _ hm) hk hindex⟩

/-- An arrangement keeps every definition when no two have the same index. -/
private theorem lookup_of_mem (ha : arrange K definitions = .ok arranged)
    (hindex : (definitions.map fun d ↦ K.index d.kind).Nodup) {d : RoleDefinition κ}
    (hm : d ∈ definitions) : Registry.lookup (K := K) ⟨arranged⟩ d.kind = .ok d := by
  obtain ⟨-, hu, -⟩ := arrange_ok ha
  obtain ⟨hlength, hplaces⟩ := arrange_places ha
  have hlt : K.index d.kind < arranged.length := by
    rw [hlength]
    exact index_lt_of_unlisted? hu hm
  have hp := List.getElem?_eq_getElem hlt
  obtain ⟨hk, hm'⟩ := hplaces _ _ hp
  have he := List.inj_on_of_nodup_map hindex hm' hm hk
  simp only [lookup, hp, he]

variable [DecidableEq κ]

/-- A registry that was built is faithful to the supplied definitions exactly when no kind that
they use reports the index of a listed kind without being listed. -/
theorem build_faithful_iff {config : RegistryConfig} {R : Registry K}
    (h : (Registry.build K config definitions).1 = .ok R) :
    R.Faithful definitions ↔
      ∀ kind, Uses definitions kind → kind ∉ K.all → K.count ≤ K.index kind := by
  have hnodup := nodup_of_build h
  rw [build_of_nodup hnodup] at h
  have hle := length_all_le_of_build h
  obtain ⟨ha, -⟩ := build_ok h
  obtain ⟨hi, hu, hd, -⟩ := arrange_ok ha
  constructor
  · intro hf kind hk hn
    exact absurd (hf.listed kind hk) hn
  · intro hin
    have hkinds : ∀ d ∈ definitions, d.kind ∈ K.all := by
      intro d hd
      by_contra hn
      have hle := hin d.kind ⟨d, hd, .inl rfl⟩ hn
      have hlt := index_lt_of_unlisted? hu hd
      omega
    have hindex := nodup_index hi hnodup hkinds
    constructor
    · rintro kind ⟨d, hm, rfl | hr⟩
      · exact hkinds d hm
      · exact referred_mem_all hu hd hindex hm hr (hin kind ⟨d, hm, .inr hr⟩)
    · intro kind hk
      exact lookup_of_listed ha hle hkinds hk
    · intro d hm
      exact lookup_of_mem ha hindex hm

end Registry

/-! ### A kind outside the list -/

/-- A listed kind and one that the list leaves out. -/
inductive Post where
  | guard
  | stranger
  deriving DecidableEq

namespace Post

/-- The set that lists guards only; strangers report the given index. -/
def kinds (index : Nat) : KindSet Post where
  all := [guard]
  index
    | guard => 0
    | stranger => index
  name
    | guard => "Guard"
    | stranger => "Stranger"

/-- Definitions of both kinds without rules. -/
def definitions : List (RoleDefinition Post) :=
  [RoleDefinition.ofKind guard, RoleDefinition.ofKind stranger]

/-- While strangers report an index past the list, guards by themselves make a faithful
registry. -/
theorem guard_faithful :
    (Registry.build (kinds 1) {} [RoleDefinition.ofKind guard]).1 =
        .ok ⟨[RoleDefinition.ofKind guard]⟩ ∧
      Registry.Faithful (K := kinds 1) ⟨[RoleDefinition.ofKind guard]⟩
        [RoleDefinition.ofKind guard] := by
  have h : (Registry.build (kinds 1) {} [RoleDefinition.ofKind guard]).1 =
      .ok ⟨[RoleDefinition.ofKind guard]⟩ := rfl
  refine ⟨h, (Registry.build_faithful_iff h).mpr ?_⟩
  intro kind _ hn
  cases kind with
  | guard => exact absurd List.mem_cons_self hn
  | stranger => exact Nat.le_refl 1

/-- When strangers report the index of guards, both definitions are accepted, the one of guards
is lost, and the lookup of guards gives the definition of strangers, who are not listed. -/
theorem stranger_unfaithful :
    (Registry.build (kinds 0) {} definitions).1 = .ok ⟨[RoleDefinition.ofKind stranger]⟩ ∧
      stranger ∉ (kinds 0).all ∧
      Registry.lookup (K := kinds 0) ⟨[RoleDefinition.ofKind stranger]⟩ guard =
        .ok (RoleDefinition.ofKind stranger) ∧
      ¬ Registry.Faithful (K := kinds 0) ⟨[RoleDefinition.ofKind stranger]⟩ definitions := by
  have hn : stranger ∉ (kinds 0).all := by decide
  refine ⟨rfl, hn, rfl, fun hf ↦ hn (hf.listed stranger ?_)⟩
  exact ⟨RoleDefinition.ofKind stranger, List.mem_cons_of_mem _ List.mem_cons_self, .inl rfl⟩

end Post
end RoleResolution

import Mathlib.Data.List.Nodup
import RoleResolution.Proofs.Registry.Arrangement

/-!
# Supplied definitions

A list of definitions is taken as it is when its kinds are pairwise different, and refused
otherwise, whatever the configuration. Definitions of pairwise different indices do not compete
for a place, so each of them stands at its index and the order of the list leaves no trace.
-/

namespace RoleResolution

variable {κ : Type} {K : KindSet κ}

/-! ### Collecting definitions -/

section Collecting

variable [DecidableEq κ]

namespace RegistryBuilder

variable {b : RegistryBuilder κ} {d : RoleDefinition κ}

/-- A definition of a new kind is added. -/
theorem define_of_new (h : d.kind ∉ b.definitions.map (·.kind)) :
    b.define d = ({ b with definitions := b.definitions ++ [d] }, .ok ()) := by
  have ha : b.definitions.any (fun e ↦ e.kind = d.kind) = false := by
    rw [List.any_eq_false]
    intro e he hk
    exact h (List.mem_map.mpr ⟨e, he, of_decide_eq_true hk⟩)
  simp [define, ha]

/-- A definition of a kind that has one is refused. -/
theorem define_of_held (h : d.kind ∈ b.definitions.map (·.kind)) :
    b.define d = (b, .error (.duplicateDefinition d.kind)) := by
  have ha : b.definitions.any (fun e ↦ e.kind = d.kind) = true := by
    obtain ⟨e, he, hk⟩ := List.mem_map.mp h
    exact List.any_eq_true.mpr ⟨e, he, decide_eq_true hk⟩
  simp [define, ha]

omit [DecidableEq κ] in
private theorem not_mem_of_nodup {definitions rest : List (RoleDefinition κ)}
    (h : ((definitions ++ d :: rest).map (·.kind)).Nodup) :
    d.kind ∉ definitions.map (·.kind) := by
  rw [List.map_append, List.map_cons] at h
  intro hm
  exact (List.nodup_append.mp h).2.2 _ hm _ List.mem_cons_self rfl

/-- Definitions of new and pairwise different kinds are all added, in order. -/
theorem defineAll_of_nodup (definitions : List (RoleDefinition κ)) (b : RegistryBuilder κ)
    (h : ((b.definitions ++ definitions).map (·.kind)).Nodup) :
    b.defineAll definitions =
      ({ b with definitions := b.definitions ++ definitions }, .ok ()) := by
  induction definitions generalizing b with
  | nil => simp [defineAll]
  | cons d rest ih =>
    have hr := ih { b with definitions := b.definitions ++ [d] } (by simpa using h)
    rw [defineAll, define_of_new (not_mem_of_nodup h)]
    dsimp only
    rw [hr]
    simp

/-- Otherwise one is refused, the same under every configuration. -/
theorem defineAll_of_not_nodup (definitions held : List (RoleDefinition κ))
    (hheld : (held.map (·.kind)).Nodup)
    (h : ¬ ((held ++ definitions).map (·.kind)).Nodup) :
    ∃ kind, ∀ config : RegistryConfig, ∃ b,
      defineAll ⟨held, config⟩ definitions = (b, .error (.duplicateDefinition kind)) := by
  induction definitions generalizing held with
  | nil => exact absurd hheld (by simpa using h)
  | cons d rest ih =>
    by_cases hd : d.kind ∈ held.map (·.kind)
    · refine ⟨d.kind, fun config ↦ ⟨⟨held, config⟩, ?_⟩⟩
      rw [defineAll, define_of_held hd]
    · have hn : ((held ++ [d]).map (·.kind)).Nodup := by
        rw [List.map_append, List.map_singleton, ← List.concat_eq_append]
        exact List.Nodup.concat hd hheld
      obtain ⟨kind, hk⟩ := ih (held ++ [d]) hn (by simpa using h)
      refine ⟨kind, fun config ↦ ?_⟩
      obtain ⟨b, hb⟩ := hk config
      refine ⟨b, ?_⟩
      rw [defineAll, define_of_new hd]
      exact hb

end RegistryBuilder

namespace Registry

variable {definitions : List (RoleDefinition κ)}

/-- Definitions of pairwise different kinds are built as they are. -/
theorem build_of_nodup (h : (definitions.map (·.kind)).Nodup) (config : RegistryConfig) :
    Registry.build K config definitions = RegistryBuilder.build K ⟨definitions, config⟩ := by
  unfold Registry.build
  rw [RegistryBuilder.defineAll_of_nodup definitions ⟨[], config⟩ h]
  rfl

/-- Several definitions of one kind are refused, the same under every configuration. -/
theorem build_of_not_nodup (h : ¬ (definitions.map (·.kind)).Nodup) :
    ∃ kind, ∀ config, Registry.build K config definitions =
      (.error (.error (.duplicateDefinition kind)), []) := by
  obtain ⟨kind, hk⟩ := RegistryBuilder.defineAll_of_not_nodup definitions [] List.nodup_nil h
  refine ⟨kind, fun config ↦ ?_⟩
  obtain ⟨b, hb⟩ := hk config
  unfold Registry.build
  rw [hb]

/-- What is built comes from definitions of pairwise different kinds. -/
theorem nodup_of_build {config : RegistryConfig} {R : Registry K}
    (h : (Registry.build K config definitions).1 = .ok R) :
    (definitions.map (·.kind)).Nodup := by
  by_contra hn
  obtain ⟨kind, hk⟩ := build_of_not_nodup (K := K) hn
  rw [hk] at h
  cases h

end Registry
end Collecting

/-! ### Indices -/

namespace Registry

variable {definitions : List (RoleDefinition κ)}

/-- No listed kind is misindexed exactly when every listed kind reports its place. -/
theorem misindexed?_eq_none_iff :
    misindexed? K = none ↔ ∀ i kind, K.all[i]? = some kind → K.index kind = i := by
  unfold misindexed?
  rw [Option.map_eq_none_iff, List.find?_eq_none]
  constructor
  · intro h i kind hk
    have hz : (kind, i) ∈ K.all.zipIdx := List.mem_zipIdx_iff_getElem?.mpr hk
    simpa using h _ hz
  · rintro h ⟨kind, i⟩ hz
    simpa using h i kind (List.mem_zipIdx_iff_getElem?.mp hz)

/-- When no listed kind is misindexed, every listed kind reports its place. -/
theorem index_of_misindexed? (h : misindexed? K = none) {i : Nat} {kind : κ}
    (hk : K.all[i]? = some kind) : K.index kind = i :=
  misindexed?_eq_none_iff.mp h i kind hk

/-- When no listed kind is misindexed, a listed kind stands at the index that it reports. -/
theorem getElem?_index (h : misindexed? K = none) {kind : κ} (hk : kind ∈ K.all) :
    K.all[K.index kind]? = some kind := by
  obtain ⟨i, hi⟩ := List.mem_iff_getElem?.mp hk
  rw [index_of_misindexed? h hi]
  exact hi

/-- Listed kinds that report their places are the same when their indices are. -/
theorem eq_of_index (h : misindexed? K = none) {kind other : κ} (hk : kind ∈ K.all)
    (ho : other ∈ K.all) (he : K.index kind = K.index other) : kind = other := by
  have hk := getElem?_index h hk
  rw [he, getElem?_index h ho] at hk
  exact (Option.some.inj hk).symm

/-- When the kinds of the definitions are listed, different kinds have different indices. -/
theorem nodup_index (h : misindexed? K = none) (hn : (definitions.map (·.kind)).Nodup)
    (hl : ∀ d ∈ definitions, d.kind ∈ K.all) :
    (definitions.map fun d ↦ K.index d.kind).Nodup := by
  have hm : (definitions.map fun d ↦ K.index d.kind) = (definitions.map (·.kind)).map K.index := by
    rw [List.map_map]
    rfl
  rw [hm]
  apply List.Nodup.map_on _ hn
  intro kind hk other ho he
  obtain ⟨d, hd, rfl⟩ := List.mem_map.mp hk
  obtain ⟨e, he', rfl⟩ := List.mem_map.mp ho
  exact eq_of_index h (hl d hd) (hl e he') he

/-! ### Places -/

/-- There are as many places as kinds. -/
@[simp]
theorem length_slots : (slots K definitions).length = K.count := by
  simp [slots]

/-- The place at an index holds the last definition of the index. -/
theorem getElem?_slots {i : Nat} (hi : i < K.count) :
    (slots K definitions)[i]? =
      some (definitions.reverse.find? fun d ↦ K.index d.kind == i) := by
  simp [slots, hi]

/-- What stands at a place is a definition of its index. -/
theorem of_getElem?_slots {i : Nat} {d : RoleDefinition κ}
    (h : (slots K definitions)[i]? = some (some d)) : d ∈ definitions ∧ K.index d.kind = i := by
  have hi : i < K.count := by
    have hl := (List.getElem?_eq_some_iff.mp h).1
    simpa using hl
  rw [getElem?_slots hi] at h
  have hf := Option.some.inj h
  exact ⟨List.mem_reverse.mp (List.mem_of_find?_eq_some hf), by simpa using List.find?_some hf⟩

/-- When no two definitions have the same index, the last one of an index is the only one. -/
theorem find?_index_iff (hn : (definitions.map fun d ↦ K.index d.kind).Nodup) {i : Nat}
    {d : RoleDefinition κ} :
    (definitions.reverse.find? fun e ↦ K.index e.kind == i) = some d ↔
      d ∈ definitions ∧ K.index d.kind = i := by
  constructor
  · intro h
    exact ⟨List.mem_reverse.mp (List.mem_of_find?_eq_some h), by simpa using List.find?_some h⟩
  · rintro ⟨hd, rfl⟩
    cases hf : definitions.reverse.find? fun e ↦ K.index e.kind == K.index d.kind with
    | none =>
      have hne := List.find?_eq_none.mp hf d (List.mem_reverse.mpr hd)
      simp at hne
    | some e =>
      have he : e ∈ definitions := List.mem_reverse.mp (List.mem_of_find?_eq_some hf)
      have hk : K.index e.kind = K.index d.kind := by simpa using List.find?_some hf
      exact congrArg some (List.inj_on_of_nodup_map hn he hd hk)

/-- When no two definitions have the same index, each of them stands at its index. -/
theorem getElem?_slots_of_mem (hn : (definitions.map fun d ↦ K.index d.kind).Nodup)
    {d : RoleDefinition κ} (hd : d ∈ definitions) (hi : K.index d.kind < K.count) :
    (slots K definitions)[K.index d.kind]? = some (some d) := by
  rw [getElem?_slots hi, (find?_index_iff hn).mpr ⟨hd, rfl⟩]

/-- When no two definitions have the same index, their order does not matter. -/
theorem slots_perm {definitions' : List (RoleDefinition κ)}
    (hn : (definitions.map fun d ↦ K.index d.kind).Nodup) (h : definitions.Perm definitions') :
    slots K definitions = slots K definitions' := by
  have hn' : (definitions'.map fun d ↦ K.index d.kind).Nodup := (h.map _).nodup_iff.mp hn
  unfold slots
  apply List.map_congr_left
  intro i hi
  apply Option.ext
  intro d
  rw [find?_index_iff hn, find?_index_iff hn', h.mem_iff]

/-! ### Arranged definitions -/

/-- Arranged definitions are listed in the order of the kinds. -/
theorem map_kind_of_arrange (hK : K.Lawful) {arranged : List (RoleDefinition κ)}
    (h : arrange K definitions = .ok arranged) : arranged.map (·.kind) = K.all := by
  obtain ⟨hlength, hplaces⟩ := arrange_places h
  apply List.ext_getElem (by rw [List.length_map, hlength, hK.counted])
  intro i hi hi'
  rw [List.getElem_map]
  rw [List.length_map] at hi
  obtain ⟨hindex, -⟩ := hplaces i _ (List.getElem?_eq_getElem hi)
  have hk := hK.listed arranged[i].kind
  rw [hindex, List.getElem?_eq_getElem hi'] at hk
  exact (Option.some.inj hk).symm

/-- In arranged definitions every kind looks up the supplied definition of the kind. -/
theorem lookup_of_arrange (hK : K.Lawful) {arranged : List (RoleDefinition κ)}
    (h : arrange K definitions = .ok arranged) (kind : κ) :
    ∃ d ∈ definitions, d.kind = kind ∧ Registry.lookup (K := K) ⟨arranged⟩ kind = .ok d := by
  obtain ⟨hlength, hplaces⟩ := arrange_places h
  have hi : K.index kind < arranged.length := hlength ▸ hK.index_lt kind
  have hd := List.getElem?_eq_getElem hi
  obtain ⟨hindex, hm⟩ := hplaces _ _ hd
  exact ⟨arranged[K.index kind], hm, hK.index_inj hindex, by simp only [lookup, hd]⟩

end Registry
end RoleResolution

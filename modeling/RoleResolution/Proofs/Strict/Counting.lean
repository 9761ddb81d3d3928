import RoleResolution.Proofs.Strict.Detection

/-!
# The number of kinds and the absence of faults

A build relies on the number of kinds that the set gives. When this is the length of the list, no
build faults, whatever is defined. Nor does one when a listed kind misreports its index, as every
build then fails with that error. There is no other kind set of which this holds: one definition
without rules for each listed kind that is counted ends in a fault, either because a place is left
for which the list has no kind, or because a listed kind is left for which the graph has no place.
-/

namespace RoleResolution

variable {κ : Type} {K : KindSet κ}

namespace Registry

/-! ### Definitions without rules -/

/-- A definition without rules for every listed kind that is counted. -/
def bare (K : KindSet κ) : List (RoleDefinition κ) := (K.all.take K.count).map .ofKind

/-- Listed kinds that report their places are listed once. -/
theorem nodup_all_of_misindexed? (h : misindexed? K = none) : K.all.Nodup := by
  refine List.pairwise_iff_getElem.mpr fun i j hi hj hlt he ↦ ?_
  have hplace := index_of_misindexed? h (List.getElem?_eq_getElem hi)
  rw [he, index_of_misindexed? h (List.getElem?_eq_getElem hj)] at hplace
  omega

/-- The kinds of definitions without rules are listed. -/
theorem mem_bare {d : RoleDefinition κ} : d ∈ bare K ↔ ∃ i, i < K.count ∧
    ∃ kind, K.all[i]? = some kind ∧ d = .ofKind kind := by
  unfold bare
  rw [List.mem_map]
  constructor
  · rintro ⟨kind, hk, rfl⟩
    obtain ⟨i, hi⟩ := List.mem_iff_getElem?.mp hk
    rw [List.getElem?_take] at hi
    split at hi
    · next hlt => exact ⟨i, hlt, kind, hi, rfl⟩
    · cases hi
  · rintro ⟨i, hlt, kind, hi, rfl⟩
    refine ⟨kind, List.mem_of_getElem? (i := i) ?_, rfl⟩
    rwa [List.getElem?_take, if_pos hlt]

/-- Nothing else is placed. -/
theorem eq_ofKind_of_mem_slots_bare {d : RoleDefinition κ}
    (hd : d ∈ (slots K (bare K)).filterMap id) : ∃ kind, d = .ofKind kind := by
  obtain ⟨place, hp, rfl⟩ := List.mem_filterMap.mp hd
  obtain ⟨i, hs⟩ := List.mem_iff_getElem?.mp hp
  obtain ⟨_, -, kind, -, rfl⟩ := mem_bare.mp (of_getElem?_slots hs).1
  exact ⟨kind, rfl⟩

/-- They refer to nothing. -/
theorem dangling?_bare : dangling? K (slots K (bare K)) = none := by
  unfold dangling?
  rw [List.findSome?_eq_none_iff]
  intro d hd
  obtain ⟨kind, rfl⟩ := eq_ofKind_of_mem_slots_bare hd
  rfl

/-- They compare no fields. -/
theorem comparedFields_bare : ((slots K (bare K)).filterMap id).flatMap
    (fun d ↦ (comparedFields d).map (d, ·)) = [] := by
  rw [List.flatMap_eq_nil_iff]
  intro d hd
  obtain ⟨kind, rfl⟩ := eq_ofKind_of_mem_slots_bare hd
  rfl

section Bare

variable (hi : misindexed? K = none)

include hi

/-- Definitions without rules are of pairwise different kinds. -/
theorem nodup_bare : ((bare K).map (·.kind)).Nodup := by
  have hm : (bare K).map (·.kind) = K.all.take K.count := by
    simp [bare, Function.comp_def, RoleDefinition.ofKind]
  rw [hm]
  exact (nodup_all_of_misindexed? hi).sublist (List.take_sublist ..)

/-- None of them is unlisted. -/
theorem unlisted?_bare : unlisted? K (bare K) = none := by
  unfold unlisted?
  rw [Option.map_eq_none_iff, List.find?_eq_none]
  intro d hd
  obtain ⟨i, hlt, kind, hk, rfl⟩ := mem_bare.mp hd
  simpa [RoleDefinition.ofKind, index_of_misindexed? hi hk] using hlt

/-- A place is taken exactly when the list has a kind there. -/
theorem isSome_slots_bare {i : Nat} (hlt : i < (slots K (bare K)).length) :
    (slots K (bare K))[i].isSome ↔ i < K.all.length := by
  have hc : i < K.count := by rwa [length_slots] at hlt
  have hp : (slots K (bare K))[i]? =
      some ((bare K).reverse.find? fun d ↦ K.index d.kind == i) := getElem?_slots hc
  rw [List.getElem?_eq_getElem hlt, Option.some.injEq] at hp
  rw [hp, List.find?_isSome]
  constructor
  · rintro ⟨d, hd, he⟩
    obtain ⟨j, -, kind, hk, rfl⟩ := mem_bare.mp (List.mem_reverse.mp hd)
    have hj : j = i := by simpa [RoleDefinition.ofKind, index_of_misindexed? hi hk] using he
    exact hj ▸ (List.getElem?_eq_some_iff.mp hk).1
  · intro hl
    have hk := List.getElem?_eq_getElem hl
    refine ⟨.ofKind K.all[i], List.mem_reverse.mpr (mem_bare.mpr ⟨i, hc, _, hk, rfl⟩), ?_⟩
    simp [RoleDefinition.ofKind, index_of_misindexed? hi hk]

/-- With more kinds counted than listed there is no name for the first empty place. -/
theorem arrange_bare_fault (hlt : K.all.length < K.count) :
    arrange K (bare K) = .error (.fault .indexOutOfRange) := by
  have hempty : refuseEmpty K (slots K (bare K)) = .error (.fault .indexOutOfRange) := by
    unfold refuseEmpty
    cases hp : (slots K (bare K)).findIdx? (·.isNone) with
    | none =>
      have hl : K.all.length < (slots K (bare K)).length := by rwa [length_slots]
      rw [List.findIdx?_eq_none_iff] at hp
      have htaken := Option.isNone_eq_false_iff.mp (hp _ (List.getElem_mem hl))
      have habsurd := (isSome_slots_bare hi hl).mp htaken
      omega
    | some position =>
      obtain ⟨hl, hnone, -⟩ := List.findIdx?_eq_some_iff_getElem.mp hp
      have hpast : K.all[position]? = none := by
        rw [List.getElem?_eq_none_iff, ← Nat.not_lt, ← isSome_slots_bare hi hl]
        simpa using hnone
      dsimp only
      rw [hpast]
  unfold arrange
  dsimp only
  rw [hi, unlisted?_bare hi, dangling?_bare, hempty]
  rfl

/-- With more kinds listed than counted they are arranged. -/
theorem arrange_bare_ok (hle : K.count ≤ K.all.length) :
    ∃ arranged, arrange K (bare K) = .ok arranged := by
  have htaken : refuseEmpty K (slots K (bare K)) = .ok () := by
    refine refuseEmpty_ok_iff.mpr fun place hp ↦ ?_
    obtain ⟨i, hl, rfl⟩ := List.getElem_of_mem hp
    have hc : i < K.count := by rwa [length_slots] at hl
    exact (isSome_slots_bare hi hl).mpr (Nat.lt_of_lt_of_le hc hle)
  refine ⟨(slots K (bare K)).filterMap id, ?_⟩
  unfold arrange
  dsimp only
  rw [hi, unlisted?_bare hi, dangling?_bare, htaken, comparedFields_bare]
  rfl

variable [DecidableEq κ]

/-- Where the count is not the length of the list, the build of these definitions faults. -/
theorem build_bare_fault (hc : K.count ≠ K.all.length) (config : RegistryConfig) :
    (Registry.build K config (bare K)).1 = .error (.fault .indexOutOfRange) := by
  rw [build_of_nodup (nodup_bare hi)]
  rcases Nat.lt_or_gt_of_ne hc with hlt | hgt
  · obtain ⟨arranged, ha⟩ := arrange_bare_ok hi (Nat.le_of_lt hlt)
    exact build_fault_of_arrange (b := ⟨bare K, config⟩) ha hlt
  · unfold RegistryBuilder.build
    dsimp only
    rw [arrange_bare_fault hi hgt]

end Bare

end Registry

/-! ### Builds without faults -/

variable [DecidableEq κ]

/-- A build ends without a fault when the count is the length of the list, and also when a listed
kind misreports its index. -/
theorem RegistryBuilder.build_ne_fault
    (hc : K.count = K.all.length ∨ Registry.misindexed? K ≠ none) (b : RegistryBuilder κ)
    (fault : Fault) : (b.build K).1 ≠ .error (.fault fault) := by
  unfold build
  cases ha : Registry.arrange K b.definitions with
  | error failure =>
    intro h
    cases h
    rcases hc with hcount | hi
    · exact Registry.arrange_ne_fault (Nat.le_of_eq hcount) _ _ ha
    · obtain ⟨e, he⟩ := Option.ne_none_iff_exists'.mp hi
      rw [Registry.arrange_of_misindexed? he] at ha
      cases ha
  | ok arranged =>
    have hcount := hc.resolve_right (not_not.mpr (Registry.arrange_ok ha).1)
    obtain ⟨cycles, hcycles⟩ := Registry.detectCycles_of_arrange ha (Nat.le_of_eq hcount.symm)
    dsimp only
    rw [hcycles]
    dsimp only
    split <;> nofun

namespace Registry

/-- Building from a list of definitions ends without a fault under the same condition. -/
theorem build_ne_fault (hc : K.count = K.all.length ∨ misindexed? K ≠ none)
    (config : RegistryConfig) (definitions : List (RoleDefinition κ)) (fault : Fault) :
    (Registry.build K config definitions).1 ≠ .error (.fault fault) := by
  by_cases h : (definitions.map (·.kind)).Nodup
  · rw [build_of_nodup h]
    exact RegistryBuilder.build_ne_fault hc _ fault
  · obtain ⟨kind, hk⟩ := build_of_not_nodup (K := K) h
    rw [hk]
    nofun

/-- There is no other kind set over which all lists of definitions are built without a fault. -/
theorem build_ne_fault_iff :
    (∀ config definitions fault,
      (Registry.build K config definitions).1 ≠ .error (.fault fault)) ↔
      K.count = K.all.length ∨ ∃ i kind, K.all[i]? = some kind ∧ K.index kind ≠ i := by
  have hmisindexed : misindexed? K ≠ none ↔ ∃ i kind, K.all[i]? = some kind ∧ K.index kind ≠ i := by
    rw [ne_eq, misindexed?_eq_none_iff]
    simp
  rw [← hmisindexed]
  constructor
  · intro h
    by_contra hn
    obtain ⟨hc, hi⟩ := not_or.mp hn
    exact h {} (bare K) .indexOutOfRange (build_bare_fault (not_not.mp hi) hc {})
  · intro hc config definitions fault
    exact build_ne_fault hc config definitions fault

/-- An ordered set is lawful once a registry is built over it. -/
theorem lawful_of_build (hK : K.Ordered) {b : RegistryBuilder κ} {R : Registry K}
    (h : (b.build K).1 = .ok R) : K.Lawful where
  toOrdered := hK
  counted := by
    obtain ⟨hlength, hplaces⟩ := arrange_places (build_ok h).1
    have hle := length_all_le_of_build h
    by_contra hc
    -- the definition in the first place past the list is of a kind that is listed
    have hlt : K.all.length < R.definitions.length := by omega
    obtain ⟨hindex, -⟩ := hplaces _ _ (List.getElem?_eq_getElem hlt)
    have hk := hK.listed R.definitions[K.all.length].kind
    rw [hindex, List.getElem?_eq_none (Nat.le_refl _)] at hk
    cases hk

end Registry
end RoleResolution

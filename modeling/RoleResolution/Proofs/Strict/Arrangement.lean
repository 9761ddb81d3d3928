import Mathlib.Data.List.Induction
import RoleResolution.Proofs.Registry.Integrity

/-!
# Arranging with every access checked

An arrangement asks for places as a whole. Here it is run place by place, and reading or writing a
table at an index that the table does not have is a fault. Over any kind set the two agree. Each
check comes before the accesses that rely on it: a definition is placed once its index is known to
be counted, and fields are compared once every reference is known to have a definition. Only the
kind of an empty place may not be there to be named, when more kinds are counted than listed.
-/

namespace RoleResolution

variable {κ : Type} {K : KindSet κ}

namespace Strict

/-! ### Tables -/

section Tables

variable {α : Type} {table : List α} {index : Nat}

/-- The entry of a table at an index, which must be one of the table. -/
def fetch (table : List α) (index : Nat) : Except Fault α :=
  match table[index]? with
  | some entry => .ok entry
  | none => .error .indexOutOfRange

/-- A table with another entry at an index, which must be one of the table. -/
def store (table : List α) (index : Nat) (entry : α) : Except Fault (List α) :=
  if index < table.length then .ok (table.set index entry) else .error .indexOutOfRange

/-- An entry that is there is fetched. -/
theorem fetch_of_getElem? {entry : α} (h : table[index]? = some entry) :
    fetch table index = .ok entry := by
  unfold fetch
  rw [h]

/-- An entry that is there is replaced. -/
theorem store_of_lt (h : index < table.length) (entry : α) :
    store table index entry = .ok (table.set index entry) :=
  if_pos h

end Tables

/-! ### Placing definitions -/

/-- Place a definition at the index of its kind, unless the index lies past the count. -/
def place (K : KindSet κ) (slots : List (Option (RoleDefinition κ))) (d : RoleDefinition κ) :
    Except (Failure (BuildError κ)) (List (Option (RoleDefinition κ))) :=
  if K.count ≤ K.index d.kind then .error (.error (.unlistedKind d.kind))
  else (store slots (K.index d.kind) (some d)).mapError .fault

/-- Place definitions one after another. -/
def placeAll (K : KindSet κ) (definitions : List (RoleDefinition κ)) :
    Except (Failure (BuildError κ)) (List (Option (RoleDefinition κ))) :=
  definitions.foldlM (place K) (List.replicate K.count none)

/-- The definitions by index, when every check but the one for cycles passes. -/
def arrange (K : KindSet κ) (definitions : List (RoleDefinition κ)) :
    Except (Failure (BuildError κ)) (List (RoleDefinition κ)) := do
  Registry.refuse (Registry.misindexed? K)
  let slots ← placeAll K definitions
  Registry.refuse (Registry.dangling? K slots)
  Registry.refuseEmpty K slots
  let arranged := slots.filterMap id
  Registry.checkFields K arranged
    (arranged.flatMap fun d ↦ (Registry.comparedFields d).map (d, ·))
  return arranged

/-- A definition that comes last takes the place at its index. -/
theorem slots_concat (definitions : List (RoleDefinition κ)) (d : RoleDefinition κ) :
    Registry.slots K (definitions ++ [d]) =
      (Registry.slots K definitions).set (K.index d.kind) (some d) := by
  apply List.ext_getElem?
  intro i
  rw [List.getElem?_set, Registry.length_slots]
  by_cases hi : i < K.count
  · rw [Registry.getElem?_slots hi, Registry.getElem?_slots hi, List.reverse_append]
    by_cases he : K.index d.kind = i
    · subst he
      simp [hi]
    · simp [he]
  · have hn (ds : List (RoleDefinition κ)) : (Registry.slots K ds)[i]? = none := by
      rw [List.getElem?_eq_none_iff, Registry.length_slots]
      omega
    rw [hn, hn]
    split
    · next he => rw [if_neg (he ▸ hi)]
    · rfl

/-- The first unlisted definition stays the first when another one is added. -/
theorem unlisted?_concat (definitions : List (RoleDefinition κ)) (d : RoleDefinition κ) :
    Registry.unlisted? K (definitions ++ [d]) =
      (Registry.unlisted? K definitions).or
        (if K.count ≤ K.index d.kind then some (.unlistedKind d.kind) else none) := by
  unfold Registry.unlisted?
  rw [List.find?_append]
  cases definitions.find? fun d ↦ K.count ≤ K.index d.kind with
  | some e => rfl
  | none =>
    by_cases h : K.count ≤ K.index d.kind
    · simp [h]
    · simp [h]

/-- Placing definitions one after another finds the first unlisted one, or fills the places. -/
theorem placeAll_eq (definitions : List (RoleDefinition κ)) :
    placeAll K definitions = (do
      Registry.refuse (Registry.unlisted? K definitions)
      return Registry.slots K definitions) := by
  unfold placeAll
  induction definitions using List.reverseRecOn with
  | nil =>
    have hs : Registry.slots K [] = List.replicate K.count none := by
      simp [Registry.slots]
    rw [hs]
    rfl
  | append_singleton rest d ih =>
    rw [List.foldlM_append, ih, unlisted?_concat]
    cases Registry.unlisted? K rest with
    | some e => rfl
    | none =>
      by_cases hi : K.count ≤ K.index d.kind
      · simp [Registry.refuse, place, hi, bind, Except.bind, pure, Except.pure]
      · have hlt : K.index d.kind < (Registry.slots K rest).length := by
          rw [Registry.length_slots]
          omega
        simp [Registry.refuse, place, hi, bind, Except.bind, pure, Except.pure,
          store_of_lt hlt, slots_concat, Except.mapError]

/-- With every access checked an arrangement comes out the same. -/
theorem arrange_eq (definitions : List (RoleDefinition κ)) :
    arrange K definitions = Registry.arrange K definitions := by
  unfold arrange Registry.arrange
  rw [placeAll_eq]
  cases Registry.refuse (Registry.misindexed? K) with
  | error failure => rfl
  | ok =>
    cases Registry.refuse (Registry.unlisted? K definitions) with
    | error failure => rfl
    | ok => rfl

end Strict

namespace Registry

variable {definitions arranged : List (RoleDefinition κ)}

/-- A pair of compared fields is for a kind that a rule refers to. -/
theorem refersTo_of_comparedFields {d : RoleDefinition κ} {pair : AttributeRule κ}
    (h : pair ∈ comparedFields d) : d.RefersTo pair.providedKind := by
  unfold comparedFields at h
  rcases List.mem_append.mp h with h | h
  · obtain ⟨position, hp⟩ := List.mem_iff_getElem?.mp h
    exact ⟨.attributeRule, position, pair, hp, rfl⟩
  · obtain ⟨rule, hr, hg⟩ := List.mem_flatMap.mp h
    obtain ⟨guard, -, rfl⟩ := List.mem_map.mp hg
    obtain ⟨position, hp⟩ := List.mem_iff_getElem?.mp hr
    exact ⟨.delegatedPredicate, position, rule, hp, rfl⟩

/-- Fields are compared without a fault when the kinds they are for have definitions. -/
theorem checkFields_ne_fault {pairs : List (RoleDefinition κ × AttributeRule κ)}
    (h : ∀ entry ∈ pairs, K.index entry.2.providedKind < arranged.length) (fault : Fault) :
    checkFields K arranged pairs ≠ .error (.fault fault) := by
  induction pairs with
  | nil => nofun
  | cons entry rest ih =>
    obtain ⟨owner, pair⟩ := entry
    obtain ⟨hp, hr⟩ := List.forall_mem_cons.mp h
    rw [checkFields, List.getElem?_eq_getElem hp]
    dsimp only
    split
    · split
      · exact ih hr
      · nofun
    · nofun

/-- An empty place is refused without a fault when no more kinds are counted than listed. -/
theorem refuseEmpty_ne_fault {places : List (Option (RoleDefinition κ))}
    (h : places.length ≤ K.all.length) (fault : Fault) :
    refuseEmpty K places ≠ .error (.fault fault) := by
  unfold refuseEmpty
  cases hp : places.findIdx? (·.isNone) with
  | none => nofun
  | some position =>
    obtain ⟨hlt, -⟩ := List.findIdx?_eq_some_iff_getElem.mp hp
    dsimp only
    rw [List.getElem?_eq_getElem (Nat.lt_of_lt_of_le hlt h)]
    nofun

private theorem ne_fault_of_bind {ε α β : Type} {first : Except (Failure ε) α} {fault : Fault}
    {rest : α → Except (Failure ε) β} (hfirst : first ≠ .error (.fault fault))
    (h : ∀ a, first = .ok a → rest a ≠ .error (.fault fault)) :
    (first >>= rest) ≠ .error (.fault fault) := by
  cases first with
  | ok a => exact h a rfl
  | error failure =>
    intro he
    cases he
    exact hfirst rfl

private theorem refuse_ne_fault (e? : Option (BuildError κ)) (fault : Fault) :
    refuse e? ≠ .error (.fault fault) := by
  cases e? <;> nofun

/-- An arrangement ends without a fault when no more kinds are counted than listed. -/
theorem arrange_ne_fault (hle : K.count ≤ K.all.length) (definitions : List (RoleDefinition κ))
    (fault : Fault) : arrange K definitions ≠ .error (.fault fault) := by
  have hplaces : (slots K definitions).length ≤ K.all.length := by
    rwa [length_slots]
  unfold arrange
  refine ne_fault_of_bind (refuse_ne_fault _ fault) fun _ _ ↦
    ne_fault_of_bind (refuse_ne_fault _ fault) fun _ _ ↦
    ne_fault_of_bind (refuse_ne_fault _ fault) fun _ hd ↦
    ne_fault_of_bind (refuseEmpty_ne_fault hplaces fault) fun _ hm ↦
    ne_fault_of_bind (checkFields_ne_fault ?_ fault) fun _ _ ↦ nofun
  -- whatever a rule refers to has a place, and no place is empty
  have hs := map_some_filterMap _ (refuseEmpty_ok_iff.mp hm)
  have hl : ((slots K definitions).filterMap id).length = K.count := by
    rw [← List.length_map (f := some), hs, length_slots]
  intro entry he
  obtain ⟨d, hd', he⟩ := List.mem_flatMap.mp he
  obtain ⟨pair, hp, rfl⟩ := List.mem_map.mp he
  rw [hl]
  exact index_lt_of_refersTo (eq_none_of_refuse hd) hd' (refersTo_of_comparedFields hp)

/-- An arrangement over a kind set that misreports an index fails with the error that says so. -/
theorem arrange_of_misindexed? {e : BuildError κ} (h : misindexed? K = some e)
    (definitions : List (RoleDefinition κ)) : arrange K definitions = .error (.error e) := by
  unfold arrange
  rw [h]
  rfl

end Registry
end RoleResolution

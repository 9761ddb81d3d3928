/-!
# Maps from field names, in name order

A field map keeps one value per name, in strictly increasing order of names by code point.
Writing a name again replaces its value. Hence two maps with the same final write for every
name are the same map, whatever the order of the writes.
-/

namespace RoleResolution

/-- Entries with strictly increasing names. -/
def FieldsSorted {α : Type} (entries : List (String × α)) : Prop :=
  entries.Pairwise fun a b ↦ a.1 < b.1

/-- Whether names strictly increase is decided by comparing neighbours. -/
def decideFieldsSorted {α : Type} : (entries : List (String × α)) →
    Decidable (FieldsSorted entries)
  | [] => .isTrue List.Pairwise.nil
  | [_] => .isTrue (List.pairwise_singleton _ _)
  | a :: b :: rest =>
    if hab : a.1 < b.1 then
      match decideFieldsSorted (b :: rest) with
      | .isTrue h => .isTrue (List.pairwise_cons.mpr ⟨fun e he ↦ by
          rcases List.mem_cons.mp he with rfl | he
          · exact hab
          · exact String.lt_trans hab ((List.pairwise_cons.mp h).1 e he), h⟩)
      | .isFalse h => .isFalse fun hs ↦ h (List.pairwise_cons.mp hs).2
    else .isFalse fun hs ↦ hab ((List.pairwise_cons.mp hs).1 b List.mem_cons_self)

instance {α : Type} (entries : List (String × α)) : Decidable (FieldsSorted entries) :=
  decideFieldsSorted entries

/-- Write one entry into a sorted list of entries, replacing the value of an equal name. -/
def insertField {α : Type} (name : String) (value : α) :
    List (String × α) → List (String × α)
  | [] => [(name, value)]
  | (n, v) :: rest =>
    if name < n then (name, value) :: (n, v) :: rest
    else if name = n then (name, value) :: rest
    else (n, v) :: insertField name value rest

/-- Write entries one after another; the last write of a name stays. -/
def sortFields {α : Type} (entries : List (String × α)) : List (String × α) :=
  entries.foldl (fun sorted e ↦ insertField e.1 e.2 sorted) []

/-- Every entry after a write is the written one or an earlier one. -/
theorem mem_insertField {α : Type} {name : String} {value : α} {e : String × α}
    {entries : List (String × α)} (h : e ∈ insertField name value entries) :
    e = (name, value) ∨ e ∈ entries := by
  induction entries with
  | nil => simpa [insertField] using h
  | cons head rest ih =>
    obtain ⟨n, v⟩ := head
    simp only [insertField] at h
    split at h
    · simpa using h
    · split at h
      · rcases List.mem_cons.mp h with h | h
        · exact .inl h
        · exact .inr (List.mem_cons_of_mem _ h)
      · rcases List.mem_cons.mp h with h | h
        · exact .inr (h ▸ List.mem_cons_self)
        · exact (ih h).imp_right (List.mem_cons_of_mem _)

/-- A write keeps the names in strictly increasing order. -/
theorem fieldsSorted_insertField {α : Type} (name : String) (value : α)
    {entries : List (String × α)} (h : FieldsSorted entries) :
    FieldsSorted (insertField name value entries) := by
  induction entries with
  | nil => simp [insertField, FieldsSorted]
  | cons head rest ih =>
    obtain ⟨n, v⟩ := head
    obtain ⟨hhead, hrest⟩ := List.pairwise_cons.mp h
    simp only [insertField]
    split
    · next hlt =>
      refine List.pairwise_cons.mpr ⟨fun e he ↦ ?_, h⟩
      rcases List.mem_cons.mp he with rfl | he
      · exact hlt
      · exact String.lt_trans hlt (hhead e he)
    · next hlt =>
      split
      · next heq =>
        subst heq
        exact List.pairwise_cons.mpr ⟨hhead, hrest⟩
      · next hne =>
        refine List.pairwise_cons.mpr ⟨fun e he ↦ ?_, ih hrest⟩
        rcases mem_insertField he with rfl | he
        · exact Std.lt_of_le_of_ne (Std.not_lt.mp hlt) (Ne.symm hne)
        · exact hhead e he

/-- A write changes the value of its own name only. -/
theorem lookup_insertField {α : Type} (name other : String) (value : α)
    (entries : List (String × α)) :
    (insertField name value entries).lookup other =
      if other = name then some value else entries.lookup other := by
  have hcons (n : String) (v : α) (rest : List (String × α)) :
      List.lookup other ((n, v) :: rest) = if other = n then some v else rest.lookup other := by
    by_cases h : other = n
    · simp [h]
    · rw [List.lookup_cons, beq_false_of_ne h, if_neg h]
  induction entries with
  | nil => simp [insertField, hcons]
  | cons entry rest ih =>
    obtain ⟨n, v⟩ := entry
    simp only [insertField]
    split
    · rw [hcons]
    · split
      · next hn =>
        subst hn
        rw [hcons, hcons]
        split <;> rfl
      · next hn =>
        rw [hcons, hcons, ih]
        by_cases h : other = n
        · subst h
          simp [Ne.symm hn]
        · simp [h]

/-- Entries written one after another end up in strictly increasing order. -/
theorem fieldsSorted_sortFields {α : Type} (entries : List (String × α)) :
    FieldsSorted (sortFields entries) := by
  suffices h : ∀ sorted : List (String × α), FieldsSorted sorted →
      FieldsSorted (entries.foldl (fun s e ↦ insertField e.1 e.2 s) sorted) from
    h [] List.Pairwise.nil
  induction entries with
  | nil => exact fun _ h ↦ h
  | cons e rest ih => exact fun s h ↦ ih _ (fieldsSorted_insertField e.1 e.2 h)

/-- Writing entries one after another introduces no entry of its own. -/
theorem mem_of_mem_sortFields {α : Type} {entries : List (String × α)} {e : String × α}
    (h : e ∈ sortFields entries) : e ∈ entries := by
  suffices hs : ∀ sorted : List (String × α),
      e ∈ entries.foldl (fun s e ↦ insertField e.1 e.2 s) sorted → e ∈ sorted ∨ e ∈ entries by
    exact (hs [] h).resolve_left List.not_mem_nil
  clear h
  induction entries with
  | nil => exact fun _ h ↦ .inl h
  | cons head rest ih =>
    intro sorted h
    rcases ih _ h with h | h
    · rcases mem_insertField h with rfl | h
      · exact .inr List.mem_cons_self
      · exact .inl h
    · exact .inr (List.mem_cons_of_mem _ h)

/-- A finite map from field names, listed in name order. -/
structure FieldMap (α : Type) where
  /-- The entries, in strictly increasing order of names. -/
  entries : List (String × α)
  sorted : FieldsSorted entries

namespace FieldMap

variable {α : Type}

/-- The map without fields. -/
def empty : FieldMap α := ⟨[], List.Pairwise.nil⟩

/-- Write a field, replacing an earlier value. -/
def insert (m : FieldMap α) (name : String) (value : α) : FieldMap α :=
  ⟨insertField name value m.entries, fieldsSorted_insertField name value m.sorted⟩

/-- Write entries one after another. -/
def ofList (entries : List (String × α)) : FieldMap α :=
  ⟨sortFields entries, fieldsSorted_sortFields entries⟩

/-- The value of a field. -/
def get? (m : FieldMap α) (name : String) : Option α := m.entries.lookup name

/-- Whether a field is present. -/
def contains (m : FieldMap α) (name : String) : Bool := (m.get? name).isSome

/-- The field names, in order. -/
def names (m : FieldMap α) : List String := m.entries.map Prod.fst

/-- The number of fields. -/
def size (m : FieldMap α) : Nat := m.entries.length

/-- Remove a field. -/
def erase (m : FieldMap α) (name : String) : FieldMap α :=
  ⟨m.entries.filter fun e ↦ e.1 ≠ name, List.Pairwise.sublist List.filter_sublist m.sorted⟩

/-- Same names with equal values. -/
def beq [BEq α] (m n : FieldMap α) : Bool := m.entries == n.entries

instance [BEq α] : BEq (FieldMap α) := ⟨beq⟩

/-- Maps with the same entries are the same. -/
@[ext]
theorem ext {m n : FieldMap α} (h : m.entries = n.entries) : m = n := by
  cases m
  cases n
  cases h
  rfl

end FieldMap

/-- A set of field names, listed in name order. -/
abbrev FieldSet := FieldMap Unit

/-- The set of the given names. -/
def FieldSet.ofNames (names : List String) : FieldSet :=
  FieldMap.ofList (names.map fun name ↦ (name, ()))

end RoleResolution

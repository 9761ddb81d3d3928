import Mathlib.Data.List.Induction
import Mathlib.Data.List.Sort
import RoleResolution.Proofs.Registry.Schema

/-!
# Written fields

Fields that are written one after another come to stand in the order of their names, each with the
value that was written last. Fields in that order are determined by what is found under each name.
-/

namespace RoleResolution

variable {α β : Type}

/-- A field whose name comes after all others is written at the end. -/
theorem insertField_of_forall_lt {entries : List (String × α)} {name : String} (value : α)
    (h : ∀ e ∈ entries, e.1 < name) :
    insertField name value entries = entries ++ [(name, value)] := by
  induction entries with
  | nil => rfl
  | cons e rest ih =>
    have he : e.1 < name := h e List.mem_cons_self
    rw [insertField, if_neg (String.lt_asymm he), if_neg (Ne.symm (ne_of_lt he)),
      ih fun e' he' ↦ h e' (List.mem_cons_of_mem e he'), List.cons_append]

/-- The entry that comes last is written last. -/
theorem sortFields_concat (entries : List (String × α)) (name : String) (value : α) :
    sortFields (entries ++ [(name, value)]) = insertField name value (sortFields entries) := by
  simp [sortFields]

/-- Entries in increasing order stay as they are. -/
theorem sortFields_of_sorted {entries : List (String × α)} (h : FieldsSorted entries) :
    sortFields entries = entries := by
  induction entries using List.reverseRecOn with
  | nil => rfl
  | append_singleton entries e ih =>
    obtain ⟨hentries, -, hlast⟩ := List.pairwise_append.mp h
    rw [sortFields_concat entries e.1 e.2, ih hentries]
    exact insertField_of_forall_lt e.2 fun e' he' ↦ hlast e' he' e List.mem_cons_self

/-- The value that is written to a field last. -/
def lastWritten (writes : List (String × α)) (name : String) : Option α :=
  writes.reverse.lookup name

/-- A further write is the last one of its own field only. -/
theorem lastWritten_concat (writes : List (String × α)) (field name : String) (value : α) :
    lastWritten (writes ++ [(field, value)]) name =
      if name = field then some value else lastWritten writes name := by
  by_cases h : name = field
  · simp [lastWritten, h]
  · simp [lastWritten, List.lookup_cons, beq_false_of_ne h, h]

/-- Of entries written one after another, a field keeps the last value. -/
theorem lookup_sortFields (writes : List (String × α)) (name : String) :
    (sortFields writes).lookup name = lastWritten writes name := by
  induction writes using List.reverseRecOn with
  | nil => rfl
  | append_singleton writes e ih =>
    obtain ⟨n, v⟩ := e
    rw [sortFields_concat, lookup_insertField, ih, lastWritten_concat]

/-- A change of the values commutes with writing them. -/
theorem map_insertField (f : α → β) (name : String) (value : α) (entries : List (String × α)) :
    ((insertField name value entries).map fun e ↦ (e.1, f e.2)) =
      insertField name (f value) (entries.map fun e ↦ (e.1, f e.2)) := by
  induction entries with
  | nil => rfl
  | cons e rest ih =>
    obtain ⟨n, v⟩ := e
    simp only [insertField, List.map_cons]
    split
    · rfl
    · split
      · rfl
      · rw [List.map_cons, ih]

/-- What is found changes with the values. -/
theorem lookup_map (f : α → β) (entries : List (String × α)) (name : String) :
    (entries.map fun e ↦ (e.1, f e.2)).lookup name = (entries.lookup name).map f := by
  induction entries with
  | nil => rfl
  | cons e rest ih =>
    rw [List.map_cons, List.lookup_cons, List.lookup_cons, ih]
    cases name == e.1 <;> rfl

/-- Of entries with different names, an entry is one that is found. -/
theorem mem_iff_lookup {entries : List (String × α)} (h : FieldsSorted entries) {name : String}
    {value : α} : (name, value) ∈ entries ↔ entries.lookup name = some value := by
  induction entries with
  | nil => simp
  | cons e rest ih =>
    obtain ⟨n, v⟩ := e
    obtain ⟨hhead, hrest⟩ := List.pairwise_cons.mp h
    rw [List.mem_cons, Prod.mk.injEq, List.lookup_cons]
    by_cases hn : name = n
    · subst hn
      have hnot : (name, value) ∉ rest := fun hm ↦ String.lt_irrefl name (hhead _ hm)
      simp [hnot, eq_comm]
    · simp [beq_false_of_ne hn, hn, ih hrest]

/-- Entries in increasing order are determined by what is found in them. -/
theorem eq_of_lookup_eq {entries entries' : List (String × α)} (h : FieldsSorted entries)
    (h' : FieldsSorted entries') (hl : ∀ name, entries.lookup name = entries'.lookup name) :
    entries = entries' := by
  have hirrefl : Std.Irrefl fun e e' : String × α ↦ e.1 < e'.1 := ⟨fun e ↦ String.lt_irrefl e.1⟩
  have hantisymm : Std.Antisymm fun e e' : String × α ↦ e.1 < e'.1 :=
    ⟨fun e e' hlt hgt ↦ absurd hgt (String.lt_asymm hlt)⟩
  apply List.Pairwise.eq_of_mem_iff h h'
  rintro ⟨name, value⟩
  rw [mem_iff_lookup h, mem_iff_lookup h', hl name]

/-- Entries in increasing order compare equal when they have the same names, with equal values. -/
theorem beq_iff_lookup [BEq α] {entries entries' : List (String × α)} (h : FieldsSorted entries)
    (h' : FieldsSorted entries') :
    (entries == entries') = true ↔ entries.map Prod.fst = entries'.map Prod.fst ∧
      ∀ name a b, entries.lookup name = some a → entries'.lookup name = some b →
        (a == b) = true := by
  induction entries generalizing entries' with
  | nil => cases entries' <;> simp
  | cons e rest ih =>
    cases entries' with
    | nil => simp
    | cons e' rest' =>
      obtain ⟨n, v⟩ := e
      obtain ⟨n', v'⟩ := e'
      obtain ⟨hhead, hrest⟩ := List.pairwise_cons.mp h
      obtain ⟨-, hrest'⟩ := List.pairwise_cons.mp h'
      have hcons : ((n, v) :: rest == (n', v') :: rest') = true ↔
          (n = n' ∧ (v == v') = true) ∧ (rest == rest') = true := by
        change ((n == n' && v == v') && rest == rest') = true ↔ _
        simp only [Bool.and_eq_true, beq_iff_eq]
      rw [hcons, ih hrest hrest', List.map_cons, List.map_cons, List.cons.injEq]
      constructor
      · rintro ⟨⟨rfl, hv⟩, hnames, hvalues⟩
        refine ⟨⟨rfl, hnames⟩, fun name a b ha hb ↦ ?_⟩
        rw [List.lookup_cons] at ha hb
        by_cases hn : name = n
        · subst hn
          simp only [beq_self_eq_true, Option.some.injEq] at ha hb
          rwa [← ha, ← hb]
        · rw [beq_false_of_ne hn] at ha hb
          exact hvalues name a b ha hb
      · rintro ⟨⟨rfl, hnames⟩, hvalues⟩
        refine ⟨⟨rfl, hvalues n v v' (by simp) (by simp)⟩, hnames, fun name a b ha hb ↦ ?_⟩
        have hn : name ≠ n := by
          rintro rfl
          exact String.lt_irrefl name (hhead _ ((mem_iff_lookup hrest).mpr ha))
        apply hvalues name a b
        · rw [List.lookup_cons, beq_false_of_ne hn, ha]
        · rw [List.lookup_cons, beq_false_of_ne hn, hb]

end RoleResolution

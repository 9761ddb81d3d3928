import Mathlib.Data.List.Lex

/-!
# The first thing that a search finds

Things stand at places. A place is a list of numbers, and places are ordered as such lists are, at
the first difference. A search that goes through the elements of a list and searches each of them
in turn finds the thing at the first place when every part of it does.
-/

namespace RoleResolution

variable {ε α β : Type}

/-- A search through lists that are put together searches each of them in turn. -/
theorem findSome?_flatMap (xs : List α) (g : α → List β) (f : β → Option ε) :
    (xs.flatMap g).findSome? f = xs.findSome? fun x ↦ (g x).findSome? f := by
  induction xs with
  | nil => rfl
  | cons x rest ih =>
    rw [List.flatMap_cons, List.findSome?_append, ih, List.findSome?_cons]
    cases (g x).findSome? f <;> rfl

/-- A search through the taken places passes over the empty ones. -/
theorem findSome?_filterMap_id (places : List (Option α)) (f : α → Option ε) :
    (places.filterMap id).findSome? f = places.findSome? fun place ↦ place.bind f := by
  induction places with
  | nil => rfl
  | cons place rest ih =>
    cases place with
    | none => exact ih
    | some x =>
      have hx : (some x :: rest).filterMap id = x :: rest.filterMap id := rfl
      rw [hx, List.findSome?_cons, List.findSome?_cons, ih]
      rfl

/-- A thing stands at some place, and nothing stands at a place before. -/
def First (Stands : List Nat → ε → Prop) (e : ε) : Prop :=
  ∃ place, Stands place e ∧ ∀ earlier < place, ∀ other, ¬ Stands earlier other

/-- There is one first thing when no two things stand at one place. -/
theorem First.unique {Stands : List Nat → ε → Prop}
    (hu : ∀ place e e', Stands place e → Stands place e' → e = e') {e e' : ε}
    (h : First Stands e) (h' : First Stands e') : e = e' := by
  obtain ⟨place, hs, hleast⟩ := h
  obtain ⟨place', hs', hleast'⟩ := h'
  rcases lt_trichotomy place place' with hl | rfl | hl
  · exact absurd hs (hleast' place hl e)
  · exact hu place e e' hs hs'
  · exact absurd hs' (hleast place' hl e')

/-- What a search finds is the first of the things that stand at places; it finds nothing only when
there is none. -/
structure FindsFirst (Stands : List Nat → ε → Prop) (found : Option ε) : Prop where
  nowhere : found = none → ∀ place e, ¬ Stands place e
  first : ∀ e, found = some e → First Stands e

namespace FindsFirst

variable {Stands Stands' : List Nat → ε → Prop} {found : Option ε}

/-- It matters only which things stand where. -/
theorem congr (h : FindsFirst Stands found) (hs : ∀ place e, Stands' place e ↔ Stands place e) :
    FindsFirst Stands' found := by
  have he : Stands' = Stands := by
    funext place e
    exact propext (hs place e)
  rw [he]
  exact h

/-- Nothing is found where nothing stands. -/
theorem nothing (h : ∀ place e, ¬ Stands place e) : FindsFirst Stands none := by
  constructor
  · intro _
    exact h
  · intro e he
    cases he

/-- What is found may be described. -/
theorem map (h : FindsFirst Stands found) (g : ε → β) :
    FindsFirst (fun place other ↦ ∃ e, Stands place e ∧ other = g e) (found.map g) := by
  constructor
  · rintro hn place _ ⟨e, he, -⟩
    exact h.nowhere (Option.map_eq_none_iff.mp hn) place e he
  · intro other ho
    obtain ⟨e, he, rfl⟩ := Option.map_eq_some_iff.mp ho
    obtain ⟨place, hp, hleast⟩ := h.first e he
    refine ⟨place, ⟨e, hp, rfl⟩, ?_⟩
    rintro earlier hl _ ⟨e', he', -⟩
    exact hleast earlier hl e' he'

/-- A search through a list finds the first thing when the search of every element does, at least
of those that are reached. -/
theorem of_findSome? {xs : List α} {f : α → Option ε}
    (hplace : ∀ place e, Stands place e → ∃ i rest, place = i :: rest ∧ i < xs.length)
    (h : ∀ (i : Nat) (x : α), xs[i]? = some x →
      (∀ (j : Nat) (y : α), j < i → xs[j]? = some y → f y = none) →
      FindsFirst (fun rest e ↦ Stands (i :: rest) e) (f x)) :
    FindsFirst Stands (xs.findSome? f) := by
  -- an element without a finding has nothing at the places that start with its position
  have hempty : ∀ n, (∀ (j : Nat) (y : α), j < n → xs[j]? = some y → f y = none) →
      ∀ i < n, ∀ rest e, ¬ Stands (i :: rest) e := by
    intro n hn i hi rest e hs
    obtain ⟨i', rest', hp, hl⟩ := hplace _ _ hs
    cases hp
    have hx := List.getElem?_eq_getElem hl
    have hfirst := h i _ hx fun j y hj hy ↦ hn j y (Nat.lt_trans hj hi) hy
    exact hfirst.nowhere (hn i _ hi hx) rest e hs
  constructor
  · intro hn place e hs
    have hall : ∀ (j : Nat) (y : α), j < xs.length → xs[j]? = some y → f y = none := by
      intro j y _ hy
      exact List.findSome?_eq_none_iff.mp hn y (List.mem_of_getElem? hy)
    obtain ⟨i, rest, rfl, hi⟩ := hplace place e hs
    exact hempty xs.length hall i hi rest e hs
  · intro e he
    obtain ⟨before, x, after, rfl, hx, hbefore⟩ := List.findSome?_eq_some_iff.mp he
    have hprior : ∀ (j : Nat) (y : α), j < before.length →
        (before ++ x :: after)[j]? = some y → f y = none := by
      intro j y hj hy
      rw [List.getElem?_append_left hj] at hy
      exact hbefore y (List.mem_of_getElem? hy)
    have hfirst := h before.length x (by simp) hprior
    obtain ⟨rest, hs, hleast⟩ := hfirst.first e hx
    refine ⟨before.length :: rest, hs, ?_⟩
    intro earlier hl other ho
    obtain ⟨j, rest', rfl, hj⟩ := hplace earlier other ho
    rcases List.cons_lt_cons_iff.mp hl with hlt | ⟨rfl, hlt⟩
    · exact hempty before.length hprior j hlt rest' other ho
    · exact hleast rest' hlt other ho

/-- A search through a list finds the first of the things at the elements, by position, when the
search of every element does. -/
theorem elements {xs : List α} {f : α → Option ε} {At : α → List Nat → ε → Prop}
    (h : ∀ x ∈ xs, FindsFirst (At x) (f x)) :
    FindsFirst (fun place e ↦ ∃ (i : Nat) (x : α) (rest : List Nat),
      place = i :: rest ∧ xs[i]? = some x ∧ At x rest e) (xs.findSome? f) := by
  apply of_findSome?
  · rintro place e ⟨i, x, rest, rfl, hx, -⟩
    exact ⟨i, rest, rfl, (List.getElem?_eq_some_iff.mp hx).1⟩
  · intro i x hx _
    apply (h x (List.mem_of_getElem? hx)).congr
    intro rest e
    constructor
    · rintro ⟨_, y, _, hp, hy, he⟩
      cases hp
      cases hx.symm.trans hy
      exact he
    · intro he
      exact ⟨i, x, rest, rfl, hx, he⟩

/-- A search for an element with a property finds the first one. -/
theorem of_find? (xs : List α) (p : α → Bool) :
    FindsFirst (fun place x ↦ ∃ i : Nat, place = [i] ∧ xs[i]? = some x ∧ p x = true)
      (xs.find? p) := by
  constructor
  · rintro hn place x ⟨i, -, hx, hp⟩
    exact List.find?_eq_none.mp hn x (List.mem_of_getElem? hx) hp
  · intro x hx
    obtain ⟨hp, i, hi, rfl, hbefore⟩ := List.find?_eq_some_iff_getElem.mp hx
    refine ⟨[i], ⟨i, rfl, List.getElem?_eq_getElem hi, hp⟩, ?_⟩
    rintro earlier hl y ⟨j, rfl, hy, hq⟩
    have hj : j < i := by simpa [List.cons_lt_cons_iff] using hl
    have hn := hbefore j hj
    obtain ⟨hjl, rfl⟩ := List.getElem?_eq_some_iff.mp hy
    simp [hq] at hn

end FindsFirst
end RoleResolution

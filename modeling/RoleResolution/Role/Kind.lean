/-!
# Closed sets of role kinds

A kind set lists the kinds of roles that exist, gives each kind an index and a name, and says how
many kinds there are. An ordered set lists every kind exactly once, and the index of a kind is its
place in the list. A lawful set also has as many kinds as it says. Nothing below assumes any of
this: a kind may be missing from the list, may report any index, and the number may be any.
-/

namespace RoleResolution

/-- A closed set of role kinds. -/
structure KindSet (κ : Type) where
  /-- The kinds, in declaration order. -/
  all : List κ
  /-- The place of a kind in the list, as the kind itself reports it. -/
  index : κ → Nat
  /-- The name of a kind in messages. -/
  name : κ → String
  /-- The number of kinds, as the set gives it: that of the listed ones, unless said otherwise. -/
  count : Nat := all.length

namespace KindSet

variable {κ : Type} (K : KindSet κ)

/-- Every kind is listed exactly once, at its index. -/
structure Ordered : Prop where
  listed : ∀ k, K.all[K.index k]? = some k
  placed : ∀ i k, K.all[i]? = some k → K.index k = i

/-- Moreover the number of kinds is that of the listed ones. -/
structure Lawful : Prop extends K.Ordered where
  counted : K.count = K.all.length

/-- The names along a path, joined by arrows. -/
def pathText (path : List κ) : String := " -> ".intercalate (path.map K.name)

/-- The set of listed kinds, where a kind reports its first place in the list. -/
def ofList [DecidableEq κ] (kinds : List κ) (name : κ → String) : KindSet κ where
  all := kinds
  index kind := kinds.idxOf kind
  name := name

/-- A list without repetitions that leaves no kind out makes a lawful set. -/
theorem lawful_ofList [DecidableEq κ] {kinds : List κ} (name : κ → String)
    (hnodup : kinds.Nodup) (hall : ∀ k, k ∈ kinds) : (ofList kinds name).Lawful where
  listed k := by
    have h := List.idxOf_lt_length_of_mem (hall k)
    change kinds[kinds.idxOf k]? = some k
    rw [List.getElem?_eq_getElem h, List.getElem_idxOf h]
  placed i k hk := by
    obtain ⟨hi, rfl⟩ := List.getElem?_eq_some_iff.mp hk
    exact hnodup.idxOf_getElem i hi
  counted := rfl

end KindSet
end RoleResolution

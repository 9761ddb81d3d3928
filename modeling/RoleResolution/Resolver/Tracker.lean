import RoleResolution.Fault
import RoleResolution.Role.Kind

/-!
# Cycle trackers

A tracker records the kinds whose conversions a resolution has entered, in order. A kind stays
recorded for good: entering it again is a cycle, on whatever branch of the search. A chain that
outgrows the number of listed kinds is a fault, and the kind is recorded all the same.
-/

namespace RoleResolution

/-- The kinds entered so far, in order. -/
structure CycleTracker (κ : Type) where
  visited : List κ := []
  deriving DecidableEq, Repr

/-- A kind was entered twice: the kinds entered so far, ending with the repeated one. -/
structure CycleError (κ : Type) where
  kind : κ
  chain : List κ
  deriving DecidableEq, Repr

namespace CycleError

variable {κ : Type} (K : KindSet κ) (e : CycleError κ)

/-- The name of the kind entered twice. -/
def kindName : String := K.name e.kind

/-- The names of the kinds entered so far, ending with that of the repeated one. -/
def chainNames : List String := e.chain.map K.name

/-- The wording of the error by itself. -/
def description : String :=
  "Role kind " ++ e.kindName K ++ " revisited along conversion chain " ++
    " -> ".intercalate (e.chainNames K)

/-- The wording of the error among other errors. -/
def message : String := "Cycle error: " ++ e.description K

end CycleError

namespace CycleTracker

variable {κ : Type}

/-- Whether a kind was entered. -/
def isVisited [DecidableEq κ] (t : CycleTracker κ) (kind : κ) : Bool := kind ∈ t.visited

/-- The number of kinds entered. -/
def depth (t : CycleTracker κ) : Nat := t.visited.length

/-- Enter a kind: whether that went well, and the tracker afterwards. -/
def enter [DecidableEq κ] (K : KindSet κ) (t : CycleTracker κ) (kind : κ) :
    Except (Failure (CycleError κ)) Unit × CycleTracker κ :=
  if t.isVisited kind then (.error (.error ⟨kind, t.visited ++ [kind]⟩), t)
  else
    let t : CycleTracker κ := ⟨t.visited ++ [kind]⟩
    if t.depth ≤ K.count then (.ok (), t) else (.error (.fault .chainOverrun), t)

end CycleTracker
end RoleResolution

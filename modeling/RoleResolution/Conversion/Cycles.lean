import RoleResolution.Conversion.Graph

/-!
# Cycles of conversions

A depth-first search from every kind in turn. A kind that is met again while it is still on the
path closes a cycle, which is reported as the part of the path from that kind on, with the kind
once more at its end. Kinds that are fully explored are not entered again, so every closing
edge is reported once.
-/

namespace RoleResolution.ConversionGraph

/-- How far the search has come with a kind. -/
inductive Progress where
  | unvisited
  /-- On the path of the search. -/
  | visiting
  | explored
  deriving DecidableEq, Repr

/-- The state of the search: the progress of every index, and the cycles found so far. -/
structure Search (κ : Type) where
  progress : List Progress
  cycles : List (List κ)
  deriving DecidableEq, Repr

variable {κ : Type} [DecidableEq κ]

/-- The cycle that a kind on the path closes, if it is on the path. -/
def closedCycle (path : List κ) (kind : κ) : List (List κ) :=
  if kind ∈ path then [path.dropWhile (· ≠ kind) ++ [kind]] else []

/-- Record the progress of an index. -/
def Search.mark (s : Search κ) (index : Nat) (p : Progress) : Search κ :=
  { s with progress := s.progress.set index p }

variable (K : KindSet κ) (g : ConversionGraph κ)

/-- Search from a kind that is reached along `path`, entering at most `budget` kinds on the
way. Every kind entered is a new one, so the number of sources is budget enough. -/
def visit : Nat → List κ → κ → Search κ → Except Fault (Search κ)
  | budget, path, kind, s =>
    match s.progress[K.index kind]?, budget with
    | none, _ => .error .indexOutOfRange
    | some .visiting, _ => .ok { s with cycles := s.cycles ++ closedCycle path kind }
    | some .explored, _ => .ok s
    | some .unvisited, 0 => .ok s
    | some .unvisited, budget + 1 => do
      let targets ← g.targets K kind
      let s ← targets.foldlM (fun s target ↦ visit budget (path ++ [kind]) target s)
        (s.mark (K.index kind) .visiting)
      return s.mark (K.index kind) .explored

/-- The cycles of a conversion graph, in the order in which the search closes them. -/
def detectCycles : Except Fault (List (List κ)) := do
  let start : Search κ := ⟨List.replicate g.edges.length .unvisited, []⟩
  let s ← K.all.foldlM (fun s kind ↦ g.visit K g.edges.length [] kind s) start
  return s.cycles

end RoleResolution.ConversionGraph

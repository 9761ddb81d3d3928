import RoleResolution.Definition
import RoleResolution.Fault

/-!
# Conversion graphs

Every conversion rule is an edge from the kind that has it to the kind it converts into. The
graph keeps one edge per pair of kinds, under the index of the source and in the order of
declaration. Reachability goes along one or more edges, breadth first, so that kinds come in
order of their distance.
-/

namespace RoleResolution

/-- The conversion edges between kinds, by index of the source. -/
structure ConversionGraph (κ : Type) where
  edges : List (List κ)
  deriving DecidableEq, Repr

namespace ConversionGraph

variable {κ : Type}

/-- The graph of definitions that are listed by index. -/
def ofDefinitions [DecidableEq κ] (definitions : List (RoleDefinition κ)) : ConversionGraph κ :=
  ⟨definitions.map fun d ↦ (d.conversions.map (·.targetKind)).eraseDups⟩

variable (K : KindSet κ) (g : ConversionGraph κ)

/-- The kinds that a kind converts into directly. -/
def targets (kind : κ) : Except Fault (List κ) :=
  match g.edges[K.index kind]? with
  | some targets => .ok targets
  | none => .error .indexOutOfRange

/-- The number of edges. -/
def edgeCount : Nat := g.edges.flatten.length

/-- Add the targets not met before, by index, both to the kinds reached and to the queue of
kinds whose own targets are still to be followed. -/
def meet : List κ → List κ → List κ → Except Fault (List κ × List κ)
  | [], queue, reached => .ok (queue, reached)
  | target :: rest, queue, reached =>
    if K.index target < g.edges.length then
      if reached.any fun k ↦ K.index k == K.index target then meet rest queue reached
      else meet rest (queue ++ [target]) (reached ++ [target])
    else .error .indexOutOfRange

/-- Follow the queue for at most `rounds` kinds. -/
def follow : Nat → List κ → List κ → Except Fault (List κ)
  | _, [], reached => .ok reached
  | 0, _ :: _, reached => .ok reached
  | rounds + 1, kind :: queue, reached => do
    let targets ← g.targets K kind
    let (queue, reached) ← g.meet K targets queue reached
    follow rounds queue reached

/-- Every kind that a kind reaches by one or more conversions, nearest first. A kind is queued
when it is first reached, so the rounds exceed the number of sources by at most one. -/
def reachable (source : κ) : Except Fault (List κ) :=
  g.follow K (g.edges.length + 1) [source] []

/-- Whether a kind reaches another by one or more conversions. -/
def canReach [DecidableEq κ] (source target : κ) : Except Fault Bool := do
  let reached ← g.reachable K source
  return decide (target ∈ reached)

end ConversionGraph
end RoleResolution

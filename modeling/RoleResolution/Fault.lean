/-!
# Errors and faults

An error is an answer that a caller must expect. A fault is the breach of a precondition: it
ends a run where an answer would make no sense. For lawful kind sets no fault ever arises.
-/

namespace RoleResolution

/-- The breach of a precondition. -/
inductive Fault where
  /-- A kind reports an index beyond the kinds that have a definition. -/
  | indexOutOfRange
  /-- A conversion chain is longer than the number of kinds. -/
  | chainOverrun
  deriving DecidableEq, Repr

/-- Why a run gives no result. -/
inductive Failure (ε : Type) where
  | error (cause : ε)
  | fault (cause : Fault)
  deriving DecidableEq, Repr

end RoleResolution

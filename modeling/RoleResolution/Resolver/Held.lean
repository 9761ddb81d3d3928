import RoleResolution.Resolver.Basic

/-!
# Checks over held roles

A caller that holds several roles satisfies a required role when one of them does. The held
roles are checked in order, each with a fresh tracker, and the first that satisfies ends the
check. A cycle error of one role either ends the check or only rules that role out, as the
policy says.
-/

namespace RoleResolution.Resolver

variable {κ : Type} [DecidableEq κ] {K : KindSet κ}

/-- Whether one of the held roles satisfies the required one; each comes with its position.
The tracker of the session is the one of the role checked last. -/
def anySatisfiesIn (r : Resolver K) (required : Role κ) :
    List (Role κ × Nat) → Session κ → Outcome κ Bool
  | [], s => (.ok false, s)
  | (candidate, position) :: rest, s =>
    match r.satisfiesIn required candidate (s.track {}) with
    | (.ok true, s) =>
      (.ok true, s.report (.heldRoleSatisfies required candidate position))
    | (.ok false, s) => r.anySatisfiesIn required rest s
    | (.error (.error e), s) =>
      match r.config.cyclePolicy with
      | .skipCandidate =>
        r.anySatisfiesIn required rest
          (s.report (.heldRoleSkipped required candidate position (e.description K)))
      | .abortAll => (.error (.error e), s)
    | (.error (.fault fault), s) => (.error (.fault fault), s)

/-- Whether one of the held roles satisfies the required one. -/
def anySatisfies (r : Resolver K) (held : List (Role κ)) (required : Role κ) :
    Outcome κ Bool :=
  r.anySatisfiesIn required held.zipIdx {}

end RoleResolution.Resolver

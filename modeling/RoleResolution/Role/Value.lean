import RoleResolution.Payload.Text
import RoleResolution.Role.Kind

/-!
# Role values

A role is a kind together with its payload. Two roles are identical when their kinds are the
same and their payloads are equal.
-/

namespace RoleResolution

/-- A role: a kind with its attributes. -/
structure Role (κ : Type) where
  kind : κ
  payload : Payload

namespace Role

variable {κ : Type}

/-- The role of a kind without attributes. -/
def unit (kind : κ) : Role κ := ⟨kind, .unit⟩

/-- Whether the role is of a kind. -/
def isKind [DecidableEq κ] (r : Role κ) (kind : κ) : Bool := r.kind = kind

instance [DecidableEq κ] : BEq (Role κ) :=
  ⟨fun r s ↦ decide (r.kind = s.kind) && r.payload == s.payload⟩

/-- The name of the kind followed by the payload. -/
def display (K : KindSet κ) (r : Role κ) : String := K.name r.kind ++ r.payload.display

end Role
end RoleResolution

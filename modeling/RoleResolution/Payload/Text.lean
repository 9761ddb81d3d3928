import RoleResolution.Json.Printer
import RoleResolution.Json.Reader
import RoleResolution.Payload.Basic

/-!
# Payloads as text

Two texts. The display form lists `name=value` pairs in parentheses, names as they are and
values as compact JSON. The wire form is the JSON object of the fields, and reading it back
takes any JSON text of an object.
-/

namespace RoleResolution.Payload

/-- The display form, as in `(name="core", team_id=7)`. -/
def display (p : Payload) : String :=
  let pairs := p.fields.entries.map fun e ↦ e.1 ++ "=" ++ e.2.value.text
  "(" ++ ", ".intercalate pairs ++ ")"

/-- The wire form: a compact JSON object. -/
def text (p : Payload) : String := p.toJson.text

/-- Read a payload from its wire form. -/
def parse? (text : String) : Option Payload :=
  match h : Json.parse? text with
  | some v => ofAttribute? ⟨v, Json.canonical_of_parse? h⟩
  | none => none

end RoleResolution.Payload

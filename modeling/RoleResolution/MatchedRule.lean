import RoleResolution.Json.Printer
import RoleResolution.Json.Reader

/-!
# The rule that granted a role

A check is granted by identity, by an unconditional pass, by an attribute rule or by a
delegated predicate; the last two are named by their position among the rules of the required
kind. On the wire a rule is a JSON object with its form under `type` and its position under
`index`. A reader takes these two members in any order and among any others; it also takes
the array of the form's name and its members' values. The form may be given once only, and so
may the position where the form has one.
-/

namespace RoleResolution

/-- The rule that granted a role. -/
inductive MatchedRule where
  /-- The two roles are identical. -/
  | identity
  /-- The required kind lets every role of the provided kind pass. -/
  | unconditionalPass
  /-- The attribute rule at a position. -/
  | attributeRule (index : Nat)
  /-- The delegated predicate at a position. -/
  | delegatedPredicate (index : Nat)
  deriving DecidableEq, Repr

namespace MatchedRule

/-- The decimal text of a position. -/
def indexText (index : Nat) : String := String.ofList (Digit.decimal index)

/-- The wording in messages. -/
def display : MatchedRule → String
  | .identity => "identity"
  | .unconditionalPass => "unconditional pass"
  | .attributeRule index => "attribute rule #" ++ indexText index
  | .delegatedPredicate index => "delegated predicate #" ++ indexText index

/-- The diagnostic text. -/
def diagnostic : MatchedRule → String
  | .identity => "Identity"
  | .unconditionalPass => "UnconditionalPass"
  | .attributeRule index => "AttributeRule \x7b index: " ++ indexText index ++ " \x7d"
  | .delegatedPredicate index =>
    "DelegatedPredicate \x7b index: " ++ indexText index ++ " \x7d"

/-- The form of a rule. -/
inductive Form where
  | identity
  | unconditionalPass
  | attributeRule
  | delegatedPredicate
  deriving DecidableEq, Repr

namespace Form

/-- The name of a form on the wire. -/
def name : Form → String
  | .identity => "identity"
  | .unconditionalPass => "unconditional_pass"
  | .attributeRule => "attribute_rule"
  | .delegatedPredicate => "delegated_predicate"

/-- The form of a name. -/
def ofName? (name : String) : Option Form :=
  [identity, unconditionalPass, attributeRule, delegatedPredicate].find? (·.name == name)

/-- The rule of a form, which asks for a position where it has one. -/
def rule? (form : Form) (index? : Option Nat) : Option MatchedRule :=
  match form with
  | .identity => some .identity
  | .unconditionalPass => some .unconditionalPass
  | .attributeRule => index?.map .attributeRule
  | .delegatedPredicate => index?.map .delegatedPredicate

end Form

/-- The wire form as a JSON object, the form's name first. -/
def toJson : MatchedRule → Json
  | .identity => .object [("type", .string Form.identity.name)]
  | .unconditionalPass => .object [("type", .string Form.unconditionalPass.name)]
  | .attributeRule index =>
    .object [("type", .string Form.attributeRule.name), ("index", .ofNat index)]
  | .delegatedPredicate index =>
    .object [("type", .string Form.delegatedPredicate.name), ("index", .ofNat index)]

/-- The wire form as text. -/
def text (r : MatchedRule) : String := r.toJson.text

/-- The position that a JSON value gives: an integer that is not negative. -/
def indexOfJson? : Json → Option Nat
  | .number (.integer (.ofNat n)) => some n
  | _ => none

/-- The form that a JSON value names. -/
def formOfJson? : Json → Option Form
  | .string name => Form.ofName? name
  | _ => none

/-- The values written under a name. -/
def valuesUnder (name : String) (members : List (String × Json)) : List Json :=
  (members.filter fun m ↦ m.1 == name).map Prod.snd

/-- The rule of an object's members: exactly one form, and for a form that has a position
exactly one position. Other members do not count. -/
def ofMembers? (members : List (String × Json)) : Option MatchedRule :=
  match valuesUnder "type" members with
  | [v] => do
    let form ← formOfJson? v
    match form with
    | .identity | .unconditionalPass => form.rule? none
    | .attributeRule | .delegatedPredicate =>
      match valuesUnder "index" members with
      | [i] => form.rule? (← indexOfJson? i)
      | _ => none
  | _ => none

/-- The rule of an array: the form's name, then its position where it has one. -/
def ofItems? : List Json → Option MatchedRule
  | [v] => do
    let form ← formOfJson? v
    form.rule? none
  | [v, i] => do
    let form ← formOfJson? v
    match form with
    | .identity | .unconditionalPass => none
    | .attributeRule | .delegatedPredicate => form.rule? (← indexOfJson? i)
  | _ => none

/-- The rule that a document denotes. -/
def ofDocument? : Json.Document → Option MatchedRule
  | .object members => do
    let members ← Json.Document.valueOfMembers? members
    ofMembers? members
  | .array items => do
    let items ← Json.Document.valueOfItems? items
    ofItems? items
  | _ => none

/-- Read a rule from its wire form. -/
def parse? (text : String) : Option MatchedRule := do
  let d ← Json.Document.parse? text
  if d.depth ≤ Json.depthLimit then ofDocument? d else none

end MatchedRule
end RoleResolution

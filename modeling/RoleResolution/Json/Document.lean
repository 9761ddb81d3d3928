/-!
# JSON texts as written

A `Document` is the grammatical content of a JSON text before any of it is interpreted:
members keep their written order and repetitions, numerals and escapes keep their spelling.
Which numerals have a value, which escapes denote characters and how deep a text may nest are
questions for a reader of documents, and a reader may pass over the parts that it does not use.
-/

namespace RoleResolution.Json

/-- A numeral as written, its digits given by value. -/
structure Numeral where
  /-- Whether a minus sign comes first. -/
  negative : Bool
  /-- The digits before the point: at least one, and no needless leading zero. -/
  whole : List Nat
  /-- The digits after the point, if there is a point. -/
  fraction : Option (List Nat)
  /-- Whether the exponent has a minus sign, and its digits, if there is one. -/
  exponent : Option (Bool × List Nat)
  deriving DecidableEq, Repr

/-- One piece of a string as written. -/
inductive Piece where
  /-- A character, written as itself or by a two-character escape. -/
  | char (c : Char)
  /-- A 16-bit unit, written by a hexadecimal escape. -/
  | unit (code : Nat)
  deriving DecidableEq, Repr

/-- The grammatical content of a JSON text. -/
inductive Document where
  | null
  | bool (value : Bool)
  | number (numeral : Numeral)
  | string (pieces : List Piece)
  | array (items : List Document)
  | object (members : List (List Piece × Document))
  deriving Repr

namespace Document

mutual

/-- The greatest number of arrays and objects around any place in the text. -/
def depth : Document → Nat
  | .null | .bool _ | .number _ | .string _ => 0
  | .array items => depthOfItems items + 1
  | .object members => depthOfMembers members + 1

/-- The greatest depth among array items. -/
def depthOfItems : List Document → Nat
  | [] => 0
  | item :: rest => max item.depth (depthOfItems rest)

/-- The greatest depth among object members. -/
def depthOfMembers : List (List Piece × Document) → Nat
  | [] => 0
  | (_, item) :: rest => max item.depth (depthOfMembers rest)

end

end Document
end RoleResolution.Json

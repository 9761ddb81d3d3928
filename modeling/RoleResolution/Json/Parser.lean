import RoleResolution.Json.Token

/-!
# From tokens to documents

The parser is a machine over tokens with a stack of the arrays and objects that are still
open, the innermost first. Its state also says what may come next. A finished value is put
into the innermost open container, or ends the text when none is open.
-/

namespace RoleResolution.Json

/-- An array or object that is still open; contents are held last one first. -/
inductive OpenNode where
  | array (items : List Document)
  /-- An object whose last member so far still lacks its value. -/
  | object (members : List (List Piece × Document)) (key : List Piece)
  deriving Repr

/-- What the parser waits for. -/
inductive ParseState where
  /-- A value. -/
  | value (stack : List OpenNode)
  /-- The first item of an array, or its end. -/
  | firstItem (stack : List OpenNode)
  /-- A member key; the object ends here only while it is empty. -/
  | nextKey (stack : List OpenNode) (members : List (List Piece × Document))
  /-- The colon after a key. -/
  | colon (stack : List OpenNode) (members : List (List Piece × Document)) (key : List Piece)
  /-- A comma or the end, after an array item. -/
  | afterItem (stack : List OpenNode) (items : List Document)
  /-- A comma or the end, after an object member. -/
  | afterMember (stack : List OpenNode) (members : List (List Piece × Document))
  /-- Nothing: the text is complete. -/
  | done (document : Document)
  deriving Repr

namespace ParseState

/-- Put a finished value into the innermost open container. -/
def place (stack : List OpenNode) (d : Document) : ParseState :=
  match stack with
  | [] => .done d
  | .array items :: outer => .afterItem outer (d :: items)
  | .object members key :: outer => .afterMember outer ((key, d) :: members)

/-- Read the first token of a value. -/
def valueStep (stack : List OpenNode) : Token → Option ParseState
  | .null => some (place stack .null)
  | .bool b => some (place stack (.bool b))
  | .number n => some (place stack (.number n))
  | .string pieces => some (place stack (.string pieces))
  | .openBracket => some (.firstItem stack)
  | .openBrace => some (.nextKey stack [])
  | .closeBracket | .closeBrace | .colon | .comma => none

/-- Read one token. -/
def step (s : ParseState) (t : Token) : Option ParseState :=
  match s with
  | .value stack => valueStep stack t
  | .firstItem stack =>
    if t = .closeBracket then some (place stack (.array []))
    else valueStep (.array [] :: stack) t
  | .nextKey stack members =>
    match t with
    | .string pieces => some (.colon stack members pieces)
    | .closeBrace => if members.isEmpty then some (place stack (.object [])) else none
    | _ => none
  | .colon stack members key =>
    if t = .colon then some (.value (.object members key :: stack)) else none
  | .afterItem stack items =>
    match t with
    | .comma => some (.value (.array items :: stack))
    | .closeBracket => some (place stack (.array items.reverse))
    | _ => none
  | .afterMember stack members =>
    match t with
    | .comma => some (.nextKey stack members)
    | .closeBrace => some (place stack (.object members.reverse))
    | _ => none
  | .done _ => none

/-- The document of a finished run. -/
def result? : ParseState → Option Document
  | .done d => some d
  | _ => none

end ParseState

namespace Document

/-- The document of a sequence of tokens. -/
def ofTokens? (tokens : List Token) : Option Document := do
  let s ← tokens.foldlM ParseState.step (.value [])
  s.result?

/-- Read a JSON text: one value with nothing but white space around it. -/
def parse? (text : String) : Option Document := do
  let tokens ← tokens? text.toList
  ofTokens? tokens

end Document
end RoleResolution.Json

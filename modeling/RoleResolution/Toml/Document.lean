import RoleResolution.Toml.Scalar
import RoleResolution.Toml.Table
import RoleResolution.Toml.Text

/-!
# TOML documents

A document is a sequence of lines: pairs of a key and a value, headers of tables and of arrays
of tables, comments and empty lines. Pairs belong to the table of the last header. Arrays and
tables between braces nest at most 79 deep, and a key has at most 79 parts.
-/

namespace RoleResolution.Toml

/-- The number of brackets and braces that may be open at one place. -/
def nestingLimit : Nat := 79

/-- The number of parts that a dotted key may have. -/
def keyPartLimit : Nat := 79

/-- A character of a key without quotes. -/
def isBareKeyChar (c : Char) : Bool := c.isAlphanum || c == '-' || c == '_'

/-- Read one part of a key. -/
def keyPart? (input : List Char) : Option (String × List Char) :=
  let bare := input.takeWhile isBareKeyChar
  if bare.isEmpty then lineString? input
  else some (String.ofList bare, input.dropWhile isBareKeyChar)

/-- Read a dotted key of at most `limit` parts, with blanks around every part. -/
def keyParts? : Nat → List Char → Option (List String × List Char)
  | 0, _ => none
  | limit + 1, input => do
    let (part, rest) ← keyPart? (skipBlanks input)
    match skipBlanks rest with
    | '.' :: rest => do
      let (parts, rest) ← keyParts? limit rest
      some (part :: parts, rest)
    | rest => some ([part], rest)

/-- Read a key. -/
def keyPath? (input : List Char) : Option (KeyPath × List Char) := do
  let (parts, rest) ← keyParts? keyPartLimit input
  match parts.getLast? with
  | some key => some (⟨parts.dropLast, key⟩, rest)
  | none => none

/-- Read at most `limit` items of an array up to its end, each by `item?`. -/
def arrayItems? (item? : List Char → Option (Value × List Char)) :
    Nat → List Char → Option (List Value × List Char)
  | 0, _ => none
  | limit + 1, input => do
    match ← skipGaps false input with
    | ']' :: rest => some ([], rest)
    | start => do
      let (v, rest) ← item? start
      match ← skipGaps false rest with
      | ']' :: rest => some ([v], rest)
      | ',' :: rest => do
        let (vs, rest) ← arrayItems? item? limit rest
        some (v :: vs, rest)
      | _ => none

/-- Read a pair of a key and a value, the value by `item?`. -/
def pair? (item? : List Char → Option (Value × List Char)) (input : List Char) :
    Option ((KeyPath × Value) × List Char) := do
  let (path, rest) ← keyPath? input
  match rest with
  | '=' :: rest => do
    let (v, rest) ← item? (skipBlanks rest)
    some ((path, v), rest)
  | _ => none

/-- Read at most `limit` pairs of a table between braces up to its end; there is at least one
pair. -/
def inlinePairs? (item? : List Char → Option (Value × List Char)) :
    Nat → List Char → Option (List (KeyPath × Value) × List Char)
  | 0, _ => none
  | limit + 1, input => do
    let (p, rest) ← pair? item? input
    match skipBlanks rest with
    | '}' :: rest => some ([p], rest)
    | ',' :: rest => do
      let (ps, rest) ← inlinePairs? item? limit rest
      some (p :: ps, rest)
    | _ => none

/-- Read a word; a date may go on with a blank and a time. -/
def word? (input : List Char) : Option (Value × List Char) :=
  let word := input.takeWhile isWordChar
  match input.dropWhile isWordChar with
  | ' ' :: rest =>
    let next := rest.takeWhile isWordChar
    if isDate word && !next.isEmpty then
      if isTimeAndOffset next then some (.dateTime, rest.dropWhile isWordChar) else none
    else (scalar? word).map (·, ' ' :: rest)
  | rest => (scalar? word).map (·, rest)

/-- Read a value inside which at most `budget` brackets and braces may open. No container has
more items than there are characters left. -/
def value? : Nat → List Char → Option (Value × List Char)
  | budget, '[' :: rest =>
    match budget with
    | 0 => none
    | budget + 1 => do
      let (vs, rest) ← arrayItems? (value? budget) (rest.length + 1) rest
      some (.array vs, rest)
  | budget, '{' :: rest =>
    match budget with
    | 0 => none
    | budget + 1 =>
      match skipBlanks rest with
      | '}' :: rest => some (.table .inline [], rest)
      | start => do
        let (pairs, rest) ← inlinePairs? (value? budget) start.length start
        let v ← inlineTable? pairs
        some (v, rest)
  | _, '"' :: rest => (string? ('"' :: rest)).map fun (s, rest) ↦ (.string s, rest)
  | _, '\'' :: rest => (string? ('\'' :: rest)).map fun (s, rest) ↦ (.string s, rest)
  | _, input => word? input

/-- The content of a line. -/
inductive Line where
  | empty
  | pair (path : KeyPath) (value : Value)
  | header (path : KeyPath)
  | arrayHeader (path : KeyPath)
  deriving Repr

/-- Read one line with its end. -/
def line? (input : List Char) : Option (Line × List Char) :=
  match skipBlanks input with
  | [] => some (.empty, [])
  | '\n' :: rest | '\r' :: '\n' :: rest => some (.empty, rest)
  | '#' :: rest => (skipComment rest).map (.empty, ·)
  | '[' :: '[' :: rest => do
    let (path, rest) ← keyPath? rest
    match rest with
    | ']' :: ']' :: rest => (skipLineEnd rest).map (.arrayHeader path, ·)
    | _ => none
  | '[' :: rest => do
    let (path, rest) ← keyPath? rest
    match rest with
    | ']' :: rest => (skipLineEnd rest).map (.header path, ·)
    | _ => none
  | start => do
    let ((path, v), rest) ← pair? (value? nestingLimit) start
    (skipLineEnd rest).map (.pair path v, ·)

/-- Read at most `limit` lines up to the end of the text. -/
def lines? : Nat → List Char → Option (List Line)
  | _, [] => some []
  | 0, _ :: _ => none
  | limit + 1, input => do
    let (line, rest) ← line? input
    let lines ← lines? limit rest
    some (line :: lines)

/-- Where the next pair goes, and what the document holds so far. -/
structure Assembly where
  /-- The path of the last header, if there was one. -/
  current : List String
  entries : Entries

/-- Take in one line. -/
def Assembly.add (a : Assembly) : Line → Option Assembly
  | .empty => some a
  | .pair path v =>
    (updateUnderHeader (insertAt path v) a.current a.entries).map (⟨a.current, ·⟩)
  | .header path => (openTable path a.entries).map (⟨path.parents ++ [path.key], ·⟩)
  | .arrayHeader path => (openArrayTable path a.entries).map (⟨path.parents ++ [path.key], ·⟩)

/-- Read a document: the entries of its topmost table. A byte order mark may come first. There
are no more lines than characters. -/
def parse? (text : String) : Option Entries := do
  let input := match text.toList with
    | '\ufeff' :: rest => rest
    | input => input
  let lines ← lines? input.length input
  let a ← lines.foldlM Assembly.add ⟨[], []⟩
  some a.entries

end RoleResolution.Toml

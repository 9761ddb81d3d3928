import RoleResolution.Digit

/-!
# TOML strings, blanks and comments

Basic strings stand in quotation marks and have escapes, literal strings stand in apostrophes
and have none. Three marks open a string of several lines, whose first line break does not
count and which may end in one or two marks of its own before the three that close it. A
backslash at the end of a line skips all white space up to the next character. Apart from
tabs, control characters stand nowhere.
-/

namespace RoleResolution.Toml

/-- A character that may stand in strings and comments: a tab, or no control character. -/
def isPlain (c : Char) : Bool := c == '\t' || (' ' ≤ c && c != '\x7f')

/-- White space within a line. -/
def isBlank (c : Char) : Bool := c == ' ' || c == '\t'

/-- Skip white space within a line. -/
def skipBlanks (input : List Char) : List Char := input.dropWhile isBlank

/-- Skip a line break, if one comes first. -/
def skipLineBreak : List Char → List Char
  | '\n' :: rest => rest
  | '\r' :: '\n' :: rest => rest
  | input => input

/-- The character of a code point written in hexadecimal; surrogates are none. -/
def hexChar? (digits : List Char) : Option Char := do
  let values ← digits.mapM Digit.hexValue?
  let code := Digit.toNat 16 values
  if h : code.isValidChar then some (Char.ofNatAux code h) else none

/-- The character of a two-character escape. -/
def escapedChar? (c : Char) : Option Char :=
  if c = '"' then some '"'
  else if c = '\\' then some '\\'
  else if c = 'b' then some '\x08'
  else if c = 'f' then some '\x0c'
  else if c = 'n' then some '\n'
  else if c = 'r' then some '\r'
  else if c = 't' then some '\t'
  else none

/-- What a reader of a basic string is doing. -/
inductive BasicMode where
  | text
  /-- After a backslash that ends a line, before the line break. -/
  | lineEnd
  /-- After that line break, before the next character. -/
  | skipping
  deriving DecidableEq, Repr

/-- Whether white space or a line break comes next. -/
def startsGap : List Char → Bool
  | c :: _ => isBlank c || c == '\n' || c == '\r'
  | [] => false

/-- The rest of a basic string after its opening mark or marks: the characters read so far come
last one first. -/
def basicBody (multiline : Bool) :
    BasicMode → List Char → List Char → Option (String × List Char)
  | _, _, [] => none
  | .lineEnd, read, ' ' :: rest | .lineEnd, read, '\t' :: rest =>
    basicBody multiline .lineEnd read rest
  | .lineEnd, read, '\n' :: rest | .lineEnd, read, '\r' :: '\n' :: rest =>
    basicBody multiline .skipping read rest
  | .lineEnd, _, _ => none
  | .skipping, read, ' ' :: rest | .skipping, read, '\t' :: rest
  | .skipping, read, '\n' :: rest | .skipping, read, '\r' :: '\n' :: rest =>
    basicBody multiline .skipping read rest
  | _, read, '\\' :: rest =>
    if multiline && startsGap rest then basicBody multiline .lineEnd read rest
    else match rest with
      | 'u' :: a :: b :: c :: d :: rest =>
        match hexChar? [a, b, c, d] with
        | some x => basicBody multiline .text (x :: read) rest
        | none => none
      | 'U' :: a :: b :: c :: d :: e :: f :: g :: h :: rest =>
        match hexChar? [a, b, c, d, e, f, g, h] with
        | some x => basicBody multiline .text (x :: read) rest
        | none => none
      | c :: rest =>
        match escapedChar? c with
        | some x => basicBody multiline .text (x :: read) rest
        | none => none
      | [] => none
  | _, read, '"' :: rest =>
    if multiline then
      match rest with
      | '"' :: '"' :: '"' :: '"' :: rest =>
        some (String.ofList ('"' :: '"' :: read).reverse, rest)
      | '"' :: '"' :: '"' :: rest => some (String.ofList ('"' :: read).reverse, rest)
      | '"' :: '"' :: rest => some (String.ofList read.reverse, rest)
      | rest => basicBody multiline .text ('"' :: read) rest
    else some (String.ofList read.reverse, rest)
  | _, read, '\n' :: rest | _, read, '\r' :: '\n' :: rest =>
    if multiline then basicBody multiline .text ('\n' :: read) rest else none
  | _, read, c :: rest => if isPlain c then basicBody multiline .text (c :: read) rest else none

/-- The rest of a literal string after its opening mark or marks. -/
def literalBody (multiline : Bool) : List Char → List Char → Option (String × List Char)
  | _, [] => none
  | read, '\'' :: rest =>
    if multiline then
      match rest with
      | '\'' :: '\'' :: '\'' :: '\'' :: rest =>
        some (String.ofList ('\'' :: '\'' :: read).reverse, rest)
      | '\'' :: '\'' :: '\'' :: rest => some (String.ofList ('\'' :: read).reverse, rest)
      | '\'' :: '\'' :: rest => some (String.ofList read.reverse, rest)
      | rest => literalBody multiline ('\'' :: read) rest
    else some (String.ofList read.reverse, rest)
  | read, '\n' :: rest | read, '\r' :: '\n' :: rest =>
    if multiline then literalBody multiline ('\n' :: read) rest else none
  | read, c :: rest => if isPlain c then literalBody multiline (c :: read) rest else none

/-- Read a string on one line, as keys and values may be written. -/
def lineString? : List Char → Option (String × List Char)
  | '"' :: rest => basicBody false .text [] rest
  | '\'' :: rest => literalBody false [] rest
  | _ => none

/-- Read a string of one line or of several. -/
def string? : List Char → Option (String × List Char)
  | '"' :: '"' :: '"' :: rest => basicBody true .text [] (skipLineBreak rest)
  | '\'' :: '\'' :: '\'' :: rest => literalBody true [] (skipLineBreak rest)
  | input => lineString? input

/-- Skip a comment and the end of its line, which may be the end of the document. -/
def skipComment : List Char → Option (List Char)
  | [] => some []
  | '\n' :: rest | '\r' :: '\n' :: rest => some rest
  | c :: rest => if isPlain c then skipComment rest else none

/-- Skip what may stand behind the content of a line, and the end of the line. -/
def skipLineEnd (input : List Char) : Option (List Char) :=
  match skipBlanks input with
  | [] => some []
  | '\n' :: rest | '\r' :: '\n' :: rest => some rest
  | '#' :: rest => skipComment rest
  | _ => none

/-- Skip white space, line breaks and comments; the flag says whether a comment is open. -/
def skipGaps : Bool → List Char → Option (List Char)
  | inComment, [] => if inComment then none else some []
  | _, '\n' :: rest | _, '\r' :: '\n' :: rest => skipGaps false rest
  | true, c :: rest => if isPlain c then skipGaps true rest else none
  | false, ' ' :: rest | false, '\t' :: rest => skipGaps false rest
  | false, '#' :: rest => skipGaps true rest
  | false, c :: rest => some (c :: rest)

end RoleResolution.Toml

import RoleResolution.Digit
import RoleResolution.Json.Document

/-!
# Tokens of a JSON text

The lexer is a machine that reads one character at a time. Between two tokens it is idle;
inside a word, a numeral or a string it holds the part already read. A word or a numeral ends
at the first character that cannot continue it, and that character is then read as if the
machine had been idle. Since the machine is a fold, reading a text in two pieces is reading
the first and then the second.
-/

namespace RoleResolution.Json

/-- A token of the JSON grammar. -/
inductive Token where
  | openBracket
  | closeBracket
  | openBrace
  | closeBrace
  | colon
  | comma
  | null
  | bool (value : Bool)
  | number (numeral : Numeral)
  | string (pieces : List Piece)
  deriving DecidableEq, Repr

/-- A character that can occur in a numeral. -/
def isNumeralChar (c : Char) : Bool :=
  c.isDigit || c == '-' || c == '+' || c == '.' || c == 'e' || c == 'E'

/-- JSON white space. -/
def isBlank (c : Char) : Bool := c == ' ' || c == '\t' || c == '\n' || c == '\r'

namespace Numeral

/-- The exponent part of a numeral: nothing, or a mark, an optional sign and digits. -/
def exponentOfChars? : List Char → Option (Option (Bool × List Nat))
  | [] => some none
  | mark :: rest =>
    let (negative, digits) := match rest with
      | '-' :: digits => (true, digits)
      | '+' :: digits => (false, digits)
      | digits => (false, digits)
    if (mark == 'e' || mark == 'E') && !digits.isEmpty && digits.all Char.isDigit then
      some (some (negative, digits.map Digit.value))
    else none

/-- Read a whole numeral: an optional minus sign, digits without a needless leading zero, an
optional point with at least one digit after it, and an optional exponent. -/
def ofChars? (chars : List Char) : Option Numeral := do
  let (negative, chars) := match chars with
    | '-' :: rest => (true, rest)
    | _ => (false, chars)
  let whole := chars.takeWhile Char.isDigit
  if whole.isEmpty || (whole.head? == some '0' && whole.length != 1) then none
  else match chars.dropWhile Char.isDigit with
    | '.' :: rest =>
      let fraction := rest.takeWhile Char.isDigit
      if fraction.isEmpty then none
      else
        let exponent ← exponentOfChars? (rest.dropWhile Char.isDigit)
        some ⟨negative, whole.map Digit.value, some (fraction.map Digit.value), exponent⟩
    | rest =>
      let exponent ← exponentOfChars? rest
      some ⟨negative, whole.map Digit.value, none, exponent⟩

end Numeral

/-- The part of a token that the lexer has read; all lists hold the last character first. -/
inductive Pending where
  /-- Between two tokens. -/
  | idle
  /-- Inside `null`, `true` or `false`. -/
  | word (letters : List Char)
  /-- Inside a numeral. -/
  | numeral (chars : List Char)
  /-- Inside a string. -/
  | string (pieces : List Piece)
  /-- Inside a string, after a backslash. -/
  | escape (pieces : List Piece)
  /-- Inside a hexadecimal escape, with its `count` first digits of value `code`. -/
  | hex (pieces : List Piece) (count code : Nat)
  deriving DecidableEq, Repr

/-- The state of the lexer. -/
structure LexState where
  /-- The tokens read so far, the last one first. -/
  tokens : List Token
  pending : Pending
  deriving DecidableEq, Repr

namespace LexState

/-- Nothing read yet. -/
def start : LexState := ⟨[], .idle⟩

/-- Add a finished token. -/
def emit (s : LexState) (t : Token) : LexState := ⟨t :: s.tokens, .idle⟩

/-- The token of a word. -/
def wordToken? (letters : List Char) : Option Token :=
  if letters = ['n', 'u', 'l', 'l'] then some .null
  else if letters = ['t', 'r', 'u', 'e'] then some (.bool true)
  else if letters = ['f', 'a', 'l', 's', 'e'] then some (.bool false)
  else none

/-- Read a character between two tokens. -/
def idleStep (s : LexState) (c : Char) : Option LexState :=
  if isBlank c then some s
  else if c = '[' then some (s.emit .openBracket)
  else if c = ']' then some (s.emit .closeBracket)
  else if c = '{' then some (s.emit .openBrace)
  else if c = '}' then some (s.emit .closeBrace)
  else if c = ':' then some (s.emit .colon)
  else if c = ',' then some (s.emit .comma)
  else if c = '"' then some { s with pending := .string [] }
  else if c = '-' ∨ c.isDigit then some { s with pending := .numeral [c] }
  else if c.isLower then some { s with pending := .word [c] }
  else none

/-- The character of a two-character escape. -/
def escapedChar? (c : Char) : Option Char :=
  if c = '"' then some '"'
  else if c = '\\' then some '\\'
  else if c = '/' then some '/'
  else if c = 'b' then some '\x08'
  else if c = 'f' then some '\x0c'
  else if c = 'n' then some '\n'
  else if c = 'r' then some '\r'
  else if c = 't' then some '\t'
  else none

/-- End a word or a numeral; a string cannot end here. -/
def finishToken? (s : LexState) : Option LexState :=
  match s.pending with
  | .idle => some s
  | .word letters => (wordToken? letters.reverse).map s.emit
  | .numeral chars => (Numeral.ofChars? chars.reverse).map fun n ↦ s.emit (.number n)
  | .string _ | .escape _ | .hex _ _ _ => none

/-- Read one character. -/
def step (s : LexState) (c : Char) : Option LexState :=
  match s.pending with
  | .idle => s.idleStep c
  | .word letters =>
    if c.isLower then some { s with pending := .word (c :: letters) }
    else s.finishToken?.bind (·.idleStep c)
  | .numeral chars =>
    if isNumeralChar c then some { s with pending := .numeral (c :: chars) }
    else s.finishToken?.bind (·.idleStep c)
  | .string pieces =>
    if c = '"' then some (s.emit (.string pieces.reverse))
    else if c = '\\' then some { s with pending := .escape pieces }
    else if c < ' ' then none
    else some { s with pending := .string (.char c :: pieces) }
  | .escape pieces =>
    if c = 'u' then some { s with pending := .hex pieces 0 0 }
    else (escapedChar? c).map fun e ↦ { s with pending := .string (.char e :: pieces) }
  | .hex pieces count code => do
    let digit ← Digit.hexValue? c
    let code := 16 * code + digit
    if count < 3 then some { s with pending := .hex pieces (count + 1) code }
    else some { s with pending := .string (.unit code :: pieces) }

end LexState

/-- The tokens of a text, or `none` when it is not a sequence of tokens. -/
def tokens? (text : List Char) : Option (List Token) := do
  let s ← text.foldlM LexState.step LexState.start
  let s ← s.finishToken?
  some s.tokens.reverse

end RoleResolution.Json

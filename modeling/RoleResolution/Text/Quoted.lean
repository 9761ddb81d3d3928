import RoleResolution.Text.Unprintable

/-!
# Quoted text for diagnostics

Text in quotation marks, with escapes for the mark and the backslash, for the usual control
characters, and by code point for every other character without a glyph of its own.
-/

namespace RoleResolution.Text

/-- A character as it stands in quoted text. -/
def escapeChar (c : Char) : List Char :=
  if c = '"' then ['\\', '"']
  else if c = '\\' then ['\\', '\\']
  else if c = '\x00' then ['\\', '0']
  else if c = '\t' then ['\\', 't']
  else if c = '\n' then ['\\', 'n']
  else if c = '\r' then ['\\', 'r']
  else if isUnprintable c then
    ['\\', 'u', '{'] ++ Nat.toDigits 16 c.toNat ++ ['}']
  else [c]

/-- Text in quotation marks. -/
def quoted (s : String) : String :=
  String.ofList ('"' :: s.toList.flatMap escapeChar ++ ['"'])

end RoleResolution.Text

/-!
# TOML values

A value is what a TOML document puts under a key. Of numbers and date-times only the kind is
kept. A table remembers how it came about, because that decides who may still add to it.
-/

namespace RoleResolution.Toml

/-- How a table came about. -/
inductive TableForm where
  /-- By a header of its own, or as the document itself. -/
  | header
  /-- As the parent of a table with a header. -/
  | implied
  /-- As the parent of a dotted key. -/
  | dotted
  /-- Between braces. -/
  | inline
  deriving DecidableEq, Repr

/-- A value of a TOML document. -/
inductive Value where
  | string (text : String)
  | integer
  | float
  | flag (value : Bool)
  | dateTime
  | array (items : List Value)
  | table (form : TableForm) (entries : List (String × Value))
  /-- An array of tables, each with a header of its own; the last one comes first. -/
  | tables (last : List (String × Value)) (earlier : List (List (String × Value)))
  deriving Repr

/-- The entries of a table, in the order in which their keys first came up. -/
abbrev Entries := List (String × Value)

/-- A path of keys that the grammar reads: the keys before the last dot, and the last key. -/
structure KeyPath where
  parents : List String
  key : String
  deriving DecidableEq, Repr

end RoleResolution.Toml

import RoleResolution.Toml.Value

/-!
# Adding to TOML tables

A key is given once only, and a table is defined once only. A header may make an implied table
its own and may lead through any table that has a header, is implied or is dotted, and through
the last of an array of tables. A dotted key may lead through implied and dotted tables and
through the last of an array of tables, and the table that it ends in must be dotted. No one
adds to a table between braces once it is closed.
-/

namespace RoleResolution.Toml

/-- Replace the value of a key, or add it as the last entry. -/
def replaceEntry (key : String) (value : Value) : Entries → Entries
  | [] => [(key, value)]
  | (k, v) :: rest =>
    if k = key then (k, value) :: rest else (k, v) :: replaceEntry key value rest

/-- Change the table that a path of a header leads to. -/
def updateUnderHeader (change : Entries → Option Entries) :
    List String → Entries → Option Entries
  | [], entries => change entries
  | key :: path, entries =>
    match entries.lookup key with
    | none => do
      let inner ← updateUnderHeader change path []
      some (replaceEntry key (.table .implied inner) entries)
    | some (.table form inner) =>
      if form = .inline then none
      else do
        let inner ← updateUnderHeader change path inner
        some (replaceEntry key (.table form inner) entries)
    | some (.tables last earlier) => do
      let last ← updateUnderHeader change path last
      some (replaceEntry key (.tables last earlier) entries)
    | some _ => none

/-- Define the table of a header. -/
def openTable (path : KeyPath) : Entries → Option Entries :=
  updateUnderHeader (fun entries ↦
    match entries.lookup path.key with
    | none => some (replaceEntry path.key (.table .header []) entries)
    | some (.table .implied inner) =>
      some (replaceEntry path.key (.table .header inner) entries)
    | some _ => none) path.parents

/-- Add a table to the array of tables of a header. -/
def openArrayTable (path : KeyPath) : Entries → Option Entries :=
  updateUnderHeader (fun entries ↦
    match entries.lookup path.key with
    | none => some (replaceEntry path.key (.tables [] []) entries)
    | some (.tables last earlier) =>
      some (replaceEntry path.key (.tables [] (last :: earlier)) entries)
    | some _ => none) path.parents

/-- Give a key a value in the table that dotted parents lead to; the flag says whether the
present table admits new entries. -/
def insertDotted (key : String) (value : Value) :
    List String → Bool → Entries → Option Entries
  | [], admits, entries =>
    if admits && (entries.lookup key).isNone then some (entries ++ [(key, value)]) else none
  | parent :: path, _, entries =>
    match entries.lookup parent with
    | none => do
      let inner ← insertDotted key value path true []
      some (replaceEntry parent (.table .dotted inner) entries)
    | some (.table .dotted inner) => do
      let inner ← insertDotted key value path true inner
      some (replaceEntry parent (.table .dotted inner) entries)
    | some (.table .implied inner) => do
      let inner ← insertDotted key value path false inner
      some (replaceEntry parent (.table .implied inner) entries)
    | some (.tables last earlier) => do
      let last ← insertDotted key value path false last
      some (replaceEntry parent (.tables last earlier) entries)
    | some _ => none

/-- Give the last key of a path a value in an open table. -/
def insertAt (path : KeyPath) (value : Value) (entries : Entries) : Option Entries :=
  insertDotted path.key value path.parents true entries

/-- The table between braces of a list of pairs. -/
def inlineTable? (pairs : List (KeyPath × Value)) : Option Value := do
  let entries ← pairs.foldlM (fun entries pair ↦ insertAt pair.1 pair.2 entries) []
  some (.table .inline entries)

end RoleResolution.Toml

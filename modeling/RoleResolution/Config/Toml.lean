import RoleResolution.Config.Reader
import RoleResolution.Toml.Document

/-!
# Configurations as TOML

A configuration is written with every setting in its section and read from any TOML document.
Reading a file adds the ways in which a file can be unreadable.
-/

namespace RoleResolution.Config

/-- The shape of a TOML value. A date-time counts as a table with one key of its own, which no
section knows. -/
def shapeOfToml : Toml.Value → Shape Toml.Value
  | .flag b => .flag b
  | .string s => .text s
  | .table _ entries => .table entries
  | .array items => .list items
  | .tables last earlier =>
    .list ((last :: earlier).reverse.map (.table .header ·))
  | .dateTime => .table [("", .dateTime)]
  | .integer | .float => .other

/-- Whether a TOML value is an empty table or array. -/
def isEmptyToml : Toml.Value → Bool
  | .table _ entries => entries.isEmpty
  | .array items => items.isEmpty
  | _ => false

/-- The TOML format: an empty table or array stands beside the name of a policy, and a list may
go on after the last field. -/
def tomlFormat : Format Toml.Value := ⟨fun v ↦ some (shapeOfToml v), isEmptyToml, true⟩

/-- Read a configuration from TOML text. -/
def ofToml? (text : String) : Option Config := do
  let entries ← Toml.parse? text
  tomlFormat.config? (.table .header entries)

/-- A truth value in TOML. -/
def flagText (b : Bool) : String := if b then "true" else "false"

/-- A configuration as a TOML document. -/
def toToml (c : Config) : String :=
  "[registry]\nreject_conversion_cycles = " ++ flagText c.registry.rejectConversionCycles ++
    "\n\n[resolver]\ncycle_policy = \"" ++ c.resolver.cyclePolicy.name ++
    "\"\ntrace_all_kinds = " ++ flagText c.resolver.traceAllKinds ++ "\n"

/-- What stands at a path of a file system. -/
inductive Source where
  | missing
  | directory
  | file (bytes : ByteArray)

/-- Why no configuration was loaded. -/
inductive LoadError where
  | notFound
  | isDirectory
  | notUtf8
  /-- The text is not a configuration. -/
  | malformed
  deriving DecidableEq, Repr

/-- The wording of an error of the file system. -/
def LoadError.message? : LoadError → Option String
  | notFound => some "I/O error: No such file or directory (os error 2)"
  | isDirectory => some "I/O error: Is a directory (os error 21)"
  | notUtf8 => some "I/O error: stream did not contain valid UTF-8"
  | malformed => none

/-- Read a configuration from TOML text. -/
def ofToml (text : String) : Except LoadError Config :=
  match ofToml? text with
  | some c => .ok c
  | none => .error .malformed

/-- Load a configuration from a file. -/
def load : Source → Except LoadError Config
  | .missing => .error .notFound
  | .directory => .error .isDirectory
  | .file bytes =>
    match String.fromUTF8? bytes with
    | none => .error .notUtf8
    | some text => ofToml text

end RoleResolution.Config

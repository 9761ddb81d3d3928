import Mathlib.Data.List.Forall2
import RoleResolution.Proofs.Fields
import RoleResolution.Proofs.Json.Literal
import RoleResolution.Proofs.Json.Parsing

/-!
# Printed values

The compact text of a value without floats is the text of a document that denotes the value and
nests exactly as deeply.
-/

namespace RoleResolution.Json

mutual

/-- The greatest number of arrays and objects around any place in the text of a value. -/
def depth : Json → Nat
  | .null | .bool _ | .number _ | .string _ => 0
  | .array items => depthOfItems items + 1
  | .object fields => depthOfFields fields + 1

/-- The greatest depth among array items. -/
def depthOfItems : List Json → Nat
  | [] => 0
  | item :: rest => max item.depth (depthOfItems rest)

/-- The greatest depth among object fields. -/
def depthOfFields : List (String × Json) → Nat
  | [] => 0
  | (_, v) :: rest => max v.depth (depthOfFields rest)

end

mutual

/-- Whether a value holds no float. -/
def floatFree : Json → Bool
  | .null | .bool _ | .number (.integer _) | .string _ => true
  | .number (.float _) => false
  | .array items => floatFreeItems items
  | .object fields => floatFreeFields fields

/-- Whether no item holds a float. -/
def floatFreeItems : List Json → Bool
  | [] => true
  | item :: rest => item.floatFree && floatFreeItems rest

/-- Whether no field holds a float. -/
def floatFreeFields : List (String × Json) → Bool
  | [] => true
  | (_, v) :: rest => v.floatFree && floatFreeFields rest

end

/-! ### Texts and the documents that are read from them -/

open Document (tokensOfItems tokensOfMoreItems tokensOfMembers tokensOfMoreMembers valueOfItems?
  valueOfMembers?)

/-- The text of a value is the one of a document that denotes it and nests as deeply. -/
structure PrintedAs (v : Json) (d : Document) : Prop where
  tokens : tokens? v.chars = some d.tokens
  value : d.value? = some v
  depth : d.depth = v.depth

/-- The text of a field is the one of a member with a key that denotes the name. -/
structure FieldPrintedAs (field : String × Json) (m : List Piece × Document) : Prop where
  key : tokens? (quote field.1) = some [.string m.1]
  name : textOfPieces? m.1 = some field.1
  printed : PrintedAs field.2 m.2

theorem FieldPrintedAs.tokens {field : String × Json} {m : List Piece × Document}
    (h : FieldPrintedAs field m) :
    tokens? (quote field.1 ++ ':' :: field.2.chars) =
      some (.string m.1 :: .colon :: m.2.tokens) :=
  tokens?_append_of_eq_some .colon h.key h.printed.tokens

section

variable {items : List Json} {ds : List Document} {fields : List (String × Json)}
  {ms : List (List Piece × Document)}

theorem tokens?_charsOfItems (h : List.Forall₂ PrintedAs items ds) :
    tokens? (charsOfItems items) = some (tokensOfItems ds) := by
  induction h with
  | nil => rfl
  | cons hv hrest ih =>
    cases hrest with
    | nil =>
      simpa [charsOfItems, charsOfMoreItems, tokensOfItems, tokensOfMoreItems] using hv.tokens
    | cons =>
      have hcomma := tokens?_append_of_eq_some .comma hv.tokens ih
      simpa [charsOfItems, charsOfMoreItems, tokensOfItems, tokensOfMoreItems] using hcomma

theorem tokens?_charsOfFields (h : List.Forall₂ FieldPrintedAs fields ms) :
    tokens? (charsOfFields fields) = some (tokensOfMembers ms) := by
  induction h with
  | nil => rfl
  | cons hfield hrest ih =>
    cases hrest with
    | nil =>
      simpa [charsOfFields, charsOfMoreFields, tokensOfMembers, tokensOfMoreMembers]
        using hfield.tokens
    | cons =>
      have hcomma := tokens?_append_of_eq_some .comma hfield.tokens ih
      simpa [charsOfFields, charsOfMoreFields, tokensOfMembers, tokensOfMoreMembers] using hcomma

theorem valueOfItems?_of_printedAs (h : List.Forall₂ PrintedAs items ds) :
    valueOfItems? ds = some items := by
  induction h with
  | nil => rfl
  | cons hv hrest ih => simp [valueOfItems?, hv.value, ih]

theorem valueOfMembers?_of_printedAs (h : List.Forall₂ FieldPrintedAs fields ms) :
    valueOfMembers? ms = some fields := by
  induction h with
  | nil => rfl
  | cons hfield hrest ih => simp [valueOfMembers?, hfield.name, hfield.printed.value, ih]

theorem depthOfItems_of_printedAs (h : List.Forall₂ PrintedAs items ds) :
    Document.depthOfItems ds = depthOfItems items := by
  induction h with
  | nil => rfl
  | cons hv hrest ih => rw [Document.depthOfItems, depthOfItems, hv.depth, ih]

theorem depthOfMembers_of_printedAs (h : List.Forall₂ FieldPrintedAs fields ms) :
    Document.depthOfMembers ms = depthOfFields fields := by
  induction h with
  | nil => rfl
  | cons hfield hrest ih => rw [Document.depthOfMembers, depthOfFields, hfield.printed.depth, ih]

/-- The text of an object is the one of its members, also where the names do not increase. -/
theorem parse?_text_object (h : List.Forall₂ FieldPrintedAs fields ms) :
    Document.parse? (object fields).text = some (.object ms) := by
  rw [Document.parse?_eq_some_iff, text, String.toList_ofList]
  have hclose := tokens?_append_of_eq_some .closeBrace (tokens?_charsOfFields h) tokens?_nil
  exact tokens?_append_of_eq_some .openBrace tokens?_nil hclose

theorem PrintedAs.array (h : List.Forall₂ PrintedAs items ds) :
    PrintedAs (.array items) (.array ds) where
  tokens := by
    have hclose := tokens?_append_of_eq_some .closeBracket (tokens?_charsOfItems h) tokens?_nil
    exact tokens?_append_of_eq_some .openBracket tokens?_nil hclose
  value := by rw [Document.value?, valueOfItems?_of_printedAs h, Option.map_some]
  depth := by rw [Document.depth, Json.depth, depthOfItems_of_printedAs h]

theorem PrintedAs.object (h : List.Forall₂ FieldPrintedAs fields ms)
    (hsorted : FieldsSorted fields) : PrintedAs (.object fields) (.object ms) where
  tokens := by
    simpa [Document.parse?_eq_some_iff, text] using parse?_text_object h
  value := by
    rw [Document.value?, valueOfMembers?_of_printedAs h, Option.map_some,
      sortFields_of_sorted hsorted]
  depth := by rw [Document.depth, Json.depth, depthOfMembers_of_printedAs h]

end

mutual

/-- The text of a canonical value without floats is the one of a document. -/
theorem exists_printedAs : ∀ v : Json, v.Canonical → v.floatFree = true → ∃ d, PrintedAs v d
  | .null, _, _ => ⟨.null, rfl, rfl, rfl⟩
  | .bool true, _, _ => ⟨.bool true, rfl, rfl, rfl⟩
  | .bool false, _, _ => ⟨.bool false, rfl, rfl, rfl⟩
  | .number (.integer n), hn, _ => by
    obtain ⟨numeral, htokens, hnumber⟩ := exists_tokens?_integerText hn
    exact ⟨.number numeral, htokens, by rw [Document.value?, hnumber]; rfl, rfl⟩
  | .string s, _, _ => by
    obtain ⟨pieces, htokens, htext⟩ := exists_tokens?_quote s
    exact ⟨.string pieces, htokens, by rw [Document.value?, htext]; rfl, rfl⟩
  | .array items, h, hfree => by
    obtain ⟨ds, hds⟩ := exists_itemsPrintedAs items h hfree
    exact ⟨.array ds, .array hds⟩
  | .object fields, h, hfree => by
    obtain ⟨ms, hms⟩ := exists_fieldsPrintedAs fields h.2 hfree
    exact ⟨.object ms, .object hms h.1⟩

/-- The texts of canonical items without floats are those of documents. -/
theorem exists_itemsPrintedAs : ∀ items : List Json, CanonicalItems items →
    floatFreeItems items = true → ∃ ds, List.Forall₂ PrintedAs items ds
  | [], _, _ => ⟨[], .nil⟩
  | item :: rest, h, hfree => by
    obtain ⟨hitem, hrest⟩ := Bool.and_eq_true_iff.mp hfree
    obtain ⟨d, hd⟩ := exists_printedAs item h.1 hitem
    obtain ⟨ds, hds⟩ := exists_itemsPrintedAs rest h.2 hrest
    exact ⟨d :: ds, .cons hd hds⟩

/-- The texts of fields with canonical values without floats are those of members. -/
theorem exists_fieldsPrintedAs : ∀ fields : List (String × Json), CanonicalFields fields →
    floatFreeFields fields = true → ∃ ms, List.Forall₂ FieldPrintedAs fields ms
  | [], _, _ => ⟨[], .nil⟩
  | (name, v) :: rest, h, hfree => by
    obtain ⟨hv, hrest⟩ := Bool.and_eq_true_iff.mp hfree
    obtain ⟨key, hkey, hname⟩ := exists_tokens?_quote name
    obtain ⟨d, hd⟩ := exists_printedAs v h.1 hv
    obtain ⟨ms, hms⟩ := exists_fieldsPrintedAs rest h.2 hrest
    exact ⟨(key, d) :: ms, .cons ⟨hkey, hname, hd⟩ hms⟩

end

/-- The text of a canonical value without floats is read back as the value, unless it nests too
deeply. -/
theorem parse?_text {v : Json} (h : v.Canonical) (hfree : v.floatFree = true) :
    parse? v.text = if v.depth ≤ depthLimit then some v else none := by
  obtain ⟨d, hd⟩ := exists_printedAs v h hfree
  have hparse : Document.parse? v.text = some d := by
    rw [Document.parse?_eq_some_iff, text, String.toList_ofList, hd.tokens]
  rw [parse?, hparse, Option.bind_eq_bind, Option.bind_some, Document.read?, hd.depth, hd.value]

end RoleResolution.Json

import RoleResolution.Json.Printer
import RoleResolution.Payload.Basic

/-!
# Payloads from records

A `Record` is a caller's data before it becomes a JSON value. An integer of more than 64 bits
has no JSON value, a float that is not finite becomes `null`, and only text, numbers and truth
values can be map keys; a float among them has to be finite. A record becomes a payload when its
JSON value is an object, or `null` for the unit payload.
-/

namespace RoleResolution

/-- A caller's data. -/
inductive Record where
  | unit
  | bool (value : Bool)
  /-- An integer of any size. -/
  | integer (value : Int)
  /-- A float, `none` when it is not finite. -/
  | float (value : Option Binary64)
  | text (value : String)
  | list (items : List Record)
  /-- Entries with keys of any form, written one after another. -/
  | map (entries : List (Record × Record))
  /-- Named members. -/
  | members (members : List (String × Record))
  /-- A value that is JSON already. -/
  | attribute (value : Attribute)

/-- Why a record has no JSON value. -/
inductive RecordError where
  | numberOutOfRange
  | keyNotText
  | keyNotFinite
  deriving DecidableEq, Repr

namespace RecordError

/-- The wording of the cause. -/
def description : RecordError → String
  | .numberOutOfRange => "number out of range"
  | .keyNotText => "key must be a string"
  | .keyNotFinite => "float key must be finite (got NaN or +/-inf)"

end RecordError

namespace Record

/-- The name that a JSON value stands for as a key. -/
def valueName : Json → Except RecordError String
  | .string s => .ok s
  | .number n => .ok (String.ofList n.text)
  | .bool true => .ok "true"
  | .bool false => .ok "false"
  | _ => .error .keyNotText

/-- The name that a key stands for. An integer may be of any size there. -/
def keyName : Record → Except RecordError String
  | .text s => .ok s
  | .integer n => .ok (String.ofList (JsonNumber.integerText n))
  | .float (some x) => valueName (.number (.float x))
  | .float none => .error .keyNotFinite
  | .bool b => valueName (.bool b)
  | .attribute a => valueName a.value
  | _ => .error .keyNotText

mutual

/-- The JSON value of a record. -/
def toJson : Record → Except RecordError Json
  | .unit => .ok .null
  | .bool b => .ok (.bool b)
  | .integer n =>
    if JsonNumber.InRange n then .ok (.ofInt n) else .error .numberOutOfRange
  | .float none => .ok .null
  | .float (some x) => .ok (.number (.float x))
  | .text s => .ok (.string s)
  | .list items => (itemsToJson items).map .array
  | .map entries => (entriesToJson entries).map fun fields ↦ .object (sortFields fields)
  | .members ms => (membersToJson ms).map fun fields ↦ .object (sortFields fields)
  | .attribute a => .ok a.value

/-- The JSON values of list items. -/
def itemsToJson : List Record → Except RecordError (List Json)
  | [] => .ok []
  | item :: rest => do
    let v ← item.toJson
    let vs ← itemsToJson rest
    .ok (v :: vs)

/-- The names and JSON values of map entries. -/
def entriesToJson : List (Record × Record) → Except RecordError (List (String × Json))
  | [] => .ok []
  | (key, item) :: rest => do
    let name ← key.keyName
    let v ← item.toJson
    let vs ← entriesToJson rest
    .ok ((name, v) :: vs)

/-- The names and JSON values of members. -/
def membersToJson : List (String × Record) → Except RecordError (List (String × Json))
  | [] => .ok []
  | (name, item) :: rest => do
    let v ← item.toJson
    let vs ← membersToJson rest
    .ok ((name, v) :: vs)

end

private theorem bind_ok {ε α β : Type} {x : Except ε α} {f : α → Except ε β} {b : β}
    (h : (x >>= f) = .ok b) : ∃ a, x = .ok a ∧ f a = .ok b := by
  cases x with
  | error e => cases h
  | ok a => exact ⟨a, rfl, h⟩

private theorem map_ok {ε α β : Type} {x : Except ε α} {f : α → β} {b : β}
    (h : x.map f = .ok b) : ∃ a, x = .ok a ∧ f a = b := by
  cases x with
  | error e => cases h
  | ok a => exact ⟨a, rfl, Except.ok.inj h⟩

mutual

/-- The JSON value of a record is canonical. -/
theorem canonical_toJson : ∀ (r : Record) {v : Json}, r.toJson = .ok v → v.Canonical
  | .unit, v, h => by
    cases h
    trivial
  | .bool b, v, h => by
    cases h
    trivial
  | .integer n, v, h => by
    simp only [toJson] at h
    split at h
    · next hn =>
      cases h
      exact hn
    · cases h
  | .float none, v, h => by
    cases h
    trivial
  | .float (some x), v, h => by
    cases h
    trivial
  | .text s, v, h => by
    cases h
    trivial
  | .list items, v, h => by
    simp only [toJson] at h
    obtain ⟨vs, hvs, rfl⟩ := map_ok h
    exact Json.canonicalItems_iff.mpr (canonical_itemsToJson items hvs)
  | .map entries, v, h => by
    simp only [toJson] at h
    obtain ⟨fields, hfields, rfl⟩ := map_ok h
    refine ⟨fieldsSorted_sortFields fields, Json.canonicalFields_iff.mpr fun f hf ↦ ?_⟩
    exact canonical_entriesToJson entries hfields f (mem_of_mem_sortFields hf)
  | .members ms, v, h => by
    simp only [toJson] at h
    obtain ⟨fields, hfields, rfl⟩ := map_ok h
    refine ⟨fieldsSorted_sortFields fields, Json.canonicalFields_iff.mpr fun f hf ↦ ?_⟩
    exact canonical_membersToJson ms hfields f (mem_of_mem_sortFields hf)
  | .attribute a, v, h => by
    cases h
    exact a.canonical

/-- The JSON values of list items are canonical. -/
theorem canonical_itemsToJson : ∀ (items : List Record) {vs : List Json},
    itemsToJson items = .ok vs → ∀ v ∈ vs, v.Canonical
  | [], vs, h => by
    cases h
    simp
  | item :: rest, vs, h => by
    simp only [itemsToJson] at h
    obtain ⟨w, hw, h⟩ := bind_ok h
    obtain ⟨ws, hws, h⟩ := bind_ok h
    cases h
    intro v hv
    rcases List.mem_cons.mp hv with rfl | hv
    · exact canonical_toJson item hw
    · exact canonical_itemsToJson rest hws v hv

/-- The JSON values of map entries are canonical. -/
theorem canonical_entriesToJson : ∀ (entries : List (Record × Record))
    {fields : List (String × Json)}, entriesToJson entries = .ok fields →
    ∀ f ∈ fields, f.2.Canonical
  | [], fields, h => by
    cases h
    simp
  | (key, item) :: rest, fields, h => by
    simp only [entriesToJson] at h
    obtain ⟨name, -, h⟩ := bind_ok h
    obtain ⟨w, hw, h⟩ := bind_ok h
    obtain ⟨ws, hws, h⟩ := bind_ok h
    cases h
    intro f hf
    rcases List.mem_cons.mp hf with rfl | hf
    · exact canonical_toJson item hw
    · exact canonical_entriesToJson rest hws f hf

/-- The JSON values of members are canonical. -/
theorem canonical_membersToJson : ∀ (ms : List (String × Record))
    {fields : List (String × Json)}, membersToJson ms = .ok fields →
    ∀ f ∈ fields, f.2.Canonical
  | [], fields, h => by
    cases h
    simp
  | (name, item) :: rest, fields, h => by
    simp only [membersToJson] at h
    obtain ⟨w, hw, h⟩ := bind_ok h
    obtain ⟨ws, hws, h⟩ := bind_ok h
    cases h
    intro f hf
    rcases List.mem_cons.mp hf with rfl | hf
    · exact canonical_toJson item hw
    · exact canonical_membersToJson rest hws f hf

end

end Record

/-- Why a record gives no payload. -/
inductive PayloadError where
  /-- The record has no JSON value. -/
  | unserializable (cause : RecordError)
  /-- The record's JSON value is neither an object nor `null`. -/
  | notAnObject (value : Json)

namespace PayloadError

/-- The wording of the error. -/
def message : PayloadError → String
  | .unserializable cause =>
    "Invalid input: Unserializable record: " ++ cause.description
  | .notAnObject value =>
    "Invalid input: Record must serialize to an object or unit, got " ++ value.text

end PayloadError

namespace Payload

/-- The payload of a JSON value: the fields of an object, or no fields for `null`. -/
def ofAttribute (a : Attribute) : Except PayloadError Payload :=
  match a.value with
  | .null => .ok unit
  | v =>
    match ofAttribute? a with
    | some p => .ok p
    | none => .error (.notAnObject v)

/-- The payload of a record. -/
def ofRecord (r : Record) : Except PayloadError Payload :=
  match h : r.toJson with
  | .ok v => ofAttribute ⟨v, r.canonical_toJson h⟩
  | .error cause => .error (.unserializable cause)

end Payload
end RoleResolution

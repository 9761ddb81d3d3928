import RoleResolution.Payload.Record
import RoleResolution.Payload.Text
import RoleResolution.Proofs.Fields
import RoleResolution.Proofs.Json.Parsing

/-!
# Payloads are canonical

Whatever way a payload came about, it holds the last value that was written to each field and
nothing else, in the order of the field names. So the order of the writes and the values that were
overwritten leave no trace: payloads with the same last writes are equal, and so are their texts.
-/

namespace RoleResolution

/-! ### Ways to make a payload -/

/-- The fields of an object. -/
def Json.fields? : Json → Option (List (String × Json))
  | .object fields => some fields
  | _ => none

/-- The fields of an object; `null` stands for an object without fields. -/
def Json.recordFields? : Json → Option (List (String × Json))
  | .null => some []
  | v => v.fields?

/-- The fields that a record writes one after another, if it stands for an object or `null`. -/
def Record.writes? : Record → Option (List (String × Json))
  | .unit | .float none => some []
  | .map entries => (entriesToJson entries).toOption
  | .members ms => (membersToJson ms).toOption
  | .attribute a => a.value.recordFields?
  | _ => none

/-- The fields that a document writes one after another, if it is an object that does not nest too
deeply. -/
def Json.Document.writes? : Document → Option (List (String × Json))
  | .object members =>
    if (object members).depth ≤ depthLimit then valueOfMembers? members else none
  | _ => none

namespace Payload

/-- The names and JSON values of the fields, in order. -/
def entries (p : Payload) : List (String × Json) := p.fields.entries.map fun e ↦ (e.1, e.2.value)

/-- A way to make a payload. -/
inductive Construction where
  /-- A payload without fields. -/
  | unit
  /-- Write a field of a payload that was made before. -/
  | set (earlier : Construction) (field : String) (value : Attribute)
  /-- Take the fields of a record. -/
  | ofRecord (record : Record)
  /-- Read a JSON text. -/
  | ofText (text : String)

namespace Construction

/-- The payload that is made, if there is one. -/
def payload? : Construction → Option Payload
  | unit => some .unit
  | set earlier field value => earlier.payload?.map (·.set field value)
  | ofRecord record => (Payload.ofRecord record).toOption
  | ofText text => Payload.parse? text

/-- The fields that are written one after another. -/
def writes? : Construction → Option (List (String × Json))
  | unit => some []
  | set earlier field value => earlier.writes?.map (· ++ [(field, value.value)])
  | ofRecord record => record.writes?
  | ofText text => (Json.Document.parse? text).bind Json.Document.writes?

end Construction

theorem entries_set (p : Payload) (field : String) (value : Attribute) :
    (p.set field value).entries = insertField field value.value p.entries :=
  map_insertField Attribute.value field value p.fields.entries

/-- The payload of a JSON value has the fields of the object. -/
theorem map_ofAttribute? (a : Attribute) : (ofAttribute? a).map entries = a.value.fields? := by
  obtain ⟨v, h⟩ := a
  cases v with
  | object fields => exact congrArg some (map_attributes fields h.2)
  | _ => rfl

/-- A record gives a payload when its JSON value is an object or `null`. -/
theorem map_ofRecord (r : Record) :
    (ofRecord r).toOption.map entries = r.toJson.toOption.bind Json.recordFields? := by
  unfold ofRecord
  split
  · next v hv =>
    have hfields : (ofAttribute ⟨v, r.canonical_toJson hv⟩).toOption.map entries =
        v.recordFields? := by
      cases v with
      | object fields => exact congrArg some (map_attributes fields _)
      | _ => rfl
    simp only [hv]
    exact hfields
  · next e he => simp [he, Except.toOption]

/-- A text gives a payload when its JSON value is an object. -/
theorem map_parse? (text : String) :
    (Payload.parse? text).map entries = (Json.parse? text).bind Json.fields? := by
  unfold Payload.parse?
  split
  · next v hv =>
    simp only [hv]
    exact map_ofAttribute? ⟨v, Json.canonical_of_parse? hv⟩
  · next hv => simp [hv]

end Payload

/-- A record's JSON value holds the last value that is written to each field. -/
theorem Record.writes?_eq : ∀ r : Record,
    r.toJson.toOption.bind Json.recordFields? = r.writes?.map sortFields
  | .unit | .bool _ | .float none | .float (some _) | .text _ => rfl
  | .integer n => by
    rw [toJson]
    split <;> rfl
  | .list items => by
    rw [toJson]
    cases itemsToJson items <;> rfl
  | .map entries => by
    rw [toJson, writes?]
    cases entriesToJson entries <;> rfl
  | .members ms => by
    rw [toJson, writes?]
    cases membersToJson ms <;> rfl
  | .attribute ⟨.object fields, h⟩ => congrArg some (sortFields_of_sorted h.1).symm
  | .attribute ⟨.null, _⟩ | .attribute ⟨.bool _, _⟩ | .attribute ⟨.number _, _⟩
  | .attribute ⟨.string _, _⟩ | .attribute ⟨.array _, _⟩ => rfl

/-- A document's JSON value holds the last value that is written to each field. -/
theorem Json.Document.writes?_eq (d : Document) :
    d.read?.bind fields? = d.writes?.map sortFields := by
  cases d with
  | object members =>
    rw [read?, writes?, value?]
    split
    · cases valueOfMembers? members <;> rfl
    · rfl
  | number n =>
    rw [read?, value?]
    cases n.number? <;> split <;> rfl
  | string pieces =>
    rw [read?, value?]
    cases textOfPieces? pieces <;> split <;> rfl
  | array items =>
    rw [read?, value?]
    cases valueOfItems? items <;> split <;> rfl
  | _ => rfl

namespace Payload.Construction

/-- A payload holds the last value that is written to each field. -/
theorem map_payload? (c : Construction) : c.payload?.map entries = c.writes?.map sortFields := by
  induction c with
  | unit => rfl
  | set earlier field value ih =>
    calc (earlier.payload?.map (·.set field value)).map entries
      _ = (earlier.payload?.map entries).map (insertField field value.value) := by
        simp only [Option.map_map, Function.comp_def, entries_set]
      _ = (earlier.writes?.map sortFields).map (insertField field value.value) := by rw [ih]
      _ = (earlier.writes?.map (· ++ [(field, value.value)])).map sortFields := by
        simp only [Option.map_map, Function.comp_def, sortFields_concat]
  | ofRecord record => exact (map_ofRecord record).trans record.writes?_eq
  | ofText text =>
    rw [payload?, writes?, map_parse?, Json.parse?]
    cases Json.Document.parse? text with
    | none => rfl
    | some d => exact d.writes?_eq

/-- A construction makes a payload exactly when what it writes is known. -/
theorem isSome_payload? (c : Construction) : c.payload?.isSome = c.writes?.isSome := by
  simpa using congrArg Option.isSome c.map_payload?

/-- The entries of a payload are those of its writes, each with the last value. -/
theorem entries_payload {c : Construction} {p : Payload} {writes : List (String × Json)}
    (hp : c.payload? = some p) (hw : c.writes? = some writes) : p.entries = sortFields writes := by
  have h := c.map_payload?
  rw [hp, hw] at h
  exact Option.some.inj h

end Payload.Construction

namespace Payload

/-- The JSON value of a field is the one that is listed under its name. -/
theorem map_get? (p : Payload) (field : String) :
    (p.get? field).map Attribute.value = p.entries.lookup field :=
  (lookup_map Attribute.value p.fields.entries field).symm

/-- The entries are in increasing order. -/
theorem sorted_entries (p : Payload) : FieldsSorted p.entries :=
  List.pairwise_map.mpr p.fields.sorted

/-- Payloads are equal when they have the same fields, with equal values. -/
theorem beq_iff_get? (p q : Payload) :
    (p == q) = true ↔ (∀ field, field ∈ p.names ↔ field ∈ q.names) ∧
      ∀ field a b, p.get? field = some a → q.get? field = some b → (a == b) = true := by
  refine (beq_iff_lookup p.fields.sorted q.fields.sorted).trans (and_congr_left fun _ ↦ ?_)
  constructor
  · intro h field
    exact Eq.to_iff (congrArg (field ∈ ·) h)
  · exact List.Pairwise.eq_of_mem_iff p.fields.pairwise_names q.fields.pairwise_names

/-- Payloads with the same entries are the same. -/
theorem eq_of_entries_eq {p q : Payload} (h : p.entries = q.entries) : p = q := by
  apply Payload.ext
  apply FieldMap.ext
  apply List.map_injective_iff.mpr _ h
  intro e e' he
  obtain ⟨hn, hv⟩ := Prod.mk.inj he
  exact Prod.ext hn (Attribute.ext hv)

/-- The display form lists the entries. -/
theorem display_eq (p : Payload) :
    p.display = "(" ++ ", ".intercalate (p.entries.map fun e ↦ e.1 ++ "=" ++ e.2.text) ++ ")" := by
  rw [entries, List.map_map]
  rfl

open Construction in
/-- Whatever way it is made, a payload lists its fields in increasing order by code point; each has
the value that was written last, and there are no others. Records and texts that are objects, and
records that are `null`, always give a payload. Two payloads are equal exactly when they have the
same fields with equal values. So whatever the order of the writes and whatever was overwritten,
payloads with the same last writes are equal, and so are their texts. -/
theorem construction_canonical (c d : Construction) :
    c.payload?.isSome = c.writes?.isSome ∧
    ∀ p writes, c.payload? = some p → c.writes? = some writes →
      p.names.Pairwise (· < ·) ∧
      (∀ field, (p.get? field).map Attribute.value = lastWritten writes field) ∧
      ∀ q writes', d.payload? = some q → d.writes? = some writes' →
        ((p == q) = true ↔ (∀ field, field ∈ p.names ↔ field ∈ q.names) ∧
          ∀ field a b, p.get? field = some a → q.get? field = some b → (a == b) = true) ∧
        ((∀ field, lastWritten writes field = lastWritten writes' field) →
          (p == q) = true ∧ p.display = q.display ∧ p.text = q.text) := by
  refine ⟨isSome_payload? c, fun p writes hp hw ↦ ⟨p.fields.pairwise_names, ?_, ?_⟩⟩
  · intro field
    rw [map_get?, entries_payload hp hw, lookup_sortFields]
  · intro q writes' hq hw'
    refine ⟨beq_iff_get? p q, fun hlast ↦ ?_⟩
    have heq : p = q := by
      apply eq_of_entries_eq
      apply eq_of_lookup_eq p.sorted_entries q.sorted_entries
      intro field
      rw [entries_payload hp hw, entries_payload hq hw', lookup_sortFields, lookup_sortFields,
        hlast]
    subst heq
    refine ⟨(beq_iff_get? p p).mpr ⟨fun _ ↦ Iff.rfl, fun field a b ha hb ↦ ?_⟩, rfl, rfl⟩
    cases ha.symm.trans hb
    exact Json.beq_refl a.value

/-- The attributes of a team member, taken from a record whose team is then corrected. -/
def memberFromRecord : Construction :=
  .set (.ofRecord (.members [("team_id", .integer 7), ("name", .text "core")])) "team_id"
    ⟨.ofInt 8, by decide⟩

/-- The text of a team member that gives the name twice, one of the two with an escape in it. -/
def memberText : String :=
  "\x7b\"name\": \"none\", \"team_id\": 8, \"n\\u0061me\": \"core\"\x7d"

open Construction in
/-- The record and the text make the same payload, whose two texts list the name before the team. -/
theorem member_canonical : ∃ p q,
    memberFromRecord.payload? = some p ∧ (ofText memberText).payload? = some q ∧
    (p.get? "team_id").map Attribute.value = some (.ofNat 8) ∧
    ((p == q) = true ∧ p.display = q.display ∧ p.text = q.text) ∧
    p.display = "(name=\"core\", team_id=8)" ∧
    p.text = "\x7b\"name\":\"core\",\"team_id\":8\x7d" := by
  have hrecord : memberFromRecord.writes? = some
      [("team_id", .ofNat 7), ("name", .string "core"), ("team_id", .ofNat 8)] := rfl
  have hread : Json.Document.parse? memberText =
      some (.object [("name".toList.map .char, .string ("none".toList.map .char)),
        ("team_id".toList.map .char, .number ⟨false, [8], none, none⟩),
        ([.char 'n', .unit 0x61, .char 'm', .char 'e'], .string ("core".toList.map .char))]) :=
    Json.Document.parse?_eq_some_iff.mpr (by decide +kernel)
  have htext : (ofText memberText).writes? = some
      [("name", .string "none"), ("team_id", .ofNat 8), ("name", .string "core")] := by
    rw [Construction.writes?, hread]
    rfl
  obtain ⟨hsome, hfields⟩ := construction_canonical memberFromRecord (.ofText memberText)
  have hsome' := (construction_canonical (.ofText memberText) memberFromRecord).1
  rw [hrecord] at hsome
  rw [htext] at hsome'
  obtain ⟨p, hp⟩ := Option.isSome_iff_exists.mp hsome
  obtain ⟨q, hq⟩ := Option.isSome_iff_exists.mp hsome'
  obtain ⟨-, hget, hpair⟩ := hfields p _ hp hrecord
  obtain ⟨-, hsame⟩ := hpair q _ hq htext
  have hentries : p.entries = [("name", .string "core"), ("team_id", .ofNat 8)] :=
    (entries_payload hp hrecord).trans rfl
  have hdisplay : p.display = "(name=\"core\", team_id=8)" := by
    rw [display_eq, hentries]
    decide +kernel
  have hwire : p.text = "\x7b\"name\":\"core\",\"team_id\":8\x7d" := by
    change (Json.object p.entries).text = _
    rw [hentries]
    decide +kernel
  refine ⟨p, q, hp, hq, hget "team_id", hsame fun field ↦ ?_, hdisplay, hwire⟩
  by_cases hname : field = "name"
  · subst hname
    rfl
  · by_cases hteam : field = "team_id"
    · subst hteam
      rfl
    · simp [lastWritten, List.lookup_cons, beq_false_of_ne hname, beq_false_of_ne hteam]

end Payload
end RoleResolution

import RoleResolution.Proofs.Json.Printing
import RoleResolution.Proofs.Payload.Canonical

/-!
# Payloads are read back from their texts

A payload without floats is read back from its wire form, whatever its field names, strings and
integers are, as long as it does not nest too deeply.
-/

namespace RoleResolution.Payload

/-- A payload stands for its entries. -/
theorem toJson_eq (p : Payload) : p.toJson = .object p.entries := rfl

/-- The JSON value of a payload is canonical. -/
theorem canonical_toJson (p : Payload) : p.toJson.Canonical := by
  refine ⟨p.sorted_entries, Json.canonicalFields_iff.mpr fun f hf ↦ ?_⟩
  obtain ⟨e, -, rfl⟩ := List.mem_map.mp hf
  exact e.2.canonical

/-- The wire form of a payload without floats is read back as that payload when it nests at most
127 arrays and objects, and as no payload when it nests more. -/
theorem text_roundTrip (p : Payload) (h : p.toJson.floatFree = true) :
    parse? p.text = if p.toJson.depth ≤ 127 then some p else none := by
  apply Option.map_injective fun _ _ ↦ eq_of_entries_eq
  calc (parse? p.text).map entries
    _ = (if p.toJson.depth ≤ 127 then some p.toJson else none).bind Json.fields? := by
      rw [map_parse?, text, Json.parse?_text p.canonical_toJson h]
      rfl
    _ = (if p.toJson.depth ≤ 127 then some p else none).map entries := by
      split <;> rfl

/-- A payload whose names and strings need escapes, with the least and the greatest integer. -/
def escapedPayload : Payload :=
  ((unit.set "team \"\\core\x7f" ⟨.ofInt (-Nat.pow 2 63), by decide⟩).set "größe\n\x01"
    ⟨.ofNat (Nat.pow 2 64 - 1), by decide⟩).set "" ⟨.array [.object [("\t", .string "\x00€\x1f"),
      ("😀", .null)], .bool true], by decide⟩

theorem text_roundTrip_escapedPayload : escapedPayload.toJson.floatFree = true ∧
    escapedPayload.toJson.depth = 3 ∧ parse? escapedPayload.text = some escapedPayload :=
  have hfree : escapedPayload.toJson.floatFree = true := by decide +kernel
  have hdepth : escapedPayload.toJson.depth = 3 := by decide +kernel
  ⟨hfree, hdepth, by
    rw [text_roundTrip escapedPayload hfree, hdepth]
    rfl⟩

end RoleResolution.Payload

import RoleResolution.Json.Number
import RoleResolution.Json.Parser

/-!
# From documents to values

Reading gives every literal its meaning. Two hexadecimal escapes that form a surrogate pair
denote one character, any other surrogate denotes none; a numeral must have a finite value; of
repeated names the last one counts. A text may nest at most 127 arrays and objects.
-/

namespace RoleResolution.Json

/-- The number of arrays and objects that may be open at one place. -/
def depthLimit : Nat := 127

/-- Whether a 16-bit unit is the first half of a surrogate pair. -/
def isLeading (code : Nat) : Bool := 0xD800 ≤ code && code < 0xDC00

/-- Whether a 16-bit unit is the second half of a surrogate pair. -/
def isTrailing (code : Nat) : Bool := 0xDC00 ≤ code && code < 0xE000

/-- The characters that the pieces of a string denote. -/
def charsOfPieces? : List Piece → Option (List Char)
  | [] => some []
  | .char c :: rest => (charsOfPieces? rest).map (c :: ·)
  | .unit code :: .unit next :: rest =>
    if isLeading code then
      if isTrailing next then
        let c := Char.ofNat (0x10000 + (code - 0xD800) * 0x400 + (next - 0xDC00))
        (charsOfPieces? rest).map (c :: ·)
      else none
    else if isTrailing code then none
    else (charsOfPieces? (.unit next :: rest)).map (Char.ofNat code :: ·)
  | .unit code :: rest =>
    if isLeading code || isTrailing code then none
    else (charsOfPieces? rest).map (Char.ofNat code :: ·)

/-- The text that the pieces of a string denote. -/
def textOfPieces? (pieces : List Piece) : Option String :=
  (charsOfPieces? pieces).map String.ofList

namespace Document

mutual

/-- The value of a document, whatever its depth. -/
def value? : Document → Option Json
  | .null => some .null
  | .bool b => some (.bool b)
  | .number n => n.number?.map .number
  | .string pieces => (textOfPieces? pieces).map .string
  | .array items => (valueOfItems? items).map .array
  | .object members => (valueOfMembers? members).map fun fields ↦ .object (sortFields fields)

/-- The values of array items. -/
def valueOfItems? : List Document → Option (List Json)
  | [] => some []
  | item :: rest => do
    let v ← item.value?
    let vs ← valueOfItems? rest
    some (v :: vs)

/-- The names and values of object members, as written. -/
def valueOfMembers? : List (List Piece × Document) → Option (List (String × Json))
  | [] => some []
  | (key, item) :: rest => do
    let name ← textOfPieces? key
    let v ← item.value?
    let vs ← valueOfMembers? rest
    some ((name, v) :: vs)

end

/-- The value of a document that does not nest too deeply. -/
def read? (d : Document) : Option Json :=
  if d.depth ≤ depthLimit then d.value? else none

end Document

/-- The integer of a numeral fits 64 bits. -/
theorem Numeral.inRange_of_integer? {n : Numeral} {i : Int} (h : n.integer? = some i) :
    JsonNumber.InRange i := by
  unfold Numeral.integer? Numeral.signedInteger? at h
  unfold JsonNumber.InRange
  split at h
  · split at h
    · split at h
      · next hm =>
        cases h
        omega
      · cases h
    · split at h
      · next hm =>
        cases h
        omega
      · cases h
  · cases h

mutual

/-- Whatever a document denotes is canonical. -/
theorem canonical_of_value? : ∀ (d : Document) {v : Json}, d.value? = some v → v.Canonical
  | .null, v, h => by
    cases h
    trivial
  | .bool b, v, h => by
    cases h
    trivial
  | .number n, v, h => by
    simp only [Document.value?, Numeral.number?] at h
    cases hi : n.integer? with
    | some i =>
      rw [hi] at h
      cases h
      exact Numeral.inRange_of_integer? hi
    | none =>
      rw [hi] at h
      cases hx : n.float? with
      | none => simp [hx] at h
      | some x =>
        rw [hx] at h
        cases h
        trivial
  | .string pieces, v, h => by
    simp only [Document.value?, Option.map_eq_some_iff] at h
    obtain ⟨s, -, rfl⟩ := h
    trivial
  | .array items, v, h => by
    simp only [Document.value?, Option.map_eq_some_iff] at h
    obtain ⟨vs, hvs, rfl⟩ := h
    exact canonicalItems_iff.mpr (canonical_of_valueOfItems? items hvs)
  | .object members, v, h => by
    simp only [Document.value?, Option.map_eq_some_iff] at h
    obtain ⟨fields, hfields, rfl⟩ := h
    refine ⟨fieldsSorted_sortFields fields, canonicalFields_iff.mpr fun f hf ↦ ?_⟩
    exact canonical_of_valueOfMembers? members hfields f (mem_of_mem_sortFields hf)

/-- Whatever array items denote is canonical. -/
theorem canonical_of_valueOfItems? : ∀ (items : List Document) {vs : List Json},
    Document.valueOfItems? items = some vs → ∀ v ∈ vs, v.Canonical
  | [], vs, h => by
    cases h
    simp
  | item :: rest, vs, h => by
    simp only [Document.valueOfItems?, Option.bind_eq_bind, Option.bind_eq_some_iff,
      Option.some.injEq] at h
    obtain ⟨w, hw, ws, hws, rfl⟩ := h
    intro v hv
    rcases List.mem_cons.mp hv with rfl | hv
    · exact canonical_of_value? item hw
    · exact canonical_of_valueOfItems? rest hws v hv

/-- Whatever object members denote is canonical. -/
theorem canonical_of_valueOfMembers? : ∀ (members : List (List Piece × Document))
    {fields : List (String × Json)},
    Document.valueOfMembers? members = some fields → ∀ f ∈ fields, f.2.Canonical
  | [], fields, h => by
    cases h
    simp
  | (key, item) :: rest, fields, h => by
    simp only [Document.valueOfMembers?, Option.bind_eq_bind, Option.bind_eq_some_iff,
      Option.some.injEq] at h
    obtain ⟨name, -, w, hw, ws, hws, rfl⟩ := h
    intro f hf
    rcases List.mem_cons.mp hf with rfl | hf
    · exact canonical_of_value? item hw
    · exact canonical_of_valueOfMembers? rest hws f hf

end

/-- Whatever a document of admissible depth denotes is canonical. -/
theorem canonical_of_read? {d : Document} {v : Json} (h : d.read? = some v) :
    v.Canonical := by
  unfold Document.read? at h
  split at h
  · exact canonical_of_value? d h
  · cases h

/-- Read a JSON text. -/
def parse? (text : String) : Option Json := do
  let d ← Document.parse? text
  d.read?

/-- Whatever a JSON text denotes is canonical. -/
theorem canonical_of_parse? {text : String} {v : Json} (h : parse? text = some v) :
    v.Canonical := by
  simp only [parse?, Option.bind_eq_bind, Option.bind_eq_some_iff] at h
  obtain ⟨d, -, h⟩ := h
  exact canonical_of_read? h

end RoleResolution.Json

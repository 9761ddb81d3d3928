import RoleResolution.MatchedRule
import RoleResolution.Proofs.Json.ObjectText
import RoleResolution.Proofs.Json.Printing

/-!
# Rules on the wire

A rule whose position fits 64 bits is read back from its wire form, and every rule that is read at
all is one of these. The members that do not belong to the rule have no part in it: wherever one is
put into the text of an object, the same rule is read.
-/

namespace RoleResolution

open Json Json.Document

/-! ### Members side by side -/

theorem Json.Document.valueOfMembers?_append (before after : List (List Piece × Document)) :
    valueOfMembers? (before ++ after) =
      (valueOfMembers? before).bind fun fields ↦ (valueOfMembers? after).map (fields ++ ·) := by
  induction before with
  | nil => simp [valueOfMembers?]
  | cons m rest ih =>
    obtain ⟨key, value⟩ := m
    simp only [List.cons_append, valueOfMembers?, ih]
    cases textOfPieces? key with
    | none => rfl
    | some name =>
      cases value.value? with
      | none => rfl
      | some v =>
        cases valueOfMembers? rest <;> cases valueOfMembers? after <;> rfl

theorem Json.Document.depthOfMembers_append (before after : List (List Piece × Document)) :
    depthOfMembers (before ++ after) = max (depthOfMembers before) (depthOfMembers after) := by
  induction before with
  | nil => simp [depthOfMembers]
  | cons m rest ih =>
    obtain ⟨key, value⟩ := m
    rw [List.cons_append, depthOfMembers, depthOfMembers, ih, Nat.max_assoc]

namespace MatchedRule

/-- A text of an object gives the rule of its members, unless these nest too deeply. -/
theorem parse?_of_object {text : String} {members : List (List Piece × Document)}
    (h : Document.parse? text = some (.object members)) :
    parse? text = if depthOfMembers members < depthLimit then
      (valueOfMembers? members).bind ofMembers? else none := by
  rw [parse?, h]
  rfl

/-! ### Rules are read back -/

/-- The position of a rule fits 64 bits. -/
def InRange : MatchedRule → Prop
  | .identity | .unconditionalPass => True
  | .attributeRule index | .delegatedPredicate index => index < Nat.pow 2 64

/-- The members of the wire form. -/
def fields : MatchedRule → List (String × Json)
  | .identity => [("type", .string Form.identity.name)]
  | .unconditionalPass => [("type", .string Form.unconditionalPass.name)]
  | .attributeRule index => [("type", .string Form.attributeRule.name), ("index", .ofNat index)]
  | .delegatedPredicate index =>
    [("type", .string Form.delegatedPredicate.name), ("index", .ofNat index)]

variable {r : MatchedRule}

theorem toJson_eq (r : MatchedRule) : r.toJson = .object r.fields := by
  cases r <;> rfl

theorem ofMembers?_fields (r : MatchedRule) : ofMembers? r.fields = some r := by
  cases r <;> rfl

theorem depthOfFields_fields (r : MatchedRule) : depthOfFields r.fields = 0 := by
  cases r <;> rfl

theorem floatFree_fields (r : MatchedRule) : floatFreeFields r.fields = true := by
  cases r <;> rfl

theorem inRange_ofNat {n : Nat} : JsonNumber.InRange n ↔ n < Nat.pow 2 64 := by
  constructor
  · rintro ⟨-, h⟩
    exact Int.ofNat_lt.mp h
  · intro h
    exact ⟨by omega, Int.ofNat_lt.mpr h⟩

theorem canonical_fields (h : r.InRange) : CanonicalFields r.fields := by
  cases r with
  | identity | unconditionalPass => exact ⟨trivial, trivial⟩
  | attributeRule index | delegatedPredicate index =>
    exact ⟨trivial, inRange_ofNat.mpr h, trivial⟩

/-- A rule is read back from its wire form. -/
theorem parse?_text (h : r.InRange) : parse? r.text = some r := by
  obtain ⟨members, hprinted⟩ :=
    exists_fieldsPrintedAs r.fields (canonical_fields h) r.floatFree_fields
  have hobject : Document.parse? r.text = some (.object members) := by
    rw [text, toJson_eq, parse?_text_object hprinted]
  have hdepth : depthOfMembers members < depthLimit := by
    rw [depthOfMembers_of_printedAs hprinted, depthOfFields_fields]
    decide
  rw [parse?_of_object hobject, if_pos hdepth, valueOfMembers?_of_printedAs hprinted,
    Option.bind_some, ofMembers?_fields]

/-! ### Rules that are read fit 64 bits -/

theorem inRange_of_indexOfJson? {v : Json} {index : Nat} (hv : v.Canonical)
    (h : indexOfJson? v = some index) : index < Nat.pow 2 64 := by
  unfold indexOfJson? at h
  split at h
  · cases h
    exact inRange_ofNat.mp hv
  · cases h

theorem mem_of_mem_valuesUnder {name : String} {members : List (String × Json)} {v : Json}
    (h : v ∈ valuesUnder name members) : ∃ m ∈ members, m.2 = v := by
  obtain ⟨m, hm, rfl⟩ := List.mem_map.mp h
  exact ⟨m, List.mem_of_mem_filter hm, rfl⟩

/-- A form gives a rule in range when its position is in range. -/
theorem inRange_of_rule? {form : Form} {index? : Option Nat}
    (hindex : ∀ index, index? = some index → index < Nat.pow 2 64)
    (h : form.rule? index? = some r) : r.InRange := by
  cases form with
  | identity | unconditionalPass =>
    cases h
    trivial
  | attributeRule | delegatedPredicate =>
    obtain ⟨index, hi, rfl⟩ := Option.map_eq_some_iff.mp h
    exact hindex index hi

/-- A form with the position that a value gives is a rule in range. -/
theorem inRange_of_index {form : Form} {v : Json} (hv : v.Canonical)
    (h : ((indexOfJson? v).bind fun index ↦ form.rule? (some index)) = some r) : r.InRange := by
  obtain ⟨index, hindex, hrule⟩ := Option.bind_eq_some_iff.mp h
  refine inRange_of_rule? (fun index' h' ↦ ?_) hrule
  cases h'
  exact inRange_of_indexOfJson? hv hindex

theorem inRange_of_ofMembers? {members : List (String × Json)}
    (hc : ∀ m ∈ members, m.2.Canonical) (h : ofMembers? members = some r) : r.InRange := by
  unfold ofMembers? at h
  split at h
  · obtain ⟨form, -, hform⟩ := Option.bind_eq_some_iff.mp h
    cases form with
    | identity | unconditionalPass => exact inRange_of_rule? (by simp) hform
    | attributeRule | delegatedPredicate =>
      simp only at hform
      split at hform
      · next i hi =>
        obtain ⟨m, hm, rfl⟩ := mem_of_mem_valuesUnder (hi ▸ List.mem_singleton_self i)
        exact inRange_of_index (hc m hm) hform
      · cases hform
  · cases h

theorem inRange_of_ofItems? {items : List Json} (hc : ∀ v ∈ items, v.Canonical)
    (h : ofItems? items = some r) : r.InRange := by
  unfold ofItems? at h
  split at h
  · obtain ⟨form, -, hform⟩ := Option.bind_eq_some_iff.mp h
    exact inRange_of_rule? (by simp) hform
  · next i =>
    obtain ⟨form, -, hform⟩ := Option.bind_eq_some_iff.mp h
    cases form with
    | identity | unconditionalPass => cases hform
    | attributeRule | delegatedPredicate => exact inRange_of_index (hc i (by simp)) hform
  · cases h

/-- Every rule that is read is in range. -/
theorem inRange_of_parse? {text : String} (h : parse? text = some r) : r.InRange := by
  obtain ⟨d, -, hd⟩ := Option.bind_eq_some_iff.mp h
  split at hd
  · cases d with
    | object members =>
      obtain ⟨fields, hfields, hrule⟩ := Option.bind_eq_some_iff.mp hd
      exact inRange_of_ofMembers? (canonical_of_valueOfMembers? members hfields) hrule
    | array items =>
      obtain ⟨vs, hvs, hrule⟩ := Option.bind_eq_some_iff.mp hd
      exact inRange_of_ofItems? (canonical_of_valueOfItems? items hvs) hrule
    | _ => cases hd
  · cases hd

/-! ### Other members -/

variable {before after : List (String × Json)} {name : String} {v : Json}

theorem valuesUnder_of_ne {wanted : String} (h : name ≠ wanted) :
    valuesUnder wanted (before ++ (name, v) :: after) = valuesUnder wanted (before ++ after) := by
  simp [valuesUnder, h]

/-- A member with another name than those of the form and the position does not count. -/
theorem ofMembers?_other (htype : name ≠ "type") (hindex : name ≠ "index") :
    ofMembers? (before ++ (name, v) :: after) = ofMembers? (before ++ after) := by
  rw [ofMembers?, ofMembers?, valuesUnder_of_ne htype, valuesUnder_of_ne hindex]

/-- A further member with another name, anywhere between the others, does not change the rule; a
value that nests too deeply makes the text unreadable. -/
theorem parse?_insert (o : ObjectText) (i : Nat) (m : MemberText)
    (hname : textOfPieces? m.key = some name) (htype : name ≠ "type") (hindex : name ≠ "index")
    (hv : m.value.value? = some v) :
    parse? (o.insert i m).text =
      if m.value.depth < depthLimit then parse? o.text else none := by
  have hsplit : o.documents =
      (o.members.take i).map MemberText.document ++ (o.members.drop i).map MemberText.document := by
    rw [← List.map_append, List.take_append_drop, ObjectText.documents]
  have hinsert : (o.insert i m).documents =
      (o.members.take i).map MemberText.document ++
        m.document :: (o.members.drop i).map MemberText.document := by
    simp [ObjectText.documents, ObjectText.insert]
  rw [parse?_of_object (o.insert i m).parse?_text, parse?_of_object o.parse?_text, hinsert, hsplit]
  -- The place of the new member plays no part from here on.
  generalize (o.members.take i).map MemberText.document = before
  generalize (o.members.drop i).map MemberText.document = after
  have hdepth : depthOfMembers (before ++ m.document :: after) =
      max m.value.depth (depthOfMembers (before ++ after)) := by
    rw [depthOfMembers_append, depthOfMembers_append, MemberText.document, depthOfMembers,
      Nat.max_left_comm]
  have hrule : (valueOfMembers? (before ++ m.document :: after)).bind ofMembers? =
      (valueOfMembers? (before ++ after)).bind ofMembers? := by
    rw [valueOfMembers?_append, valueOfMembers?_append, MemberText.document, valueOfMembers?,
      hname, hv]
    cases valueOfMembers? before with
    | none => rfl
    | some fields =>
      cases valueOfMembers? after with
      | none => rfl
      | some fields' => exact ofMembers?_other htype hindex
  rw [hdepth, hrule]
  by_cases hm : m.value.depth < depthLimit
  · simp [hm]
  · rw [if_neg hm, if_neg fun h ↦ hm (Nat.lt_of_le_of_lt (Nat.le_max_left _ _) h)]

/-- A rule whose position fits 64 bits is read back from its wire form. So is every rule that was
read, whatever text it was read from. A text of an object has its members in any order, and
wherever a further one with another name than those of the form and the position is put between
them, the same rule is read, as long as its value nests within the limit. -/
theorem wireForm_faithful :
    (∀ r : MatchedRule, r.InRange → parse? r.text = some r) ∧
    (∀ text r, parse? text = some r → parse? r.text = some r) ∧
    (∀ text members, Document.parse? text = some (.object members) →
      ∃ o : ObjectText, o.text = text ∧ o.documents = members) ∧
    ∀ (o : ObjectText) (i : Nat) (m : MemberText) (name : String) (v : Json),
      textOfPieces? m.key = some name → name ≠ "type" → name ≠ "index" →
      m.value.value? = some v →
      parse? (o.insert i m).text =
        if m.value.depth < depthLimit then parse? o.text else none := by
  refine ⟨fun r ↦ parse?_text, ?_, fun text members ↦ exists_objectText, ?_⟩
  · intro text r h
    exact parse?_text (inRange_of_parse? h)
  · intro o i m name v hname htype hindex hv
    exact parse?_insert o i m hname htype hindex hv

/-- A member whose texts have the given tokens. -/
def member (keyText valueText : String) (key : List Piece) (value : Document)
    (hkey : tokens? keyText.toList = some [.string key])
    (hvalue : tokens? valueText.toList = some value.tokens) : MemberText :=
  ⟨keyText, valueText, key, value, parse?_eq_some_iff.mpr hkey, parse?_eq_some_iff.mpr hvalue⟩

/-- A rule that is written with its position first. -/
def indexFirst : ObjectText where
  lead := ""
  gap := " "
  members := [
    member "\"index\"" "7" ("index".toList.map .char) (.number ⟨false, [7], none, none⟩)
      (by decide +kernel) (by decide +kernel),
    member "\"type\" " " \"attribute_rule\" " ("type".toList.map .char)
      (.string ("attribute_rule".toList.map .char)) (by decide +kernel) (by decide +kernel)]
  trail := "\n"
  blank_lead := by simp
  blank_gap := by simp [isBlank]
  blank_trail := by simp [isBlank]

/-- A further member, which holds an object with a form itself. -/
def remark : MemberText :=
  member "\"remark\"" "\x7b\"type\": 0\x7d" ("remark".toList.map .char)
    (.object [("type".toList.map .char, .number ⟨false, [0], none, none⟩)])
    (by decide +kernel) (by decide +kernel)

theorem wireForm_faithful_indexFirst :
    indexFirst.text = "\x7b \"index\":7,\"type\" : \"attribute_rule\" \x7d\n" ∧
    (indexFirst.insert 1 remark).text =
      "\x7b \"index\":7,\"remark\":\x7b\"type\": 0\x7d,\"type\" : \"attribute_rule\" \x7d\n" ∧
    parse? indexFirst.text = some (.attributeRule 7) ∧
    parse? (attributeRule 7).text = some (.attributeRule 7) ∧
    parse? (indexFirst.insert 1 remark).text = some (.attributeRule 7) ∧
    (∃ o : ObjectText, o.text = identity.text ∧ o.members.length = 1) ∧
    parse? (delegatedPredicate (Nat.pow 2 64 - 1)).text =
      some (.delegatedPredicate (Nat.pow 2 64 - 1)) := by
  obtain ⟨hwritten, hread, hobject, hother⟩ := wireForm_faithful
  have hrule : parse? indexFirst.text = some (.attributeRule 7) := by
    rw [parse?_of_object indexFirst.parse?_text]
    decide +kernel
  have hremark := hother indexFirst 1 remark "remark" (.object [("type", .ofNat 0)])
    rfl (by decide) (by decide) rfl
  have hdepth : remark.value.depth < depthLimit := by decide +kernel
  have hidentity : Document.parse? identity.text =
      some (.object [("type".toList.map .char, .string ("identity".toList.map .char))]) :=
    parse?_eq_some_iff.mpr (by decide +kernel)
  refine ⟨by decide +kernel, by decide +kernel, hrule, hread _ _ hrule, ?_, ?_, ?_⟩
  · rw [hremark, if_pos hdepth, hrule]
  · obtain ⟨o, ho, hmembers⟩ := hobject _ _ hidentity
    exact ⟨o, ho, by simpa [ObjectText.documents] using congrArg List.length hmembers⟩
  · exact hwritten _ (show Nat.pow 2 64 - 1 < Nat.pow 2 64 by decide)

end MatchedRule
end RoleResolution

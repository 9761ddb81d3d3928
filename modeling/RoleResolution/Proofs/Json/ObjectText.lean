import RoleResolution.Proofs.Json.Lexing
import RoleResolution.Proofs.Json.Parsing

/-!
# Texts of objects

A text is read as an object exactly when it is made of braces, the texts of the members with commas
between them, and white space. So a member can be put anywhere between the others.
-/

namespace RoleResolution.Json

/-- A member of an object as it is written: a text that is read as a string before the colon, a
text that is read as a value after it. White space around either belongs to these texts. -/
structure MemberText where
  keyText : String
  valueText : String
  key : List Piece
  value : Document
  read_key : Document.parse? keyText = some (.string key)
  read_value : Document.parse? valueText = some value

namespace MemberText

/-- The characters of a member. -/
def chars (m : MemberText) : List Char := m.keyText.toList ++ ':' :: m.valueText.toList

/-- The key and the value of a member. -/
def document (m : MemberText) : List Piece × Document := (m.key, m.value)

/-- Members with commas between them. -/
def charsOfMembers : List MemberText → List Char
  | [] => []
  | [m] => m.chars
  | m :: rest => m.chars ++ ',' :: charsOfMembers rest

end MemberText

/-- The text of an object as it is written. -/
structure ObjectText where
  /-- The white space before the object. -/
  lead : String
  /-- White space after the opening brace that does not belong to the first member. -/
  gap : String
  members : List MemberText
  /-- The white space after the object. -/
  trail : String
  blank_lead : ∀ c ∈ lead.toList, isBlank c = true
  blank_gap : ∀ c ∈ gap.toList, isBlank c = true
  blank_trail : ∀ c ∈ trail.toList, isBlank c = true

namespace ObjectText

/-- The text between the braces. -/
def inner (o : ObjectText) : List Char := o.gap.toList ++ MemberText.charsOfMembers o.members

/-- The whole text. -/
def text (o : ObjectText) : String :=
  String.ofList (o.lead.toList ++ '{' :: (o.inner ++ '}' :: o.trail.toList))

/-- The keys and values of the members. -/
def documents (o : ObjectText) : List (List Piece × Document) :=
  o.members.map MemberText.document

/-- Put a further member after the first `i` ones. -/
def insert (o : ObjectText) (i : Nat) (m : MemberText) : ObjectText :=
  { o with members := o.members.take i ++ m :: o.members.drop i }

end ObjectText

/-! ### Texts of objects are read -/

open Document MemberText

theorem MemberText.tokens?_chars (m : MemberText) :
    tokens? m.chars = some (.string m.key :: .colon :: m.value.tokens) := by
  have hkey := parse?_eq_some_iff.mp m.read_key
  have hvalue := parse?_eq_some_iff.mp m.read_value
  exact tokens?_append_of_eq_some .colon hkey hvalue

/-- Members are read in the order in which they are written. -/
theorem tokens?_charsOfMembers (ms : List MemberText) :
    tokens? (charsOfMembers ms) = some (tokensOfMembers (ms.map document)) := by
  induction ms with
  | nil => rfl
  | cons m rest ih =>
    cases rest with
    | nil =>
      rw [charsOfMembers, m.tokens?_chars]
      simp [document, tokensOfMembers, tokensOfMoreMembers]
    | cons next rest =>
      rw [charsOfMembers, tokens?_append_of_eq_some .comma m.tokens?_chars ih]
      · simp [document, tokensOfMembers, tokensOfMoreMembers]
      · exact List.cons_ne_nil next rest

/-- The text of an object is read as an object with the members that are written. -/
theorem ObjectText.parse?_text (o : ObjectText) :
    Document.parse? o.text = some (.object o.documents) := by
  have hlead := tokens?_eq_nil_iff.mpr o.blank_lead
  have htrail := tokens?_eq_nil_iff.mpr o.blank_trail
  have hinner : tokens? o.inner = some (tokensOfMembers o.documents) := by
    rw [inner, tokens?_append_of_blank o.blank_gap]
    exact tokens?_charsOfMembers o.members
  rw [parse?_eq_some_iff, text, String.toList_ofList]
  have hclose := tokens?_append_of_eq_some .closeBrace hinner htrail
  exact tokens?_append_of_eq_some .openBrace hlead hclose

/-! ### Only texts of objects are read as objects -/

/-- A text that is read as a member consists of the texts of its key and its value. -/
theorem MemberText.exists_of_tokens? {keyChars valueChars : List Char} {key : List Piece}
    {value : Document} (hkey : tokens? keyChars = some [.string key])
    (hvalue : tokens? valueChars = some value.tokens) :
    ∃ m : MemberText, m.document = (key, value) ∧ m.chars = keyChars ++ ':' :: valueChars := by
  have hread : Document.parse? (String.ofList keyChars) = some (.string key) := by
    rwa [parse?_eq_some_iff, String.toList_ofList]
  have hread' : Document.parse? (String.ofList valueChars) = some value := by
    rwa [parse?_eq_some_iff, String.toList_ofList]
  refine ⟨⟨String.ofList keyChars, String.ofList valueChars, key, value, hread, hread'⟩, rfl, ?_⟩
  rw [chars, String.toList_ofList, String.toList_ofList]

/-- A text with the tokens of members is made of members. -/
theorem exists_charsOfMembers {body : List Char} {ms : List (List Piece × Document)}
    (hne : ms ≠ []) (h : tokens? body = some (tokensOfMembers ms)) :
    ∃ members, members.map document = ms ∧ charsOfMembers members = body := by
  induction ms generalizing body with
  | nil => exact absurd rfl hne
  | cons first rest ih =>
    obtain ⟨key, value⟩ := first
    have hcolon : tokens? body =
        some ([.string key] ++ .colon :: (value.tokens ++ tokensOfMoreMembers rest)) := h
    obtain ⟨keyChars, more, rfl, hkey, hmore⟩ := exists_of_tokens?_append .colon hcolon
    cases rest with
    | nil =>
      rw [tokensOfMoreMembers, List.append_nil] at hmore
      obtain ⟨m, hm, hchars⟩ := MemberText.exists_of_tokens? hkey hmore
      exact ⟨[m], congrArg (fun e ↦ [e]) hm, hchars⟩
    | cons second rest =>
      -- The text after the colon goes on with a comma and the other members.
      obtain ⟨valueChars, others, rfl, hvalue, hothers⟩ := exists_of_tokens?_append .comma hmore
      obtain ⟨m, hm, hchars⟩ := MemberText.exists_of_tokens? hkey hvalue
      obtain ⟨members, hmembers, hbody⟩ := ih (List.cons_ne_nil second rest) hothers
      refine ⟨m :: members, by rw [List.map_cons, hm, hmembers], ?_⟩
      cases members with
      | nil => cases hmembers
      | cons next members =>
        rw [charsOfMembers, hchars, hbody, List.append_assoc, List.cons_append]
        exact List.cons_ne_nil next members

/-- Every text that is read as an object is the text of an object with its members. -/
theorem exists_objectText {text : String} {ms : List (List Piece × Document)}
    (h : Document.parse? text = some (.object ms)) :
    ∃ o : ObjectText, o.text = text ∧ o.documents = ms := by
  rw [parse?_eq_some_iff] at h
  have hopen : tokens? text.toList =
      some ([] ++ .openBrace :: (tokensOfMembers ms ++ [.closeBrace])) := h
  obtain ⟨lead, rest, htext, hlead, hrest⟩ := exists_of_tokens?_append .openBrace hopen
  obtain ⟨body, trail, rfl, hbody, htrail⟩ := exists_of_tokens?_append .closeBrace hrest
  rw [tokens?_eq_nil_iff] at hlead htrail
  have hchars : text = String.ofList (lead ++ '{' :: (body ++ '}' :: trail)) := by
    rw [← htext, String.ofList_toList]
  by_cases hne : ms = []
  · subst hne
    have hgap := tokens?_eq_nil_iff.mp hbody
    refine ⟨⟨String.ofList lead, String.ofList body, [], String.ofList trail,
      by simpa using hlead, by simpa using hgap, by simpa using htrail⟩, ?_, rfl⟩
    simp [ObjectText.text, ObjectText.inner, charsOfMembers, hchars]
  · obtain ⟨members, hmembers, rfl⟩ := exists_charsOfMembers hne hbody
    refine ⟨⟨String.ofList lead, "", members, String.ofList trail,
      by simpa using hlead, by simp, by simpa using htrail⟩, ?_, hmembers⟩
    simp [ObjectText.text, ObjectText.inner, hchars]

end RoleResolution.Json

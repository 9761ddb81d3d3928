import Mathlib.Data.List.Induction
import RoleResolution.Json.Parser

/-!
# Documents and their tokens

Every document has one sequence of tokens, and the parser takes a sequence of tokens exactly when it
is the one of a document. In the one direction a document's tokens are read whatever is still open
around it; in the other, every state of the parser determines the tokens that were read up to it.
-/

namespace RoleResolution.Json

namespace Document

mutual

/-- The tokens of a document. -/
def tokens : Document → List Token
  | .null => [.null]
  | .bool b => [.bool b]
  | .number n => [.number n]
  | .string pieces => [.string pieces]
  | .array items => .openBracket :: (tokensOfItems items ++ [.closeBracket])
  | .object members => .openBrace :: (tokensOfMembers members ++ [.closeBrace])

/-- The tokens of array items, separated by commas. -/
def tokensOfItems : List Document → List Token
  | [] => []
  | item :: rest => item.tokens ++ tokensOfMoreItems rest

/-- The tokens of further items, each after its comma. -/
def tokensOfMoreItems : List Document → List Token
  | [] => []
  | item :: rest => .comma :: (item.tokens ++ tokensOfMoreItems rest)

/-- The tokens of object members, separated by commas. -/
def tokensOfMembers : List (List Piece × Document) → List Token
  | [] => []
  | (key, item) :: rest => .string key :: .colon :: (item.tokens ++ tokensOfMoreMembers rest)

/-- The tokens of further members, each after its comma. -/
def tokensOfMoreMembers : List (List Piece × Document) → List Token
  | [] => []
  | (key, item) :: rest =>
    .comma :: .string key :: .colon :: (item.tokens ++ tokensOfMoreMembers rest)

end

/-! ### Documents are read -/

open ParseState

/-- The tokens of the first item are read as those of any value. -/
theorem foldlM_firstItem (d : Document) (stack : List OpenNode) (rest : List Token) :
    (d.tokens ++ rest).foldlM step (.firstItem stack) =
      (d.tokens ++ rest).foldlM step (.value (.array [] :: stack)) := by
  cases d <;> simp [tokens] <;> rfl

mutual

/-- After its tokens a document is put into the innermost open container. -/
theorem foldlM_tokens : ∀ (d : Document) (stack : List OpenNode) (rest : List Token),
    (d.tokens ++ rest).foldlM step (.value stack) = rest.foldlM step (place stack d)
  | .null, _, _ | .bool _, _, _ | .number _, _, _ | .string _, _, _ => rfl
  | .array [], _, _ | .object [], _, _ => rfl
  | .array (item :: items), stack, rest => by
    have hmore := foldlM_tokensOfMoreItems items [item] stack rest
    simp only [tokens, tokensOfItems, List.cons_append, List.append_assoc, List.nil_append]
    calc (item.tokens ++ (tokensOfMoreItems items ++ .closeBracket :: rest)).foldlM step
          (.firstItem stack)
      _ = (item.tokens ++ (tokensOfMoreItems items ++ .closeBracket :: rest)).foldlM step
          (.value (.array [] :: stack)) := foldlM_firstItem item stack _
      _ = (tokensOfMoreItems items ++ .closeBracket :: rest).foldlM step
          (.afterItem stack [item]) := foldlM_tokens item (.array [] :: stack) _
      _ = rest.foldlM step (place stack (.array (item :: items))) := hmore
  | .object ((key, item) :: members), stack, rest => by
    have hmore := foldlM_tokensOfMoreMembers members [(key, item)] stack rest
    simp only [tokens, tokensOfMembers, List.cons_append, List.append_assoc, List.nil_append]
    calc (item.tokens ++ (tokensOfMoreMembers members ++ .closeBrace :: rest)).foldlM step
          (.value (.object [] key :: stack))
      _ = (tokensOfMoreMembers members ++ .closeBrace :: rest).foldlM step
          (.afterMember stack [(key, item)]) := foldlM_tokens item (.object [] key :: stack) _
      _ = rest.foldlM step (place stack (.object ((key, item) :: members))) := hmore

/-- Further items are added to those of an open array, and the array is closed. -/
theorem foldlM_tokensOfMoreItems : ∀ (items before : List Document) (stack : List OpenNode)
    (rest : List Token),
    (tokensOfMoreItems items ++ .closeBracket :: rest).foldlM step (.afterItem stack before) =
      rest.foldlM step (place stack (.array (before.reverse ++ items)))
  | [], before, stack, rest => by
    rw [List.append_nil]
    rfl
  | item :: items, before, stack, rest => by
    have hmore := foldlM_tokensOfMoreItems items (item :: before) stack rest
    rw [List.reverse_cons, List.append_assoc, List.singleton_append] at hmore
    rw [tokensOfMoreItems, List.cons_append, List.append_assoc]
    exact (foldlM_tokens item (.array before :: stack) _).trans hmore

/-- Further members are added to those of an open object, and the object is closed. -/
theorem foldlM_tokensOfMoreMembers : ∀ (members before : List (List Piece × Document))
    (stack : List OpenNode) (rest : List Token),
    (tokensOfMoreMembers members ++ .closeBrace :: rest).foldlM step (.afterMember stack before) =
      rest.foldlM step (place stack (.object (before.reverse ++ members)))
  | [], before, stack, rest => by
    rw [List.append_nil]
    rfl
  | (key, item) :: members, before, stack, rest => by
    have hmore := foldlM_tokensOfMoreMembers members ((key, item) :: before) stack rest
    rw [List.reverse_cons, List.append_assoc, List.singleton_append] at hmore
    rw [tokensOfMoreMembers, List.cons_append, List.cons_append, List.cons_append,
      List.append_assoc]
    exact (foldlM_tokens item (.object before key :: stack) _).trans hmore

end

/-- A document is read from its tokens. -/
theorem ofTokens?_tokens (d : Document) : ofTokens? d.tokens = some d := by
  have h := foldlM_tokens d [] []
  rw [List.append_nil] at h
  rw [ofTokens?, h]
  rfl

/-! ### Only documents are read -/

/-- The tokens of array items, each before its comma. -/
def tokensOfItemsSoFar (items : List Document) : List Token :=
  items.flatMap fun item ↦ item.tokens ++ [.comma]

/-- The tokens of object members, each before its comma. -/
def tokensOfMembersSoFar (members : List (List Piece × Document)) : List Token :=
  members.flatMap fun m ↦ .string m.1 :: .colon :: (m.2.tokens ++ [.comma])

/-- The last item of an array comes after the others and their commas. -/
theorem tokensOfItems_concat (items : List Document) (last : Document) :
    tokensOfItems (items ++ [last]) = tokensOfItemsSoFar items ++ last.tokens := by
  have hmore (items : List Document) : tokensOfMoreItems (items ++ [last]) =
      .comma :: (tokensOfItemsSoFar items ++ last.tokens) := by
    induction items with
    | nil => simp [tokensOfMoreItems, tokensOfItemsSoFar]
    | cons item rest ih => simp [tokensOfMoreItems, ih, tokensOfItemsSoFar]
  cases items with
  | nil => simp [tokensOfItems, tokensOfMoreItems, tokensOfItemsSoFar]
  | cons item rest => simp [tokensOfItems, hmore, tokensOfItemsSoFar]

/-- The last member of an object comes after the others and their commas. -/
theorem tokensOfMembers_concat (members : List (List Piece × Document)) (key : List Piece)
    (last : Document) :
    tokensOfMembers (members ++ [(key, last)]) =
      tokensOfMembersSoFar members ++ .string key :: .colon :: last.tokens := by
  have hmore (members : List (List Piece × Document)) :
      tokensOfMoreMembers (members ++ [(key, last)]) =
        .comma :: (tokensOfMembersSoFar members ++ .string key :: .colon :: last.tokens) := by
    induction members with
    | nil => simp [tokensOfMoreMembers, tokensOfMembersSoFar]
    | cons m rest ih => simp [tokensOfMoreMembers, ih, tokensOfMembersSoFar]
  cases members with
  | nil => simp [tokensOfMembers, tokensOfMoreMembers, tokensOfMembersSoFar]
  | cons m rest => simp [tokensOfMembers, hmore, tokensOfMembersSoFar]

end Document

open Document

/-- The tokens of the containers that are still open, the innermost first. -/
def OpenNode.tokens : List OpenNode → List Token
  | [] => []
  | .array items :: outer => tokens outer ++ .openBracket :: tokensOfItemsSoFar items.reverse
  | .object members key :: outer =>
    tokens outer ++ .openBrace :: (tokensOfMembersSoFar members.reverse ++ [.string key, .colon])

namespace ParseState

/-- The tokens that lead to a state of the parser. -/
def tokens : ParseState → List Token
  | .value stack => OpenNode.tokens stack
  | .firstItem stack => OpenNode.tokens stack ++ [.openBracket]
  | .nextKey stack members =>
    OpenNode.tokens stack ++ .openBrace :: tokensOfMembersSoFar members.reverse
  | .colon stack members key =>
    OpenNode.tokens stack ++ .openBrace :: (tokensOfMembersSoFar members.reverse ++ [.string key])
  | .afterItem stack items => OpenNode.tokens stack ++ .openBracket :: tokensOfItems items.reverse
  | .afterMember stack members =>
    OpenNode.tokens stack ++ .openBrace :: tokensOfMembers members.reverse
  | .done d => d.tokens

/-- A comma or an end is awaited only after an item or a member. -/
def Sound : ParseState → Prop
  | .afterItem _ items => items ≠ []
  | .afterMember _ members => members ≠ []
  | _ => True

variable {s s' : ParseState} {t : Token}

theorem sound_place (stack : List OpenNode) (d : Document) : (place stack d).Sound := by
  rcases stack with _ | ⟨_ | _, outer⟩ <;> simp [place, Sound]

/-- The tokens of a document come last when it is put into the innermost open container. -/
theorem tokens_place (stack : List OpenNode) (d : Document) :
    (place stack d).tokens = OpenNode.tokens stack ++ d.tokens := by
  rcases stack with _ | ⟨items | ⟨members, key⟩, outer⟩
  · rfl
  · simp [place, tokens, OpenNode.tokens, tokensOfItems_concat]
  · simp [place, tokens, OpenNode.tokens, tokensOfMembers_concat]

theorem valueStep_tokens {stack : List OpenNode} (h : valueStep stack t = some s') :
    s'.Sound ∧ s'.tokens = OpenNode.tokens stack ++ [t] := by
  cases t with
  | null => cases h; exact ⟨sound_place stack .null, tokens_place stack .null⟩
  | bool b => cases h; exact ⟨sound_place stack (.bool b), tokens_place stack (.bool b)⟩
  | number n => cases h; exact ⟨sound_place stack (.number n), tokens_place stack (.number n)⟩
  | string pieces =>
    cases h
    exact ⟨sound_place stack (.string pieces), tokens_place stack (.string pieces)⟩
  | openBracket => cases h; exact ⟨trivial, rfl⟩
  | openBrace => cases h; exact ⟨trivial, rfl⟩
  | _ => cases h

/-- Every token that is read is the last of those that lead to the next state. -/
theorem step_tokens (hs : s.Sound) (h : s.step t = some s') :
    s'.Sound ∧ s'.tokens = s.tokens ++ [t] := by
  cases s with
  | value stack => exact valueStep_tokens h
  | firstItem stack =>
    simp only [step] at h
    split at h
    · next ht =>
      cases h
      refine ⟨sound_place stack (.array []), ?_⟩
      rw [tokens_place]
      simp [tokens, Document.tokens, tokensOfItems, ht]
    · obtain ⟨hsound, htokens⟩ := valueStep_tokens h
      exact ⟨hsound, by simpa [tokens, OpenNode.tokens, tokensOfItemsSoFar] using htokens⟩
  | nextKey stack members =>
    cases t with
    | string pieces => cases h; exact ⟨trivial, by simp [tokens]⟩
    | closeBrace =>
      simp only [step] at h
      split at h
      · next hmembers =>
        cases h
        refine ⟨sound_place stack (.object []), ?_⟩
        rw [tokens_place]
        simp [tokens, Document.tokens, tokensOfMembers, tokensOfMembersSoFar,
          List.isEmpty_iff.mp hmembers]
      · cases h
    | _ => cases h
  | colon stack members key =>
    simp only [step] at h
    split at h
    · next ht =>
      cases h
      exact ⟨trivial, by simp [tokens, OpenNode.tokens, ht]⟩
    · cases h
  | afterItem stack items =>
    obtain ⟨last, before, rfl⟩ := List.exists_cons_of_ne_nil hs
    cases t with
    | comma =>
      cases h
      refine ⟨trivial, ?_⟩
      simp [tokens, OpenNode.tokens, tokensOfItems_concat, tokensOfItemsSoFar]
    | closeBracket =>
      cases h
      refine ⟨sound_place stack _, ?_⟩
      rw [tokens_place]
      simp [tokens, Document.tokens]
    | _ => cases h
  | afterMember stack members =>
    obtain ⟨⟨key, last⟩, before, rfl⟩ := List.exists_cons_of_ne_nil hs
    cases t with
    | comma =>
      cases h
      refine ⟨trivial, ?_⟩
      simp [tokens, tokensOfMembers_concat, tokensOfMembersSoFar]
    | closeBrace =>
      cases h
      refine ⟨sound_place stack _, ?_⟩
      rw [tokens_place]
      simp [tokens, Document.tokens]
    | _ => cases h
  | done d => cases h

/-- The tokens that are read from the beginning lead to the state that is reached. -/
theorem foldlM_step_tokens {ts : List Token} (h : ts.foldlM step (.value []) = some s) :
    s.Sound ∧ s.tokens = ts := by
  induction ts using List.reverseRecOn generalizing s with
  | nil =>
    cases h
    exact ⟨trivial, rfl⟩
  | append_singleton ts t ih =>
    rw [List.foldlM_append] at h
    obtain ⟨s', hs', ht⟩ := Option.bind_eq_some_iff.mp h
    simp only [List.foldlM_cons, List.foldlM_nil, bind_pure] at ht
    obtain ⟨hsound, htokens⟩ := ih hs'
    rw [← htokens]
    exact step_tokens hsound ht

end ParseState

/-- A sequence of tokens is read exactly when it is the one of the document. -/
theorem Document.ofTokens?_eq_some_iff {ts : List Token} {d : Document} :
    ofTokens? ts = some d ↔ ts = d.tokens := by
  constructor
  · intro h
    obtain ⟨s, hs, hd⟩ := Option.bind_eq_some_iff.mp h
    obtain ⟨-, htokens⟩ := ParseState.foldlM_step_tokens hs
    cases s with
    | done d' =>
      cases hd
      exact htokens.symm
    | _ => cases hd
  · rintro rfl
    exact ofTokens?_tokens d

/-- A text is read as a document exactly when its tokens are those of the document. -/
theorem Document.parse?_eq_some_iff {text : String} {d : Document} :
    Document.parse? text = some d ↔ tokens? text.toList = some d.tokens := by
  simp only [Document.parse?, Option.bind_eq_bind, Option.bind_eq_some_iff, ofTokens?_eq_some_iff]
  constructor
  · rintro ⟨ts, hts, rfl⟩
    exact hts
  · intro h
    exact ⟨d.tokens, h, rfl⟩

end RoleResolution.Json

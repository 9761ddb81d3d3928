import Mathlib.Data.List.Induction
import RoleResolution.Json.Token

/-!
# Texts in pieces

A text can be cut at its punctuation: the tokens on both sides of a bracket, a brace, a colon or a
comma are those of the two pieces. This holds in both directions, so a text with given tokens is
made of pieces that have these tokens. A text without tokens is white space.
-/

namespace RoleResolution.Json

/-- A character that is a token of its own. -/
inductive Punctuates : Char → Token → Prop where
  | openBracket : Punctuates '[' .openBracket
  | closeBracket : Punctuates ']' .closeBracket
  | openBrace : Punctuates '{' .openBrace
  | closeBrace : Punctuates '}' .closeBrace
  | colon : Punctuates ':' .colon
  | comma : Punctuates ',' .comma

/-- Whether a token is punctuation. -/
def Token.isPunctuation : Token → Bool
  | .openBracket | .closeBracket | .openBrace | .closeBrace | .colon | .comma => true
  | .null | .bool _ | .number _ | .string _ => false

theorem Punctuates.isPunctuation {c : Char} {t : Token} (h : Punctuates c t) :
    t.isPunctuation = true := by
  cases h <;> rfl

theorem Punctuates.unique {c c' : Char} {t : Token} (h : Punctuates c t) (h' : Punctuates c' t) :
    c = c' := by
  cases h <;> cases h' <;> rfl

namespace LexState

/-- A state with further tokens before those that were read. -/
def behind (before : List Token) (s : LexState) : LexState := ⟨s.tokens ++ before, s.pending⟩

variable {s s' : LexState} {before : List Token}

theorem idleStep_behind (before : List Token) (s : LexState) (c : Char) :
    (s.behind before).idleStep c = (s.idleStep c).map (·.behind before) := by
  simp only [idleStep, apply_ite (Option.map (behind before)), Option.map_some, Option.map_none]
  rfl

theorem finishToken?_behind (before : List Token) (s : LexState) :
    (s.behind before).finishToken? = s.finishToken?.map (·.behind before) := by
  obtain ⟨tokens, pending⟩ := s
  cases pending with
  | word letters =>
    simp only [finishToken?, behind]
    cases wordToken? letters.reverse <;> rfl
  | numeral chars =>
    simp only [finishToken?, behind]
    cases Numeral.ofChars? chars.reverse <;> rfl
  | _ => rfl

theorem finishToken?_bind_behind (before : List Token) (s : LexState) (c : Char) :
    ((s.behind before).finishToken?.bind (·.idleStep c)) =
      (s.finishToken?.bind (·.idleStep c)).map (·.behind before) := by
  rw [finishToken?_behind]
  cases s.finishToken? with
  | none => rfl
  | some s' => exact idleStep_behind before s' c

/-- The tokens that were read before do not matter for reading on. -/
theorem step_behind (before : List Token) (s : LexState) (c : Char) :
    (s.behind before).step c = (s.step c).map (·.behind before) := by
  obtain ⟨tokens, pending⟩ := s
  cases pending with
  | idle => exact idleStep_behind before ⟨tokens, .idle⟩ c
  | word letters =>
    have hfinish := finishToken?_bind_behind before ⟨tokens, .word letters⟩ c
    simp only [step, behind] at hfinish ⊢
    split
    · rfl
    · exact hfinish
  | numeral chars =>
    have hfinish := finishToken?_bind_behind before ⟨tokens, .numeral chars⟩ c
    simp only [step, behind] at hfinish ⊢
    split
    · rfl
    · exact hfinish
  | string pieces =>
    simp only [step, behind]
    repeat' split
    all_goals rfl
  | escape pieces =>
    simp only [step, behind]
    split
    · rfl
    · cases escapedChar? c <;> rfl
  | hex pieces count code =>
    simp only [step, behind]
    cases Digit.hexValue? c with
    | none => rfl
    | some digit =>
      simp only [Option.bind_eq_bind, Option.bind_some]
      split <;> rfl

/-- The tokens that were read before do not matter for reading a text. -/
theorem foldlM_step_behind (before : List Token) (text : List Char) (s : LexState) :
    text.foldlM step (s.behind before) = (text.foldlM step s).map (·.behind before) := by
  induction text generalizing s with
  | nil => rfl
  | cons c rest ih =>
    rw [List.foldlM_cons, List.foldlM_cons, step_behind]
    cases s.step c with
    | none => rfl
    | some s' => exact ih s'

/-! ### Ends of tokens -/

/-- Punctuation between two tokens is a token. -/
theorem idleStep_of_punctuates {c : Char} {t : Token} (hc : Punctuates c t) (s : LexState) :
    s.idleStep c = some (s.emit t) := by
  cases hc <;> rfl

/-- Between two tokens a character is white space, begins a token or is punctuation. -/
theorem of_idleStep {c : Char} (h : s.idleStep c = some s') :
    (isBlank c = true ∧ s' = s) ∨ (s'.tokens = s.tokens ∧ s'.pending ≠ .idle) ∨
      ∃ t, Punctuates c t ∧ s' = s.emit t := by
  simp only [idleStep, ite_eq_iff, Option.some.injEq] at h
  rcases h with ⟨hblank, rfl⟩ | ⟨-, ⟨rfl, rfl⟩ | ⟨-, ⟨rfl, rfl⟩ | ⟨-, ⟨rfl, rfl⟩ |
    ⟨-, ⟨rfl, rfl⟩ | ⟨-, ⟨rfl, rfl⟩ | ⟨-, ⟨rfl, rfl⟩ | ⟨-, h⟩⟩⟩⟩⟩⟩⟩
  · exact .inl ⟨hblank, rfl⟩
  · exact .inr (.inr ⟨_, .openBracket, rfl⟩)
  · exact .inr (.inr ⟨_, .closeBracket, rfl⟩)
  · exact .inr (.inr ⟨_, .openBrace, rfl⟩)
  · exact .inr (.inr ⟨_, .closeBrace, rfl⟩)
  · exact .inr (.inr ⟨_, .colon, rfl⟩)
  · exact .inr (.inr ⟨_, .comma, rfl⟩)
  · rcases h with ⟨-, rfl⟩ | ⟨-, ⟨-, rfl⟩ | ⟨-, ⟨-, rfl⟩ | ⟨-, h⟩⟩⟩
    · exact .inr (.inl ⟨rfl, nofun⟩)
    · exact .inr (.inl ⟨rfl, nofun⟩)
    · exact .inr (.inl ⟨rfl, nofun⟩)
    · cases h

theorem isPunctuation_of_wordToken? {letters : List Char} {t : Token}
    (h : wordToken? letters = some t) : t.isPunctuation = false := by
  unfold wordToken? at h
  split_ifs at h <;> cases h <;> rfl

/-- Ending a token leaves the lexer between two tokens, with at most one more token, and that is
no punctuation. -/
theorem of_finishToken? (h : s.finishToken? = some s') :
    s'.pending = .idle ∧
      ∃ ended, s'.tokens = ended ++ s.tokens ∧ ∀ t ∈ ended, t.isPunctuation = false := by
  obtain ⟨tokens, pending⟩ := s
  cases pending with
  | idle =>
    cases h
    exact ⟨rfl, [], rfl, by simp⟩
  | word letters =>
    obtain ⟨t, ht, rfl⟩ := Option.map_eq_some_iff.mp h
    exact ⟨rfl, [t], rfl, by simpa using isPunctuation_of_wordToken? ht⟩
  | numeral chars =>
    obtain ⟨n, -, rfl⟩ := Option.map_eq_some_iff.mp h
    exact ⟨rfl, [.number n], rfl, by simp [Token.isPunctuation]⟩
  | string pieces => cases h
  | escape pieces => cases h
  | hex pieces count code => cases h

/-- Punctuation ends a word or a numeral and is a token. -/
theorem step_of_punctuates {c : Char} {t : Token} (hc : Punctuates c t)
    (h : s.finishToken? = some s') : s.step c = some (s'.emit t) := by
  have hidle := idleStep_of_punctuates hc s'
  obtain ⟨tokens, pending⟩ := s
  cases pending with
  | idle =>
    cases h
    exact hidle
  | word letters =>
    have hlower : c.isLower = false := by cases hc <;> rfl
    simp only [step, hlower, h]
    exact hidle
  | numeral chars =>
    have hnumeral : isNumeralChar c = false := by cases hc <;> rfl
    simp only [step, hnumeral, h]
    exact hidle
  | string pieces => cases h
  | escape pieces => cases h
  | hex pieces count code => cases h

/-- What a character adds to the tokens: punctuation that stands between two tokens, or else only
tokens of other kinds. -/
theorem of_step {c : Char} (h : s.step c = some s') :
    (∃ ended, s'.tokens = ended ++ s.tokens ∧ ∀ t ∈ ended, t.isPunctuation = false) ∨
      ∃ t f, Punctuates c t ∧ s.finishToken? = some f ∧ s' = f.emit t := by
  -- a character that ends a word or a numeral is then read as between two tokens
  have hfinish (h : s.finishToken?.bind (·.idleStep c) = some s') :
      (∃ ended, s'.tokens = ended ++ s.tokens ∧ ∀ t ∈ ended, t.isPunctuation = false) ∨
        ∃ t f, Punctuates c t ∧ s.finishToken? = some f ∧ s' = f.emit t := by
    obtain ⟨f, hf, hidle⟩ := Option.bind_eq_some_iff.mp h
    obtain ⟨-, ended, hended, hkinds⟩ := of_finishToken? hf
    rcases of_idleStep hidle with ⟨-, rfl⟩ | ⟨htokens, -⟩ | ⟨t, hc, rfl⟩
    · exact .inl ⟨ended, hended, hkinds⟩
    · exact .inl ⟨ended, htokens.trans hended, hkinds⟩
    · exact .inr ⟨t, f, hc, hf, rfl⟩
  have hsame (htokens : s'.tokens = s.tokens) :
      ∃ ended, s'.tokens = ended ++ s.tokens ∧ ∀ t ∈ ended, t.isPunctuation = false :=
    ⟨[], htokens, by simp⟩
  obtain ⟨tokens, pending⟩ := s
  cases pending with
  | idle => exact hfinish h
  | word letters =>
    simp only [step] at h
    split at h
    · cases h
      exact .inl (hsame rfl)
    · exact hfinish h
  | numeral chars =>
    simp only [step] at h
    split at h
    · cases h
      exact .inl (hsame rfl)
    · exact hfinish h
  | string pieces =>
    simp only [step] at h
    split_ifs at h
    · cases h
      exact .inl ⟨[.string pieces.reverse], rfl, by simp [Token.isPunctuation]⟩
    · cases h
      exact .inl (hsame rfl)
    · cases h
      exact .inl (hsame rfl)
  | escape pieces =>
    simp only [step] at h
    split at h
    · cases h
      exact .inl (hsame rfl)
    · obtain ⟨e, -, rfl⟩ := Option.map_eq_some_iff.mp h
      exact .inl (hsame rfl)
  | hex pieces count code =>
    simp only [step, Option.bind_eq_bind, Option.bind_eq_some_iff] at h
    obtain ⟨digit, -, h⟩ := h
    split at h <;> cases h <;> exact .inl (hsame rfl)

end LexState

/-! ### Cuts at punctuation -/

open LexState

/-- The tokens of a text are those that are held when the text ends. -/
theorem tokens?_eq_some_iff {text : List Char} {tokens : List Token} :
    tokens? text = some tokens ↔
      ∃ s, text.foldlM step start = some s ∧ s.finishToken? = some ⟨tokens.reverse, .idle⟩ := by
  simp only [tokens?, Option.bind_eq_bind, Option.bind_eq_some_iff, Option.some.injEq]
  constructor
  · rintro ⟨s, hs, f, hf, rfl⟩
    obtain ⟨held, pending⟩ := f
    obtain ⟨rfl, -⟩ := of_finishToken? hf
    exact ⟨s, hs, by rwa [List.reverse_reverse]⟩
  · rintro ⟨s, hs, hf⟩
    exact ⟨s, hs, _, hf, List.reverse_reverse tokens⟩

theorem tokens?_nil : tokens? [] = some [] := rfl

/-- The tokens around punctuation are those of the two pieces of the text. -/
theorem tokens?_append {before after : List Char} {c : Char} {t : Token} {ts : List Token}
    (hc : Punctuates c t) (h : tokens? before = some ts) :
    tokens? (before ++ c :: after) = (tokens? after).map (ts ++ t :: ·) := by
  obtain ⟨s, hs, hf⟩ := tokens?_eq_some_iff.mp h
  have hread : (before ++ c :: after).foldlM step start =
      (after.foldlM step start).map (behind (t :: ts.reverse)) := by
    rw [List.foldlM_append, hs, Option.bind_eq_bind, Option.bind_some, List.foldlM_cons,
      step_of_punctuates hc hf]
    exact foldlM_step_behind (t :: ts.reverse) after start
  simp only [tokens?, hread]
  cases after.foldlM step start with
  | none => rfl
  | some s' =>
    simp only [Option.map_some, Option.bind_eq_bind, Option.bind_some, finishToken?_behind]
    cases s'.finishToken? with
    | none => rfl
    | some f => simp [behind]

/-- White space in front does not count. -/
theorem tokens?_append_of_blank {gap rest : List Char} (h : ∀ c ∈ gap, isBlank c = true) :
    tokens? (gap ++ rest) = tokens? rest := by
  induction gap with
  | nil => rfl
  | cons c gap ih =>
    have hstep : start.step c = some start := if_pos (h c List.mem_cons_self)
    calc tokens? (c :: (gap ++ rest))
      _ = tokens? (gap ++ rest) := by
        rw [tokens?, List.foldlM_cons, hstep]
        rfl
      _ = tokens? rest := ih fun c' hc' ↦ h c' (List.mem_cons_of_mem c hc')

theorem tokens?_append_of_eq_some {before after : List Char} {c : Char} {t : Token}
    {ts us : List Token} (hc : Punctuates c t) (h : tokens? before = some ts)
    (h' : tokens? after = some us) : tokens? (before ++ c :: after) = some (ts ++ t :: us) := by
  rw [tokens?_append hc h, h']
  rfl

/-- Where the tokens `ended` come last and do not hold `t`, a `t` among all tokens comes before. -/
theorem exists_of_append_eq {ended held later earlier : List Token} {t : Token} (ht : t ∉ ended)
    (h : ended ++ held = later ++ t :: earlier) :
    ∃ later', later = ended ++ later' ∧ held = later' ++ t :: earlier := by
  rcases List.append_eq_append_iff.mp h with ⟨rest, hlater, hheld⟩ | ⟨rest, hended, hrest⟩
  · exact ⟨rest, hlater, hheld⟩
  · cases rest with
    | nil => exact ⟨[], by simpa using hended.symm, by simpa using hrest.symm⟩
    | cons t' rest =>
      obtain ⟨rfl, -⟩ := List.cons.inj hrest
      exact absurd (hended ▸ List.mem_append_right later List.mem_cons_self) ht

/-- Punctuation among the tokens read so far stands in the text, with the other tokens read before
and after it. -/
theorem exists_of_foldlM_step {text : List Char} {s : LexState} {c : Char} {t : Token}
    {later earlier : List Token} (hc : Punctuates c t) (h : text.foldlM step start = some s)
    (htokens : s.tokens = later ++ t :: earlier) :
    ∃ before after, text = before ++ c :: after ∧ tokens? before = some earlier.reverse ∧
      after.foldlM step start = some ⟨later, s.pending⟩ := by
  induction text using List.reverseRecOn generalizing s later with
  | nil =>
    cases h
    cases later <;> cases htokens
  | append_singleton text x ih =>
    rw [List.foldlM_append] at h
    obtain ⟨s', hs', hx⟩ := Option.bind_eq_some_iff.mp h
    simp only [List.foldlM_cons, List.foldlM_nil, bind_pure] at hx
    -- the punctuation was there before the last character, which then comes after it
    have hextend {later' : List Token} (hheld : s'.tokens = later' ++ t :: earlier) :
        ∃ before after, text ++ [x] = before ++ c :: after ∧
          tokens? before = some earlier.reverse ∧
          after.foldlM step start = some ⟨later, s.pending⟩ := by
      obtain ⟨before, after, rfl, hbefore, hafter⟩ := ih hs' hheld
      refine ⟨before, after ++ [x], by simp, hbefore, ?_⟩
      have hs'' : s' = behind (t :: earlier) ⟨later', s'.pending⟩ := by
        rw [behind, ← hheld]
      rw [hs'', step_behind] at hx
      obtain ⟨s'', hs'', rfl⟩ := Option.map_eq_some_iff.mp hx
      simp only [List.foldlM_append, hafter, Option.bind_eq_bind, Option.bind_some,
        List.foldlM_cons, hs'', List.foldlM_nil]
      obtain rfl : s''.tokens = later := List.append_cancel_right htokens
      rfl
    rcases of_step hx with ⟨ended, hended, hkinds⟩ | ⟨t', f, hc', hf, rfl⟩
    · have ht : t ∉ ended := fun hm ↦ by simpa [hc.isPunctuation] using hkinds t hm
      obtain ⟨later', -, hheld⟩ := exists_of_append_eq ht (hended.symm.trans htokens)
      exact hextend hheld
    · obtain ⟨hidle, ended, hended, hkinds⟩ := of_finishToken? hf
      have ht : t ∉ ended := fun hm ↦ by simpa [hc.isPunctuation] using hkinds t hm
      rcases List.cons_eq_append_iff.mp htokens with ⟨rfl, hlast⟩ | ⟨later', rfl, hf'⟩
      · obtain ⟨rfl, rfl⟩ := List.cons.inj hlast
        refine ⟨text, [], by rw [hc.unique hc'], tokens?_eq_some_iff.mpr ⟨s', hs', ?_⟩, rfl⟩
        rw [hf, List.reverse_reverse, ← hidle]
      · obtain ⟨later'', -, hheld⟩ := exists_of_append_eq ht (hended.symm.trans hf')
        exact hextend hheld

/-- A text with punctuation among its tokens is cut there into two pieces with the other tokens. -/
theorem exists_of_tokens?_append {text : List Char} {c : Char} {t : Token} {ts us : List Token}
    (hc : Punctuates c t) (h : tokens? text = some (ts ++ t :: us)) :
    ∃ before after, text = before ++ c :: after ∧ tokens? before = some ts ∧
      tokens? after = some us := by
  obtain ⟨s, hs, hf⟩ := tokens?_eq_some_iff.mp h
  obtain ⟨-, ended, hended, hkinds⟩ := of_finishToken? hf
  have ht : t ∉ ended := fun hm ↦ by simpa [hc.isPunctuation] using hkinds t hm
  have hheld : ended ++ s.tokens = us.reverse ++ t :: ts.reverse := by
    simpa using hended.symm
  obtain ⟨later, hlater, hheld⟩ := exists_of_append_eq ht hheld
  obtain ⟨before, after, rfl, hbefore, hafter⟩ := exists_of_foldlM_step hc hs hheld
  refine ⟨before, after, rfl, by simpa using hbefore, tokens?_eq_some_iff.mpr ⟨_, hafter, ?_⟩⟩
  have hs' : s = behind (t :: ts.reverse) ⟨later, s.pending⟩ := by rw [behind, ← hheld]
  rw [hs', finishToken?_behind] at hf
  obtain ⟨f, hf, hbehind⟩ := Option.map_eq_some_iff.mp hf
  obtain ⟨tokens, pending⟩ := f
  simp only [behind, LexState.mk.injEq] at hbehind
  obtain ⟨htokens, rfl⟩ := hbehind
  rw [hf]
  simpa using htokens

/-! ### White space -/

/-- A lexer that holds no token after ending one has held none and has not begun one. -/
theorem LexState.eq_start_of_finishToken? {s : LexState} (h : s.finishToken? = some start) :
    s = start := by
  obtain ⟨tokens, pending⟩ := s
  cases pending with
  | idle => exact Option.some.inj h
  | word letters =>
    obtain ⟨t, -, ht⟩ := Option.map_eq_some_iff.mp h
    cases ht
  | numeral chars =>
    obtain ⟨n, -, hn⟩ := Option.map_eq_some_iff.mp h
    cases hn
  | string pieces => cases h
  | escape pieces => cases h
  | hex pieces count code => cases h

/-- A lexer is back where it started only after white space. -/
theorem LexState.eq_start_of_step {s : LexState} {c : Char} (h : s.step c = some start) :
    s = start ∧ isBlank c = true := by
  have hfinish (h : s.finishToken?.bind (·.idleStep c) = some start) :
      s = start ∧ isBlank c = true := by
    obtain ⟨f, hf, hidle⟩ := Option.bind_eq_some_iff.mp h
    rcases of_idleStep hidle with ⟨hblank, rfl⟩ | ⟨-, hpending⟩ | ⟨t, -, ht⟩
    · exact ⟨eq_start_of_finishToken? hf, hblank⟩
    · exact absurd rfl hpending
    · cases ht
  obtain ⟨tokens, pending⟩ := s
  cases pending with
  | idle => exact hfinish h
  | word letters =>
    simp only [step] at h
    split at h
    · cases h
    · exact hfinish h
  | numeral chars =>
    simp only [step] at h
    split at h
    · cases h
    · exact hfinish h
  | string pieces =>
    simp only [step] at h
    split_ifs at h <;> cases h
  | escape pieces =>
    simp only [step] at h
    split at h
    · cases h
    · obtain ⟨e, -, he⟩ := Option.map_eq_some_iff.mp h
      cases he
  | hex pieces count code =>
    simp only [step, Option.bind_eq_bind, Option.bind_eq_some_iff] at h
    obtain ⟨digit, -, h⟩ := h
    split at h <;> cases h

/-- A text without tokens is white space. -/
theorem tokens?_eq_nil_iff {text : List Char} :
    tokens? text = some [] ↔ ∀ c ∈ text, isBlank c = true := by
  constructor
  · intro h
    obtain ⟨s, hs, hf⟩ := tokens?_eq_some_iff.mp h
    obtain rfl := eq_start_of_finishToken? hf
    clear h hf
    induction text using List.reverseRecOn with
    | nil => simp
    | append_singleton text c ih =>
      rw [List.foldlM_append] at hs
      obtain ⟨s', hs', hc⟩ := Option.bind_eq_some_iff.mp hs
      simp only [List.foldlM_cons, List.foldlM_nil, bind_pure] at hc
      obtain ⟨rfl, hblank⟩ := eq_start_of_step hc
      simpa [or_imp, forall_and, hblank] using ih hs'
  · intro h
    rw [← List.append_nil text, tokens?_append_of_blank h, tokens?_nil]

end RoleResolution.Json

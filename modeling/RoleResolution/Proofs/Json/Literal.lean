import Mathlib.Data.List.TakeWhile
import RoleResolution.Json.Printer
import RoleResolution.Json.Reader
import RoleResolution.Proofs.Json.Lexing

/-!
# Printed strings and integers

A string in quotes is one token, and its pieces denote the string: of the escapes, the two-character
ones are characters again, and the hexadecimal ones stand for control characters, never for half of
a surrogate pair. The decimal text of a 64-bit integer is one token too, a numeral without a
needless zero that denotes the integer.
-/

namespace RoleResolution.Json

open LexState

/-! ### Strings -/

/-- A piece of a string denotes one character, whatever comes after it. -/
def Piece.Denotes (piece : Piece) (c : Char) : Prop :=
  ∀ rest, charsOfPieces? (piece :: rest) = (charsOfPieces? rest).map (c :: ·)

theorem Piece.denotes_char (c : Char) : (Piece.char c).Denotes c := fun _ ↦ rfl

/-- A unit below all surrogates denotes the character of its code. -/
theorem Piece.denotes_unit {code : Nat} (h : code < 0xD800) :
    (Piece.unit code).Denotes (Char.ofNat code) := by
  have hleading : isLeading code = false := by simp [isLeading]; omega
  have htrailing : isTrailing code = false := by simp [isTrailing]; omega
  intro rest
  cases rest with
  | nil => simp [charsOfPieces?, hleading, htrailing]
  | cons next rest =>
    cases next <;> simp [charsOfPieces?, hleading, htrailing]

theorem hexValue?_hexDigit {n : Nat} (h : n < 16) : Digit.hexValue? (hexDigit n) = some n := by
  have hall : ∀ i : Fin 16, Digit.hexValue? (hexDigit i) = some i.val := by decide
  exact hall ⟨n, h⟩

/-- A character is written by a two-character escape, as a control character by its code, or as
itself. -/
theorem escapeChar_cases (c : Char) :
    (∃ e, escapeChar c = ['\\', e] ∧ e ≠ 'u' ∧ escapedChar? e = some c) ∨
      (escapeChar c =
        ['\\', 'u', '0', '0', hexDigit (c.toNat / 16), hexDigit (c.toNat % 16)] ∧ c < ' ') ∨
      (escapeChar c = [c] ∧ c ≠ '"' ∧ c ≠ '\\' ∧ ¬c < ' ') := by
  by_cases hquote : c = '"'
  · subst hquote; exact .inl ⟨'"', rfl, by decide, rfl⟩
  by_cases hslash : c = '\\'
  · subst hslash; exact .inl ⟨'\\', rfl, by decide, rfl⟩
  by_cases hb : c = '\x08'
  · subst hb; exact .inl ⟨'b', rfl, by decide, rfl⟩
  by_cases hf : c = '\x0c'
  · subst hf; exact .inl ⟨'f', rfl, by decide, rfl⟩
  by_cases hn : c = '\n'
  · subst hn; exact .inl ⟨'n', rfl, by decide, rfl⟩
  by_cases hr : c = '\r'
  · subst hr; exact .inl ⟨'r', rfl, by decide, rfl⟩
  by_cases ht : c = '\t'
  · subst ht; exact .inl ⟨'t', rfl, by decide, rfl⟩
  rw [escapeChar, if_neg hquote, if_neg hslash, if_neg hb, if_neg hf, if_neg hn, if_neg hr,
    if_neg ht]
  by_cases hlt : c < ' '
  · exact .inr (.inl ⟨if_pos hlt, hlt⟩)
  · exact .inr (.inr ⟨if_neg hlt, hquote, hslash, hlt⟩)

/-- A control character below the blank is read back from its code. -/
theorem foldlM_step_unit {c : Char} (h : c < ' ') (tokens : List Token) (pieces : List Piece) :
    ['\\', 'u', '0', '0', hexDigit (c.toNat / 16), hexDigit (c.toNat % 16)].foldlM step
      ⟨tokens, .string pieces⟩ = some ⟨tokens, .string (.unit c.toNat :: pieces)⟩ := by
  have hlt : c.toNat < 32 := h
  have hhigh := hexValue?_hexDigit (show c.toNat / 16 < 16 by omega)
  have hlow := hexValue?_hexDigit (show c.toNat % 16 < 16 by omega)
  have hzero : Digit.hexValue? '0' = some 0 := rfl
  have hcode : 16 * (c.toNat / 16) + c.toNat % 16 = c.toNat := by omega
  simp [List.foldlM_cons, step, hzero, hhigh, hlow, hcode]

/-- A character of a string is read back from the way it is written. -/
theorem exists_piece (c : Char) : ∃ piece : Piece, piece.Denotes c ∧
    ∀ tokens pieces, (escapeChar c).foldlM step ⟨tokens, .string pieces⟩ =
      some ⟨tokens, .string (piece :: pieces)⟩ := by
  rcases escapeChar_cases c with ⟨e, hescape, hu, he⟩ | ⟨hescape, hlt⟩ |
    ⟨hself, hquote, hslash, hle⟩
  · refine ⟨.char c, Piece.denotes_char c, fun tokens pieces ↦ ?_⟩
    simp [hescape, List.foldlM_cons, step, hu, he]
  · have hcode : c.toNat < 0xD800 := Nat.lt_trans (show c.toNat < 32 from hlt) (by decide)
    refine ⟨.unit c.toNat, by simpa using Piece.denotes_unit hcode, fun tokens pieces ↦ ?_⟩
    rw [hescape, foldlM_step_unit hlt]
  · refine ⟨.char c, Piece.denotes_char c, fun tokens pieces ↦ ?_⟩
    simp [hself, List.foldlM_cons, step, hquote, hslash, hle]

/-- The characters of a string are read back from the way they are written. -/
theorem exists_pieces (cs : List Char) : ∃ read, charsOfPieces? read = some cs ∧
    ∀ tokens pieces, (cs.flatMap escapeChar).foldlM step ⟨tokens, .string pieces⟩ =
      some ⟨tokens, .string (read.reverse ++ pieces)⟩ := by
  induction cs with
  | nil => exact ⟨[], rfl, fun _ _ ↦ rfl⟩
  | cons c cs ih =>
    obtain ⟨read, hread, hcs⟩ := ih
    obtain ⟨piece, hpiece, hc⟩ := exists_piece c
    refine ⟨piece :: read, by rw [hpiece, hread]; rfl, fun tokens pieces ↦ ?_⟩
    rw [List.flatMap_cons, List.foldlM_append, hc]
    simpa using hcs tokens (piece :: pieces)

/-- A string in quotes is one token, which denotes the string. -/
theorem exists_tokens?_quote (s : String) : ∃ pieces,
    tokens? (quote s) = some [.string pieces] ∧ textOfPieces? pieces = some s := by
  obtain ⟨read, hread, hs⟩ := exists_pieces s.toList
  refine ⟨read, tokens?_eq_some_iff.mpr ⟨⟨[.string read], .idle⟩, ?_, rfl⟩, ?_⟩
  · have hopen : start.step '"' = some ⟨[], .string []⟩ := rfl
    rw [quote, List.cons_append, List.foldlM_cons, hopen, Option.bind_eq_bind, Option.bind_some,
      List.foldlM_append, hs]
    simp [step, emit]
  · rw [textOfPieces?, hread, Option.map_some, String.ofList_toList]

/-! ### Integers -/

/-- The digits of a number spell it. -/
theorem toNat_decimal (n : Nat) : Digit.toNat 10 ((Digit.decimal n).map Digit.value) = n := by
  rw [Digit.toNat, List.foldl_map]
  exact Nat.ofDigitChars_ten_toDigits

theorem isDigit_of_mem_decimal {n : Nat} {c : Char} (h : c ∈ Digit.decimal n) :
    c.isDigit = true :=
  Nat.isDigit_of_mem_toDigits (by decide) (by decide) h

/-- No number but zero begins with a zero. -/
theorem head?_decimal {n : Nat} (h : 0 < n) : (Digit.decimal n).head? ≠ some '0' := by
  induction n using Nat.strongRecOn with
  | ind n ih =>
    by_cases hn : n < 10
    · simp [Digit.decimal, Nat.toDigits_of_lt_base hn, Nat.ne_of_gt h]
    · have hsplit : Digit.decimal n = Digit.decimal (n / 10) ++ [(n % 10).digitChar] :=
        Nat.toDigits_of_base_le (by decide) (by omega)
      have hhead := ih (n / 10) (by omega) (by omega)
      rw [hsplit]
      cases hd : Digit.decimal (n / 10) with
      | nil => exact absurd hd Nat.toDigits_ne_nil
      | cons d ds => simpa [hd] using hhead

/-- A numeral has no needless zero in front. -/
theorem length_decimal_of_head? {n : Nat} (h : (Digit.decimal n).head? = some '0') :
    (Digit.decimal n).length = 1 := by
  have hn : n = 0 := by
    by_contra hn
    exact head?_decimal (Nat.pos_of_ne_zero hn) h
  subst hn
  rfl

/-- The digits of a number are a numeral, after a minus sign or not. -/
theorem ofChars?_decimal (n : Nat) :
    Numeral.ofChars? (Digit.decimal n) =
        some ⟨false, (Digit.decimal n).map Digit.value, none, none⟩ ∧
      Numeral.ofChars? ('-' :: Digit.decimal n) =
        some ⟨true, (Digit.decimal n).map Digit.value, none, none⟩ := by
  have htake : (Digit.decimal n).takeWhile Char.isDigit = Digit.decimal n :=
    List.takeWhile_eq_self_iff.mpr fun _ ↦ isDigit_of_mem_decimal
  have hdrop : (Digit.decimal n).dropWhile Char.isDigit = [] :=
    List.dropWhile_eq_nil_iff.mpr fun _ ↦ isDigit_of_mem_decimal
  have hempty : (Digit.decimal n).isEmpty = false := by
    simp [List.isEmpty_eq_false_iff, Digit.decimal]
  have hlead : ((Digit.decimal n).head? == some '0' && (Digit.decimal n).length != 1) = false := by
    simpa using length_decimal_of_head?
  constructor
  · unfold Numeral.ofChars?
    split
    next negative digits hsign =>
      -- The digits do not begin with a minus sign themselves.
      split at hsign
      · next rest hminus =>
        have hdigit : '-'.isDigit = true :=
          isDigit_of_mem_decimal (hminus ▸ List.mem_cons_self)
        cases hdigit
      · cases hsign
        simp only [htake, hdrop, hempty, hlead]
        rfl
  · simp only [Numeral.ofChars?, htake, hdrop, hempty, hlead]
    rfl

/-- A numeral is held as long as its characters go on. -/
theorem foldlM_step_numeral {chars : List Char} (h : ∀ c ∈ chars, isNumeralChar c = true)
    (held : List Char) : chars.foldlM step ⟨[], .numeral held⟩ =
      some ⟨[], .numeral (chars.reverse ++ held)⟩ := by
  induction chars generalizing held with
  | nil => rfl
  | cons c rest ih =>
    have hc : step ⟨[], .numeral held⟩ c = some ⟨[], .numeral (c :: held)⟩ :=
      if_pos (h c List.mem_cons_self)
    rw [List.foldlM_cons, hc]
    simpa using ih (fun c' hc' ↦ h c' (List.mem_cons_of_mem c hc')) (c :: held)

/-- A numeral by itself is one token. -/
theorem tokens?_of_ofChars? {first : Char} {rest : List Char} {n : Numeral}
    (hfirst : start.step first = some ⟨[], .numeral [first]⟩)
    (hrest : ∀ c ∈ rest, isNumeralChar c = true)
    (hn : Numeral.ofChars? (first :: rest) = some n) :
    tokens? (first :: rest) = some [.number n] := by
  refine tokens?_eq_some_iff.mpr ⟨⟨[], .numeral (rest.reverse ++ [first])⟩, ?_, ?_⟩
  · rw [List.foldlM_cons, hfirst]
    exact foldlM_step_numeral hrest [first]
  · simp [finishToken?, hn, emit]

/-- A digit begins a numeral. -/
theorem step_of_isDigit {c : Char} (h : c.isDigit = true) :
    start.step c = some ⟨[], .numeral [c]⟩ := by
  have hne {d : Char} (hd : d.isDigit = false) : c ≠ d := by
    rintro rfl
    rw [h] at hd
    cases hd
  have hspace : c ≠ ' ' := hne rfl
  have htab : c ≠ '\t' := hne rfl
  have hline : c ≠ '\n' := hne rfl
  have hreturn : c ≠ '\r' := hne rfl
  have hblank : isBlank c = false := by simp [isBlank, hspace, htab, hline, hreturn]
  have hstep : start.step c = start.idleStep c := rfl
  rw [hstep, idleStep, hblank, if_neg Bool.false_ne_true, if_neg (hne rfl), if_neg (hne rfl),
    if_neg (hne rfl), if_neg (hne rfl), if_neg (hne rfl), if_neg (hne rfl), if_neg (hne rfl),
    if_pos (.inr h)]
  rfl

/-- The digits of a number are a numeral by themselves, and after a minus sign. -/
theorem tokens?_decimal (n : Nat) :
    tokens? (Digit.decimal n) =
        some [.number ⟨false, (Digit.decimal n).map Digit.value, none, none⟩] ∧
      tokens? ('-' :: Digit.decimal n) =
        some [.number ⟨true, (Digit.decimal n).map Digit.value, none, none⟩] := by
  obtain ⟨hplain, hminus⟩ := ofChars?_decimal n
  have hchar {c : Char} (hc : c ∈ Digit.decimal n) : isNumeralChar c = true := by
    simp [isNumeralChar, isDigit_of_mem_decimal hc]
  constructor
  · cases hdigits : Digit.decimal n with
    | nil => exact absurd hdigits Nat.toDigits_ne_nil
    | cons first rest =>
      rw [hdigits] at hplain
      refine tokens?_of_ofChars? (step_of_isDigit ?_) (fun c hc ↦ hchar ?_) hplain
      · exact isDigit_of_mem_decimal (hdigits ▸ List.mem_cons_self)
      · exact hdigits ▸ List.mem_cons_of_mem first hc
  · exact tokens?_of_ofChars? rfl (fun c hc ↦ hchar hc) hminus

/-- The decimal text of a 64-bit integer is one token, which denotes the integer. -/
theorem exists_tokens?_integerText {n : Int} (h : JsonNumber.InRange n) : ∃ numeral,
    tokens? (JsonNumber.integerText n) = some [.number numeral] ∧
      numeral.number? = some (.integer n) := by
  obtain ⟨hlower, hupper⟩ := h
  cases n with
  | ofNat n =>
    have hn : n < Nat.pow 2 64 := Int.ofNat_lt.mp hupper
    refine ⟨_, (tokens?_decimal n).1, ?_⟩
    simp [Numeral.number?, Numeral.integer?, Numeral.signedInteger?, toNat_decimal, hn]
  | negSucc n =>
    have hn : n + 1 ≤ Nat.pow 2 63 := by
      rw [Int.negSucc_eq] at hlower
      omega
    refine ⟨_, (tokens?_decimal (n + 1)).2, ?_⟩
    simp [Numeral.number?, Numeral.integer?, Numeral.signedInteger?, toNat_decimal, hn,
      Int.negSucc_eq]

end RoleResolution.Json

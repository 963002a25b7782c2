import SqlEngine.Proofs.Token.Strings

/-!
# Tokens — spelling

Each token can be written down so that the lexer reads it back, if the next token stands behind a
space: strings with escapes, names in double quotes, keywords in capitals.

* `Token.spelled`, with `Token.Writable`: how a token is written, and which tokens can be.
* `Token.read_spelled`: a written token is read back.
* `Tokens.lists_spaced`: written tokens with spaces between them are the tokens of their text.
-/

namespace SqlEngine

/-! ### One token -/

namespace Token

/-- The token as it is written. -/
def spelled : Token → String
  | string content _ => quoted content
  | name text _      => String.ofList ('"' :: text.toList ++ ['"'])
  | t                => t.literal

/-- The token can be written: a number has the text of one, a name has no double quote in it, and
nothing is left open. -/
def Writable : Token → Prop
  | number literal  => NumberText literal.toList
  | string _ closed => closed = true
  | name text closed => closed = true ∧ '"' ∉ text.toList
  | finish          => False
  | stray _         => False
  | _               => True

/-- Nothing follows the token, or a space. -/
inductive Spaced : List Char → Prop
  | nil : Spaced []
  | cons (cs : List Char) : Spaced (' ' :: cs)

variable {c : Char} {cs s rest : List Char}

theorem Spaced.endsNumber (h : Spaced rest) : EndsNumber rest := by
  cases h with
  | nil => exact .nil
  | cons => rintro _ ⟨⟩; decide

theorem isBlank_of_isNamePart (h : isNamePart c = true) : Text.isBlank c = false := by
  rw [Bool.eq_false_iff]
  intro hblank
  rw [isNamePart_of_isBlank hblank] at h
  cases h

theorem NumberText.exists_cons (h : NumberText cs) : ∃ c s, cs = c :: s ∧ c.isDigit = true := by
  obtain @⟨whole, fraction, exponent, hne, hwhole, -, -⟩ := h
  obtain ⟨c, s, rfl⟩ := List.exists_cons_of_ne_nil hne
  exact ⟨c, s ++ fraction ++ exponent, by simp, hwhole c List.mem_cons_self⟩

/-- A keyword in capitals is read as a word, and the word is the keyword. -/
def isWordOf (word : Keyword) : List Char → Bool
  | []     => false
  | c :: s => c.isAlpha && !c.isDigit && (c :: s).all isNamePart &&
    Keyword.ofWord? (c :: s) == some word

theorem isWordOf_text (word : Keyword) : isWordOf word word.text.toList = true := by
  have hall : ∀ word ∈ Keyword.all, isWordOf word word.text.toList = true := by decide +kernel
  exact hall word word.mem_all

theorem split_spaced (h : s.all isNamePart = true) (hrest : Spaced rest) :
    split isNamePart (s ++ rest) = (s, rest) := by
  have hall := List.all_eq_true.1 h
  cases hrest with
  | nil =>
    rw [split, List.append_nil, List.takeWhile_eq_self_iff.2 hall, List.dropWhile_eq_nil_iff.2 hall]
  | cons cs =>
    have hspace : ¬ isNamePart ' ' = true := by decide
    rw [split, List.takeWhile_append_of_pos hall, List.dropWhile_append_of_pos hall,
      List.takeWhile_cons_of_neg hspace, List.dropWhile_cons_of_neg hspace, List.append_nil]

theorem read_word {word : Keyword} (h : isWordOf word (c :: s) = true) (hrest : Spaced rest) :
    read c (s ++ rest) = .ok ⟨.keyword word, c :: s, rest⟩ := by
  simp only [isWordOf, Bool.and_eq_true, Bool.not_eq_true', beq_iff_eq] at h
  obtain ⟨⟨⟨halpha, hdigit⟩, hall⟩, hword⟩ := h
  have hquote : c ≠ '\'' := by rintro rfl; cases halpha
  have hname : c ≠ '"' := by rintro rfl; cases halpha
  simp only [read, hdigit, beq_iff_eq, hquote, hname, halpha, Bool.true_or, if_true, if_false,
    Bool.false_eq_true, ← List.cons_append, split_spaced hall hrest, ofWord, hword]

theorem read_quotedName {text : String} (h : '"' ∉ text.toList) (rest : List Char) :
    read '"' (text.toList ++ '"' :: rest) =
      .ok ⟨.name text true, '"' :: text.toList ++ ['"'], rest⟩ := by
  have hall : ∀ c ∈ text.toList, (c != '"') = true := by
    intro c hc
    simp only [bne_iff_ne, ne_eq]
    rintro rfl
    exact h hc
  have htake : ('"' :: rest).takeWhile (· != '"') = [] := List.takeWhile_cons_of_neg (by decide)
  have hdrop : ('"' :: rest).dropWhile (· != '"') = '"' :: rest :=
    List.dropWhile_cons_of_neg (by decide)
  rw [read, if_neg (by decide), if_neg (by decide), if_pos (by decide), readQuotedName,
    List.takeWhile_append_of_pos hall, List.dropWhile_append_of_pos hall, htake, hdrop,
    List.append_nil, String.ofList_toList]

/-- A mark that a space ends is read whole. -/
theorem read_mark (m : Mark) (hrest : Spaced rest) : ∃ c s, m.text.toList = c :: s ∧
    Text.isBlank c = false ∧ read c (s ++ rest) = .ok ⟨.mark m, c :: s, rest⟩ := by
  cases hrest <;> cases m <;> exact ⟨_, _, rfl, rfl, rfl⟩

/-- **A written token is read back**, at the end of a text or in front of a space. -/
theorem read_spelled {t : Token} (h : t.Writable) (hrest : Spaced rest) :
    ∃ c s, t.spelled.toList = c :: s ∧ Text.isBlank c = false ∧
      read c (s ++ rest) = .ok ⟨t, c :: s, rest⟩ := by
  cases t with
  | number literal =>
    obtain ⟨c, s, hs, hc⟩ := NumberText.exists_cons h
    have hread := NumberText.read h hrest.endsNumber
    rw [hs, List.cons_append] at hread
    have hpart : isNamePart c = true := by simp [isNamePart, Char.isAlphanum, hc]
    refine ⟨c, s, hs, isBlank_of_isNamePart hpart, ?_⟩
    rw [read, if_pos hc, hread, ← hs, String.ofList_toList]
  | string content closed =>
    obtain rfl : closed = true := h
    refine ⟨'\'', escape content.toList ++ ['\''], ?_, by decide, ?_⟩
    · simp [spelled, quoted]
    · have hread := read_quoted content rest
      simpa [quoted] using hread
  | name text closed =>
    obtain ⟨rfl, htext⟩ : closed = true ∧ '"' ∉ text.toList := h
    refine ⟨'"', text.toList ++ ['"'], ?_, by decide, ?_⟩
    · simp [spelled]
    · simpa using read_quotedName htext rest
  | keyword word =>
    have hword := isWordOf_text word
    cases hs : word.text.toList with
    | nil =>
      rw [hs] at hword
      cases hword
    | cons c s =>
      rw [hs] at hword
      have hpart : isNamePart c = true := by
        simp only [isWordOf, List.all_cons, Bool.and_eq_true] at hword
        exact hword.1.2.1
      exact ⟨c, s, hs, isBlank_of_isNamePart hpart, read_word hword hrest⟩
  | mark m => exact read_mark m hrest
  | comma => exact ⟨',', [], rfl, rfl, rfl⟩
  | semicolon => exact ⟨';', [], rfl, rfl, rfl⟩
  | dot => exact ⟨'.', [], rfl, rfl, rfl⟩
  | finish | stray => cases h

end Token

/-! ### Tokens with spaces between them -/

/-- The tokens in writing, with a space between each two of them. -/
def Token.spaced (tokens : List Token) : String :=
  " ".intercalate (tokens.map spelled)

namespace Tokens

open Token (Writable)

/-- The tokens are those of the list, to the end of the text; all of them can be written. -/
inductive Lists : Tokens → List Token → Prop
  | finish (gap : List Char) (start : Nat) : Lists (finish gap start) []
  | next {l : Lexeme} {rest : Tokens} {tokens : List Token} (hl : l.token.Writable)
      (h : Lists rest tokens) : Lists (next l rest) (l.token :: tokens)

/-- **Written tokens are those of their text.** -/
theorem lists_spaced {tokens : List Token} (h : ∀ t ∈ tokens, t.Writable) (start : Nat)
    {gap : List Char} (hgap : ∀ b ∈ gap, Text.isBlank b = true) :
    (ofChars start (gap ++ (Token.spaced tokens).toList)).Lists tokens := by
  induction tokens generalizing start gap with
  | nil =>
    have hdrop : gap.dropWhile Text.isBlank = [] := List.dropWhile_eq_nil_iff.2 hgap
    rw [Token.spaced, List.map_nil, String.intercalate_nil, String.toList_empty, List.append_nil,
      ofChars_eq]
    simp only [hdrop]
    exact .finish _ _
  | cons t tokens ih =>
    obtain ⟨ht, htokens⟩ := List.forall_mem_cons.1 h
    -- behind the token stands nothing, or a space and the other tokens
    obtain ⟨behind, hgap', hspaced, htext⟩ : ∃ behind, (∀ b ∈ behind, Text.isBlank b = true) ∧
        Token.Spaced (behind ++ (Token.spaced tokens).toList) ∧
        (Token.spaced (t :: tokens)).toList =
          t.spelled.toList ++ (behind ++ (Token.spaced tokens).toList) := by
      cases tokens with
      | nil =>
        refine ⟨[], List.forall_mem_nil _, .nil, ?_⟩
        simp [Token.spaced]
      | cons u tokens =>
        refine ⟨[' '], Text.isBlank_space, .cons _, ?_⟩
        simp [Token.spaced]
    obtain ⟨c, s, hs, hc, hread⟩ := Token.read_spelled ht hspaced
    rw [htext, hs, List.cons_append, ofChars_of_read start gap hgap hc hread]
    exact .next (l := ⟨_, gap, c :: s, t⟩) ht (ih htokens _ hgap')

theorem lists_ofText {tokens : List Token} (h : ∀ t ∈ tokens, t.Writable) :
    (ofText (Token.spaced tokens)).Lists tokens :=
  lists_spaced h 0 (List.forall_mem_nil _)

namespace Lists

variable {ts rest : Tokens} {t : Token} {tokens : List Token} {p : Token → Bool}

theorem check (h : ts.Lists tokens) : ts.check = .ok () := by
  cases h with
  | finish => rfl
  | @next l rest _ hl h =>
    refine check_next_iff.2 ⟨?_, ?_, ?_⟩
    · cases ht : l.token with
      | string _ closed =>
        rw [ht] at hl
        obtain rfl : closed = true := hl
        rfl
      | name _ closed =>
        rw [ht] at hl
        obtain rfl : closed = true := hl.1
        rfl
      | _ => rfl
    · intro c hc
      rw [hc] at hl
      exact hl
    · rintro _ _ rfl
      cases h

theorem current (h : ts.Lists (t :: tokens)) : ts.current = t := by
  cases h
  rfl

theorem current_nil (h : ts.Lists []) : ts.current = .finish := by
  cases h
  rfl

/-- The first token is taken. -/
theorem takes (h : ts.Lists (t :: tokens)) (ht : p t = true) :
    ∃ rest, ts.Takes p rest ∧ rest.Lists tokens := by
  cases h with
  | @next l rest _ _ h => exact ⟨rest, takes_next.2 ⟨ht, rfl, h.check⟩, h⟩

theorem lacks (h : ts.Lists tokens) (hp : ∀ t ∈ tokens.head?, p t = false) : ts.Lacks p := by
  cases h with
  | finish => nofun
  | next => exact lacks_next.2 (hp _ rfl)

theorem current_ne (h : ts.Lists tokens) (ht : t ≠ .finish) (hne : t ∉ tokens.head?) :
    ts.current ≠ t := by
  cases h with
  | finish => exact ht.symm
  | next =>
    rintro rfl
    exact hne rfl

end Lists

end Tokens

end SqlEngine

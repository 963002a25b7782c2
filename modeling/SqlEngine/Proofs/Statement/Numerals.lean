import SqlEngine.Proofs.Statement.Layout
import SqlEngine.Proofs.Token.LongestNumber
import SqlEngine.Proofs.Token.Tiling

/-!
# Statements — numerals

Every number literal that the lexer lets through is a number.  So a parser, which has a fault for
literals that are none (`NumberFault.unreadable`), never reports it, on any text.

* `Tokens.Lexed`: the literals are numbers, and no malformed number has that fault.
* `Tokens.tell_lexed`: a parser on such tokens fails with other faults only.
* `Token.numbers_longest`: the lexer reads the longest number or fails, and the parser reads what
  the lexer has read.
-/

namespace SqlEngine

namespace Tokens

/-- The number literals are numbers, and a malformed number is not one of these. -/
def Lexed : Tokens → Prop
  | finish ..        => True
  | broken fault _   => ∀ literal, fault ≠ .unreadable literal
  | next lexeme rest => lexeme.token.Readable ∧ rest.Lexed

theorem lexed_ofChars (start : Nat) (cs : List Char) : (ofChars start cs).Lexed := by
  rw [ofChars_eq]
  cases hd : cs.dropWhile Text.isBlank with
  | nil => trivial
  | cons c rest =>
    dsimp only
    cases hr : Token.read c rest with
    | error e => exact (Token.read_error hr).2
    | ok r =>
      have hlt : r.rest.length < cs.length := by
        have hle := (List.dropWhile_sublist (l := cs) Text.isBlank).length_le
        rw [hd, List.length_cons] at hle
        exact Nat.lt_of_lt_of_le (Token.read_rest_lt hr) hle
      exact ⟨Token.readable_of_read hr, lexed_ofChars _ r.rest⟩
termination_by cs.length

theorem tell_lexed : Tell .bare .bare (fun fault => ∀ literal, fault ≠ .unreadable literal)
    (fun ts ts' => ts' = ts ∧ ts.Lexed) where
  fronts := by
    rintro _ ts ⟨rfl, h⟩
    cases ts with
    | finish gap start => exact .finish gap gap rfl
    | broken fault place => exact .broken h rfl
    | next l rest =>
      refine .next _ _ _ _ _ rfl ⟨rfl, h.2⟩ fun literal htoken hnone => ?_
      obtain ⟨x, hx⟩ := h.1 literal htoken
      cases hnone.symm.trans hx
  text _ _ := rfl
  star := rfl

end Tokens

/-- A result that is told as itself fails only with the faults that are allowed. -/
theorem Told.ne_lex {α : Type} {ρ ρ' : Retelling} {hard : NumberFault → Prop} {R : α → α → Prop}
    {x : Except Error α} (h : Told ρ ρ' hard R x x) {fault : NumberFault} (hfault : ¬ hard fault)
    (offset : Nat) : x ≠ .error (.lex fault offset) := by
  rintro rfl
  cases h with
  | error h =>
    cases h with
    | lex hhard => exact hfault hhard

theorem Statement.parse_ne_unreadable (o : ParserOptions) (text literal : String) (offset : Nat) :
    parse o text ≠ .error (.lex (.unreadable literal) offset) := by
  have htold := ofTokens_alike Tokens.tell_lexed (o := o) ⟨rfl, Tokens.lexed_ofChars 0 text.toList⟩
  exact htold.ne_lex (fun h => h literal rfl) offset

theorem Expr.parse_ne_unreadable (o : ParserOptions) (wildcard : Bool) (text literal : String)
    (offset : Nat) : parse o wildcard text ≠ .error (.lex (.unreadable literal) offset) := by
  have hT := Tokens.tell_lexed
  have hts : (Tokens.ofText text).Lexed := Tokens.lexed_ofChars 0 text.toList
  have htold : Told .bare .bare (fun fault => ∀ literal, fault ≠ .unreadable literal)
      (fun e e' => e'.retold .bare = e.retold .bare) (parse o wildcard text)
      (parse o wildcard text) := by
    refine (hT.check ⟨rfl, hts⟩).bind fun _ _ _ =>
      (Read.expression_alike hT 0 wildcard ⟨rfl, hts⟩).bind ?_
    rintro _ _ ⟨he, -⟩
    exact .ok he
  exact htold.ne_lex (fun h => h literal rfl) offset

/-- **The lexer reads the longest number or fails, and the parser reads what the lexer has read.**
A text that starts with a digit starts with a longest number.  It is read, unless a point or a
marker of an exponent comes behind it; then the lexer fails.  Each literal that is read is a number,
and so no parser finds one that is not. -/
theorem Token.numbers_longest :
    (∀ (c : Char) (cs : List Char), c.isDigit = true →
      ∃ p rest, LongestNumber (c :: cs) p rest ∧
        ((∀ d ∈ rest.head?, d ≠ '.' ∧ d ≠ 'e' ∧ d ≠ 'E') →
          readNumber (c :: cs) = .ok ⟨.number (String.ofList p), p, rest⟩) ∧
        ((∃ d ∈ rest.head?, d = '.' ∨ d = 'e' ∨ d = 'E') →
          ∃ e, readNumber (c :: cs) = .error e) ∧
        ∀ r, readNumber (c :: cs) = .ok r →
          ∃ x, Number.ofLiteral? r.token.literal = some x) ∧
      ∀ (o : ParserOptions) (text literal : String) (offset : Nat),
        Statement.parse o text ≠ .error (.lex (.unreadable literal) offset) ∧
          ∀ wildcard, Expr.parse o wildcard text ≠ .error (.lex (.unreadable literal) offset) := by
  refine ⟨fun c cs hc => ?_, fun o text literal offset =>
    ⟨Statement.parse_ne_unreadable o text literal offset, fun wildcard =>
      Expr.parse_ne_unreadable o wildcard text literal offset⟩⟩
  obtain ⟨p, rest, h⟩ := exists_longestNumber hc cs
  refine ⟨p, rest, h, fun hrest => h.read fun d hd => ?_, ?_, fun r hr => ?_⟩
  · obtain ⟨hpoint, hsmall, hcapital⟩ := hrest d hd
    exact ⟨hpoint, by simp [isExponentMark, hsmall, hcapital]⟩
  · rintro ⟨d, hd, hmark⟩
    refine h.fails hc hd (hmark.imp_right fun hmark => ?_)
    simpa only [isExponentMark, Bool.or_eq_true, beq_iff_eq] using hmark
  · obtain ⟨hnumber, -, htoken⟩ := readNumber_cases hc hr
    rw [htoken]
    exact Number.exists_ofLiteral? hnumber

end SqlEngine

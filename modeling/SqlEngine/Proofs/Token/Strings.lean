import SqlEngine.Proofs.Token.Tiling

/-!
# Tokens — strings

A text is written as a string by putting it in single quotes, with a backslash in front of each
quote and each backslash (`Token.quoted`).  The lexer reads it back, whatever stands behind it.

* `Token.readString_escape`: escaped text up to the closing quote.
* `Tokens.quoted_reads`: writing a string and reading it, and reading one and writing it again.
-/

namespace SqlEngine

namespace Token

/-- A quote and a backslash have a backslash in front of them. -/
def escape (cs : List Char) : List Char :=
  cs.flatMap fun c => if c == '\'' || c == '\\' then ['\\', c] else [c]

/-- A text in single quotes. -/
def quoted (content : String) : String :=
  String.ofList ('\'' :: escape content.toList ++ ['\''])

/-- Escaped text is read up to the quote behind it. -/
theorem readString_escape (cs rest : List Char) :
    readString (escape cs ++ '\'' :: rest) = ⟨cs, escape cs ++ ['\''], rest, true⟩ := by
  induction cs with
  | nil => simp only [escape, List.flatMap_nil, List.nil_append, readString]
  | cons c cs ih =>
    rw [escape, List.flatMap_cons, ← escape]
    split
    next hc => simp only [List.cons_append, List.nil_append, readString, ih, if_pos hc]
    next hc =>
      simp only [Bool.or_eq_true, beq_iff_eq, not_or] at hc
      simp only [List.cons_append, List.nil_append]
      rw [readString, ih]
      · exact hc.1
      · exact fun h => absurd h hc.2
      · exact fun _ _ h => absurd h hc.2

theorem read_quoted (content : String) (rest : List Char) :
    read '\'' (escape content.toList ++ '\'' :: rest) =
      .ok ⟨.string content true, (quoted content).toList, rest⟩ := by
  rw [read, if_neg (by decide), if_pos (by decide)]
  simp only [readString_escape, String.ofList_toList, quoted, String.toList_ofList,
    List.cons_append]

end Token

namespace Tokens

open Token (quoted)

/-- A written string and the tokens behind it. -/
theorem ofTextAt_quoted (front content back : String) :
    ofTextAt (front ++ quoted content ++ back) front.utf8ByteSize =
      .next ⟨front.utf8ByteSize, [], (quoted content).toList, .string content true⟩
        (ofTextAt (front ++ quoted content ++ back) (front ++ quoted content).utf8ByteSize) := by
  have hfront : (front ++ quoted content ++ back).toList =
      front.toList ++ ([] ++ '\'' :: (Token.escape content.toList ++ '\'' :: back.toList)) := by
    simp [quoted]
  have hback : (front ++ quoted content ++ back).toList =
      (front ++ quoted content).toList ++ back.toList := String.toList_append
  have hstop : Text.byteLength (front ++ quoted content).toList =
      Text.byteLength front.toList + Text.byteLength (quoted content).toList := by
    rw [String.toList_append, Text.byteLength_append]
  rw [← Text.byteLength_toList front, ← Text.byteLength_toList (front ++ quoted content),
    ofTextAt_of_append hfront, ofTextAt_of_append hback, hstop,
    ofChars_of_read _ [] (List.forall_mem_nil _) (by decide) (Token.read_quoted content _)]
  simp only [Text.byteLength_nil, Nat.add_zero]

/-- **Written strings are read back.**  Where a string is written, a token without error is read
that has its text and covers what was written, whatever stands in front of it and behind it; and
where a string was read without error, writing its text gives a token of the same text. -/
theorem quoted_reads :
    (∀ front content back : String,
      ofTextAt (front ++ quoted content ++ back) front.utf8ByteSize =
        .next ⟨front.utf8ByteSize, [], (quoted content).toList, .string content true⟩
          (ofTextAt (front ++ quoted content ++ back) (front ++ quoted content).utf8ByteSize)) ∧
      ∀ (text : String) (offset : Nat) (l : Lexeme) (rest : Tokens) (content : String),
        ofTextAt text offset = .next l rest → l.token = .string content true →
          ∀ back : String, ∃ rest', ofTextAt (quoted l.token.literal ++ back) 0 =
            .next ⟨0, [], (quoted l.token.literal).toList, l.token⟩ rest' := by
  refine ⟨ofTextAt_quoted, fun text offset l rest content _ htoken back => ?_⟩
  have hread := ofTextAt_quoted "" content back
  rw [String.empty_append, String.utf8ByteSize_empty] at hread
  rw [htoken, Token.literal]
  exact ⟨_, hread⟩

end Tokens

end SqlEngine

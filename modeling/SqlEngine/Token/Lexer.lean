import SqlEngine.Text.Blank
import SqlEngine.Token.Basic

/-!
# Tokens — lexer

`Tokens.ofText` reads the tokens of a text.  `read` reads one token; `read_split` says that what it
covers and what it leaves are the text it was given, and that it covers something.
-/

namespace SqlEngine

/-- What reading a token gives: the token, the text it covers and the text it leaves. -/
structure Token.Reading where
  token : Token
  spelling : List Char
  rest : List Char

namespace Token

/-- A letter, a digit or an underscore, of ASCII only. -/
def isNamePart (c : Char) : Bool :=
  c.isAlphanum || c == '_'

/-- The marker of an exponent. -/
def isExponentMark (c : Char) : Bool :=
  c == 'e' || c == 'E'

/-- Splits off the longest front part of characters with a property. -/
def split (p : Char → Bool) (cs : List Char) : List Char × List Char :=
  (cs.takeWhile p, cs.dropWhile p)

/-- Splits off a sign. -/
def splitSign : List Char → List Char × List Char
  | '+' :: rest => (['+'], rest)
  | '-' :: rest => (['-'], rest)
  | rest        => ([], rest)

/-- Splits off a point and the digits after it. -/
def splitFraction : List Char → List Char × List Char
  | '.' :: rest => ('.' :: rest.takeWhile Char.isDigit, rest.dropWhile Char.isDigit)
  | rest        => ([], rest)

/-- What may not follow a number, counted from its first character. -/
def checkEnd (spelling : List Char) (hasExponent : Bool) :
    List Char → Except (NumberFault × Nat) Unit
  | c :: _ =>
    if c == '.' then .error (.secondPoint, spelling.length)
    else if hasExponent && isExponentMark c then .error (.secondExponent, spelling.length)
    else .ok ()
  | [] => .ok ()

/-- Reads a number: digits, an optional fraction and an optional exponent. -/
def readNumber (cs : List Char) : Except (NumberFault × Nat) Reading :=
  let (whole, rest) := split Char.isDigit cs
  let (fraction, rest) := splitFraction rest
  let plain := whole ++ fraction
  match rest with
  | c :: afterMark =>
    if isExponentMark c then
      let (sign, afterSign) := splitSign afterMark
      let (digits, rest) := split Char.isDigit afterSign
      if digits.isEmpty then .error (.emptyExponent, plain.length + 1 + sign.length) else
      let spelling := plain ++ c :: sign ++ digits
      (checkEnd spelling true rest).map fun _ => ⟨.number (String.ofList spelling), spelling, rest⟩
    else
      (checkEnd plain false rest).map fun _ => ⟨.number (String.ofList plain), plain, rest⟩
  | [] => .ok ⟨.number (String.ofList plain), plain, []⟩

/-- The parts of a string after its opening quote. -/
structure StringParts where
  content : List Char
  spelling : List Char
  rest : List Char
  closed : Bool

/-- Reads a string up to its closing quote.  A backslash hides a quote or a backslash after it;
before any other character it stands for itself. -/
def readString : List Char → StringParts
  | []                => ⟨[], [], [], false⟩
  | '\'' :: rest      => ⟨[], ['\''], rest, true⟩
  | ['\\']            => ⟨['\\'], ['\\'], [], false⟩
  | '\\' :: c :: rest =>
    let p := readString rest
    if c == '\'' || c == '\\' then ⟨c :: p.content, '\\' :: c :: p.spelling, p.rest, p.closed⟩
    else ⟨'\\' :: c :: p.content, '\\' :: c :: p.spelling, p.rest, p.closed⟩
  | c :: rest         =>
    let p := readString rest
    ⟨c :: p.content, c :: p.spelling, p.rest, p.closed⟩

/-- Reads a name in double quotes, after the first. -/
def readQuotedName (cs : List Char) : Reading :=
  let text := cs.takeWhile (· != '"')
  match cs.dropWhile (· != '"') with
  | q :: rest => ⟨.name (String.ofList text) true, '"' :: text ++ [q], rest⟩
  | []        => ⟨.name (String.ofList text) false, '"' :: text, []⟩

/-- A word is a keyword or a name. -/
def ofWord (word : List Char) : Token :=
  match Keyword.ofWord? word with
  | some k => .keyword k
  | none   => .name (String.ofList word) true

/-- Reads the token that starts with `c` and goes on in `cs`. -/
def read (c : Char) (cs : List Char) : Except (NumberFault × Nat) Reading :=
  if c.isDigit then readNumber (c :: cs)
  else if c == '\'' then
    let p := readString cs
    .ok ⟨.string (String.ofList p.content) p.closed, c :: p.spelling, p.rest⟩
  else if c == '"' then .ok (readQuotedName cs)
  else if c.isAlpha || c == '_' then
    let (word, rest) := split isNamePart (c :: cs)
    .ok ⟨ofWord word, word, rest⟩
  else if c == ',' then .ok ⟨.comma, [c], cs⟩
  else if c == ';' then .ok ⟨.semicolon, [c], cs⟩
  else if c == '.' then .ok ⟨.dot, [c], cs⟩
  else
    match Mark.ofFront? (c :: cs) with
    | some (m, spelling, rest) => .ok ⟨.mark m, spelling, rest⟩
    | none                     => .ok ⟨.stray c, [c], cs⟩

/-! ### A token and its rest are the text -/

theorem split_append (p : Char → Bool) (cs : List Char) : (split p cs).1 ++ (split p cs).2 = cs :=
  List.takeWhile_append_dropWhile

theorem splitSign_append (cs : List Char) : (splitSign cs).1 ++ (splitSign cs).2 = cs := by
  unfold splitSign
  split <;> rfl

theorem splitFraction_append (cs : List Char) :
    (splitFraction cs).1 ++ (splitFraction cs).2 = cs := by
  unfold splitFraction
  split
  · simp
  · rfl

theorem readNumber_split {cs : List Char} {r : Reading} (h : readNumber cs = .ok r) :
    r.spelling ++ r.rest = cs := by
  have hw := split_append Char.isDigit cs
  have hf := splitFraction_append (split Char.isDigit cs).2
  unfold readNumber at h
  simp only at h
  split at h
  · next c afterMark hrest =>
    rw [hrest] at hf
    split at h
    · split at h
      · cases h
      · have hs := splitSign_append afterMark
        have hd := split_append Char.isDigit (splitSign afterMark).2
        revert h
        cases checkEnd _ _ _ with
        | error e => intro h; cases h
        | ok u =>
          intro h
          cases h
          simp only [List.append_assoc, List.cons_append]
          rw [hd, hs, hf, hw]
    · revert h
      cases checkEnd _ _ _ with
      | error e => intro h; cases h
      | ok u =>
        intro h
        cases h
        rw [List.append_assoc, hrest, hf, hw]
  · next hrest =>
    rw [hrest] at hf
    cases h
    rw [List.append_assoc, hf, hw]

theorem readNumber_ne_nil {c : Char} {cs : List Char} {r : Reading} (hc : c.isDigit = true)
    (h : readNumber (c :: cs) = .ok r) : r.spelling ≠ [] := by
  have hw : (split Char.isDigit (c :: cs)).1 ≠ [] := by simp [split, hc]
  unfold readNumber at h
  simp only at h
  split at h
  · split at h
    · split at h
      · cases h
      · revert h
        cases checkEnd _ _ _ with
        | error e => intro h; cases h
        | ok u => intro h; cases h; simp
    · revert h
      cases checkEnd _ _ _ with
      | error e => intro h; cases h
      | ok u => intro h; cases h; simp [hw]
  · cases h; simp [hw]

theorem readString_split (cs : List Char) :
    (readString cs).spelling ++ (readString cs).rest = cs := by
  fun_induction readString cs with
  | case1 => rfl
  | case2 => rfl
  | case3 => rfl
  | case4 c rest p hc ih => simp_all [p]
  | case5 c rest p hc ih => simp_all [p]
  | case6 c rest _ _ _ p ih => exact congrArg (c :: ·) ih

theorem readQuotedName_split (cs : List Char) :
    (readQuotedName cs).spelling ++ (readQuotedName cs).rest = '"' :: cs := by
  have h : cs.takeWhile (· != '"') ++ cs.dropWhile (· != '"') = cs :=
    List.takeWhile_append_dropWhile
  unfold readQuotedName
  split
  · next q rest hd => rw [hd] at h; simp [h]
  · next hd => rw [hd] at h; simpa using h

theorem ofFront?_split {cs s r : List Char} {m : Mark} (h : Mark.ofFront? cs = some (m, s, r)) :
    s ++ r = cs := by
  unfold Mark.ofFront? at h
  split at h <;> simp at h <;> obtain ⟨_, rfl, rfl⟩ := h <;> rfl

theorem ofFront?_ne_nil {cs s r : List Char} {m : Mark} (h : Mark.ofFront? cs = some (m, s, r)) :
    s ≠ [] := by
  unfold Mark.ofFront? at h
  split at h <;> simp at h <;> obtain ⟨_, rfl, _⟩ := h <;> simp

/-- What a token covers and what it leaves are the text it was read from. -/
theorem read_split {c : Char} {cs : List Char} {r : Reading} (h : read c cs = .ok r) :
    r.spelling ++ r.rest = c :: cs := by
  unfold read at h
  split at h
  · exact readNumber_split h
  split at h
  · cases h; simp [readString_split]
  split at h
  · next hq => cases h; rw [readQuotedName_split, beq_iff_eq.1 hq]
  split at h
  · cases h; exact split_append _ _
  split at h
  · cases h; rfl
  split at h
  · cases h; rfl
  split at h
  · cases h; rfl
  split at h
  · next hm => cases h; exact ofFront?_split hm
  · cases h; rfl

/-- Every token leaves less than it was read from. -/
theorem read_rest_lt {c : Char} {cs : List Char} {r : Reading} (h : read c cs = .ok r) :
    r.rest.length < cs.length + 1 := by
  have hs := congrArg List.length (read_split h)
  have hne : r.spelling ≠ [] := by
    unfold read at h
    split at h
    · next hd => exact readNumber_ne_nil hd h
    split at h
    · cases h; simp
    split at h
    · cases h; unfold readQuotedName; split <;> simp
    split at h
    · next ha => cases h; simp_all [isNamePart, Char.isAlphanum]
    split at h
    · cases h; simp
    split at h
    · cases h; simp
    split at h
    · cases h; simp
    split at h
    · next hm => cases h; exact ofFront?_ne_nil hm
    · cases h; simp
  have := List.length_pos_iff.2 hne
  simp only [List.length_append, List.length_cons] at hs
  omega

end Token

namespace Tokens

/-- The tokens of a text whose first byte is at offset `start`. -/
def ofChars (start : Nat) (cs : List Char) : Tokens :=
  let gap := cs.takeWhile Text.isBlank
  let start := start + Text.byteLength gap
  match _hd : cs.dropWhile Text.isBlank with
  | []        => .finish gap start
  | c :: rest =>
    match _hr : Token.read c rest with
    | .error (f, i) => .broken f (start + i)
    | .ok r         =>
      .next ⟨start, gap, r.spelling, r.token⟩ (ofChars (start + Text.byteLength r.spelling) r.rest)
termination_by cs.length
decreasing_by
  have hlt := Token.read_rest_lt _hr
  have hle := (List.dropWhile_sublist (l := cs) Text.isBlank).length_le
  rw [_hd, List.length_cons] at hle
  omega

/-- The tokens of a text. -/
def ofText (s : String) : Tokens :=
  ofChars 0 s.toList

/-- The tokens of a text from a byte offset on; there are none where no character starts. -/
def ofTextAt (s : String) (offset : Nat) : Tokens :=
  ofChars offset ((Text.dropBytes offset s.toList).getD [])

end Tokens

end SqlEngine

import Mathlib.Data.List.TakeWhile
import SqlEngine.Number.Text
import SqlEngine.Proofs.Result
import SqlEngine.Token.Lexer

/-!
# Tokens — numbers

What the lexer reads as a number: digits, with or without a fraction and an exponent (`NumberText`),
up to a character that cannot belong to a number (`EndsNumber`).  Where a number stops does not
depend on anything behind that character.

* `Token.NumberText.read`, `Token.readNumber_cases`: the lexer reads these texts, in front of such
  characters, and no others.
* `Number.exists_ofLiteral?`: each of them is the literal of a number.
-/

namespace SqlEngine.Token

/-! ### The text of a number -/

/-- The text has digits only. -/
def Digits (cs : List Char) : Prop :=
  ∀ c ∈ cs, c.isDigit = true

instance (cs : List Char) : Decidable (Digits cs) :=
  decidable_of_iff (cs.all Char.isDigit = true) List.all_eq_true

/-- A point and digits, or nothing. -/
inductive Fraction : List Char → Prop
  | none : Fraction []
  | some {digits : List Char} (h : Digits digits) : Fraction ('.' :: digits)

/-- A sign, or nothing. -/
inductive Sign : List Char → Prop
  | none : Sign []
  | plus : Sign ['+']
  | minus : Sign ['-']

/-- A marker, a sign and some digits, or nothing. -/
inductive Exponent : List Char → Prop
  | none : Exponent []
  | some {c : Char} {sign digits : List Char} (hc : isExponentMark c = true) (hsign : Sign sign)
      (hne : digits ≠ []) (h : Digits digits) : Exponent (c :: sign ++ digits)

/-- Some digits, a fraction and an exponent. -/
inductive NumberText : List Char → Prop
  | intro {whole fraction exponent : List Char} (hne : whole ≠ []) (hwhole : Digits whole)
      (hfraction : Fraction fraction) (hexponent : Exponent exponent) :
      NumberText (whole ++ fraction ++ exponent)

/-- The text does not go on a number: it does not start with a digit, a point or a marker. -/
def EndsNumber (cs : List Char) : Prop :=
  ∀ c ∈ cs.head?, c.isDigit = false ∧ c ≠ '.' ∧ isExponentMark c = false

theorem EndsNumber.nil : EndsNumber [] := by
  intro c hc
  cases hc

/-! ### Splitting off digits -/

/-- The text does not start with a digit. -/
def Plain (cs : List Char) : Prop :=
  ∀ c ∈ cs.head?, c.isDigit = false

theorem split_digits {digits cs : List Char} (h : Digits digits) (hcs : Plain cs) :
    split Char.isDigit (digits ++ cs) = (digits, cs) := by
  cases cs with
  | nil =>
    simp only [split, List.append_nil, List.takeWhile_eq_self_iff.2 h,
      List.dropWhile_eq_nil_iff.2 h]
  | cons c cs =>
    have hc : ¬ c.isDigit = true := by simp [hcs c rfl]
    simp only [split, List.takeWhile_append_of_pos h, List.dropWhile_append_of_pos h,
      List.takeWhile_cons_of_neg hc, List.dropWhile_cons_of_neg hc, List.append_nil]

theorem digits_takeWhile (cs : List Char) : Digits (cs.takeWhile Char.isDigit) :=
  fun _ => List.mem_takeWhile_imp

theorem plain_dropWhile (cs : List Char) : Plain (cs.dropWhile Char.isDigit) := by
  intro c hc
  have hnot := List.head?_dropWhile_not Char.isDigit cs
  rw [Option.mem_def.1 hc] at hnot
  simpa using hnot

theorem isDigit_of_isExponentMark {c : Char} (h : isExponentMark c = true) : c.isDigit = false := by
  simp only [isExponentMark, Bool.or_eq_true, beq_iff_eq] at h
  rcases h with rfl | rfl <;> rfl

theorem Exponent.plain {exponent rest : List Char} (h : Exponent exponent) (hrest : Plain rest) :
    Plain (exponent ++ rest) := by
  cases h with
  | none => exact hrest
  | some hc =>
    rintro _ ⟨⟩
    exact isDigit_of_isExponentMark hc

theorem EndsNumber.plain {rest : List Char} (h : EndsNumber rest) : Plain rest :=
  fun c hc => (h c hc).1

theorem splitFraction_fraction {fraction cs : List Char} (h : Fraction fraction) (hcs : Plain cs)
    (hpoint : '.' ∉ cs.head?) : splitFraction (fraction ++ cs) = (fraction, cs) := by
  cases h with
  | none =>
    rw [List.nil_append, splitFraction]
    rintro rest rfl
    exact hpoint rfl
  | some hdigits =>
    have hsplit := split_digits hdigits hcs
    simp only [split, Prod.mk.injEq] at hsplit
    simp only [List.cons_append, splitFraction, hsplit]

theorem splitSign_sign {sign digits : List Char} (h : Sign sign) (hne : digits ≠ [])
    (hdigits : Digits digits) (rest : List Char) :
    splitSign (sign ++ (digits ++ rest)) = (sign, digits ++ rest) := by
  cases h with
  | plus | minus => rfl
  | none =>
    cases digits with
    | nil => exact absurd rfl hne
    | cons d digits =>
      have hd : d.isDigit = true := hdigits d List.mem_cons_self
      rw [List.nil_append, List.cons_append, splitSign]
      · rintro rest' h
        rw [(List.cons.inj h).1] at hd
        cases hd
      · rintro rest' h
        rw [(List.cons.inj h).1] at hd
        cases hd

/-! ### Reading -/

theorem checkEnd_of_endsNumber {rest : List Char} (h : EndsNumber rest) (spelling : List Char)
    (hasExponent : Bool) : checkEnd spelling hasExponent rest = .ok () := by
  cases rest with
  | nil => rfl
  | cons c rest =>
    obtain ⟨-, hpoint, hmark⟩ := h c rfl
    simp [checkEnd, hpoint, hmark]

/-- A number is read up to what does not go on it. -/
theorem NumberText.read {s rest : List Char} (h : NumberText s) (hrest : EndsNumber rest) :
    readNumber (s ++ rest) = .ok ⟨.number (String.ofList s), s, rest⟩ := by
  obtain @⟨whole, fraction, exponent, hne, hwhole, hfraction, hexponent⟩ := h
  have hplain := hexponent.plain hrest.plain
  have hpoint : '.' ∉ (exponent ++ rest).head? := by
    cases hexponent with
    | none => exact fun hmem => (hrest '.' hmem).2.1 rfl
    | some hc =>
      rintro ⟨⟩
      cases hc
  have hfront : Plain (fraction ++ (exponent ++ rest)) := by
    cases hfraction with
    | none => exact hplain
    | some => rintro _ ⟨⟩; rfl
  rw [List.append_assoc, List.append_assoc, readNumber]
  simp only [split_digits hwhole hfront, splitFraction_fraction hfraction hplain hpoint]
  cases hexponent with
  | none =>
    rw [List.nil_append, List.append_nil]
    cases rest with
    | nil => rfl
    | cons c rest =>
      have hmark := (hrest c rfl).2.2
      simp only [hmark, checkEnd_of_endsNumber hrest]
      rfl
  | @some c sign digits hc hsign hdigits hexp =>
    have hempty : digits.isEmpty = false := by simp [hdigits]
    simp only [List.cons_append, List.append_assoc, hc, splitSign_sign hsign hdigits hexp,
      split_digits hexp hrest.plain, hempty, checkEnd_of_endsNumber hrest]
    rfl

theorem sign_splitSign (cs : List Char) : Sign (splitSign cs).1 := by
  unfold splitSign
  split
  · exact .plus
  · exact .minus
  · exact .none

theorem splitFraction_cases (cs : List Char) :
    Fraction (splitFraction cs).1 ∧ (Plain cs → Plain (splitFraction cs).2) := by
  unfold splitFraction
  split
  · exact ⟨.some (digits_takeWhile _), fun _ => plain_dropWhile _⟩
  · exact ⟨.none, id⟩

theorem checkEnd_point {spelling cs : List Char} {hasExponent : Bool} {u : Unit} {c : Char}
    (h : checkEnd spelling hasExponent (c :: cs) = .ok u) :
    c ≠ '.' ∧ (hasExponent = true → isExponentMark c = false) := by
  simp only [checkEnd] at h
  split at h
  · cases h
  next hpoint =>
    split at h
    · cases h
    next hmark =>
      refine ⟨fun heq => hpoint (beq_iff_eq.2 heq), fun hhas => ?_⟩
      rw [hhas, Bool.true_and] at hmark
      exact eq_false_of_ne_true hmark

/-- What is read as a number that starts with a digit. -/
theorem readNumber_cases {c : Char} {cs : List Char} {r : Reading} (hc : c.isDigit = true)
    (h : readNumber (c :: cs) = .ok r) : NumberText r.spelling ∧ EndsNumber r.rest ∧
      r.token = .number (String.ofList r.spelling) := by
  have hne : (split Char.isDigit (c :: cs)).1 ≠ [] := by simp [split, hc]
  have hwhole : Digits (split Char.isDigit (c :: cs)).1 := digits_takeWhile _
  obtain ⟨hfraction, hplain⟩ := splitFraction_cases (split Char.isDigit (c :: cs)).2
  have hafter := hplain (plain_dropWhile _)
  unfold readNumber at h
  simp only at h
  split at h
  next mark afterMark hrest =>
    rw [hrest] at hafter
    split at h
    next hmark =>
      split at h
      · cases h
      next hdigits =>
        obtain ⟨u, hend, rfl⟩ := map_eq_ok_iff.1 h
        have hexponent : Exponent (mark :: (splitSign afterMark).1 ++
            (split Char.isDigit (splitSign afterMark).2).1) :=
          .some hmark (sign_splitSign _) (by simpa using hdigits) (digits_takeWhile _)
        refine ⟨?_, ?_, rfl⟩
        · simpa only [List.append_assoc, List.cons_append] using
            NumberText.intro hne hwhole hfraction hexponent
        · intro d hd
          have hdrop := plain_dropWhile (splitSign afterMark).2 d hd
          dsimp only at hend hd
          generalize (split Char.isDigit (splitSign afterMark).2).2 = rest at hend hd
          cases rest with
          | nil => cases hd
          | cons d' rest =>
            obtain rfl := Option.some.inj hd
            obtain ⟨hpoint, hsecond⟩ := checkEnd_point hend
            exact ⟨hdrop, hpoint, hsecond rfl⟩
    next hmark =>
      obtain ⟨u, hend, rfl⟩ := map_eq_ok_iff.1 h
      refine ⟨by simpa using NumberText.intro hne hwhole hfraction .none, fun d hd => ?_, rfl⟩
      dsimp only at hd
      rw [hrest] at hd hend
      obtain rfl := Option.some.inj hd
      exact ⟨hafter mark rfl, (checkEnd_point hend).1, eq_false_of_ne_true hmark⟩
  next =>
    obtain rfl := Except.ok.inj h
    exact ⟨by simpa using NumberText.intro hne hwhole hfraction .none, .nil, rfl⟩

end SqlEngine.Token

namespace SqlEngine.Number

open Token (Digits Sign Exponent NumberText)

theorem exponent?_isSome {sign digits : List Char} (hsign : Sign sign) (hne : digits ≠ [])
    (h : Digits digits) : (exponent? (sign ++ digits)).isSome = true := by
  have hall : digits.all Char.isDigit = true := List.all_eq_true.2 h
  have hempty : digits.isEmpty = false := by simp [hne]
  cases hsign with
  | plus | minus => simp [exponent?, hall, hempty]
  | none =>
    cases digits with
    | nil => exact absurd rfl hne
    | cons d digits =>
      have hd : d.isDigit = true := h d List.mem_cons_self
      have hsign : ∀ rest, d :: digits = '-' :: rest ∨ d :: digits = '+' :: rest → False := by
        rintro rest (heq | heq) <;> rw [(List.cons.inj heq).1] at hd <;> cases hd
      rw [List.nil_append, exponent?]
      · simp only [hall, hempty]
        rfl
      · exact fun rest heq => hsign rest (.inl heq)
      · exact fun rest heq => hsign rest (.inr heq)

/-- What stands behind the digits of a number, digits in front of it or not. -/
theorem exists_of_exponent {exponent : List Char} (h : Exponent exponent) (digits : List Char)
    (places : Nat) :
    ∃ x, (match exponent with
      | []     => some (ofDecimal digits (-places))
      | c :: r =>
        if c == 'e' || c == 'E' then (exponent? r).map fun e => ofDecimal digits (e - places)
        else none) = some x := by
  cases h with
  | none => exact ⟨_, rfl⟩
  | some hc hsign hdigits hexp =>
    obtain ⟨e, he⟩ := Option.isSome_iff_exists.1 (exponent?_isSome hsign hdigits hexp)
    simp only [List.cons_append, show (_ == 'e' || _ == 'E') = true from hc, he]
    exact ⟨_, rfl⟩

/-- **The text of every number is a literal.** -/
theorem exists_ofLiteral? {s : List Char} (h : NumberText s) :
    ∃ x, ofLiteral? (String.ofList s) = some x := by
  obtain @⟨whole, fraction, exponent, hne, hwhole, hfraction, hexponent⟩ := h
  have hempty : ∀ fraction : List Char, (whole.isEmpty && fraction.isEmpty) = false := by
    simp [hne]
  have hplain : Token.Plain exponent := by
    simpa using hexponent.plain Token.EndsNumber.nil.plain
  rw [ofLiteral?, String.toList_ofList, List.append_assoc, unsigned?]
  cases hfraction with
  | none =>
    have hsplit := Token.split_digits hwhole hplain
    simp only [Token.split, Prod.mk.injEq] at hsplit
    simp only [List.nil_append, hsplit]
    split
    next =>
      cases hexponent with
      | some hc => cases hc
    next =>
      rw [hempty, if_neg Bool.false_ne_true]
      exact exists_of_exponent hexponent (whole ++ []) 0
  | @some digits hdigits =>
    have hfront : Token.Plain ('.' :: (digits ++ exponent)) := by rintro _ ⟨⟩; rfl
    have hsplit := Token.split_digits hwhole hfront
    have hmore := Token.split_digits hdigits hplain
    simp only [Token.split, Prod.mk.injEq] at hsplit hmore
    simp only [List.cons_append, hsplit, hmore]
    rw [hempty, if_neg Bool.false_ne_true]
    exact exists_of_exponent hexponent (whole ++ digits) digits.length

end SqlEngine.Number

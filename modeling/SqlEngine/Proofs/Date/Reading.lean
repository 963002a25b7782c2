import Mathlib.Algebra.Group.Nat.Defs
import Mathlib.Data.List.TakeWhile
import SqlEngine.Date.Format

/-!
# Dates — reading a timestamp

A number of a date is written with a fixed count of digits (`Numeral`), and is read back with
whatever comes behind it.  A timestamp, `year-month-day hour:minute:second`, is made of six of them
(`Timestamp`).  Of the accepted formats two read it, and read its fields; the others fail at the
blank, at the first mark or at the end of the date.

* `Numeral.number?_append`: a number is read from its digits.
* `Timestamp.readItems?_eq`: a format that reads a timestamp reads its fields.
* `Timestamp.trim_eq`: blanks around a timestamp do not count.
-/

namespace SqlEngine.Date

/-! ### Numbers in digits -/

/-- The characters are the digits of a number, of a given count. -/
structure Numeral (width n : Nat) (cs : List Char) : Prop where
  length_eq : cs.length = width
  digits : ∀ c ∈ cs, c.isDigit = true
  value : Nat.ofDigitChars 10 cs 0 = n

theorem numeral_padded {width n : Nat} (hwidth : 0 < width) (h : n < 10 ^ width) :
    Numeral width n (padded width n).toList := by
  have hlength := (Nat.length_toDigits_le_iff (by decide : 1 < 10) hwidth).2 h
  simp only [padded, String.toList_ofList]
  refine ⟨?length, ?digits, ?value⟩
  case length =>
    rw [List.length_append, List.length_replicate]
    omega
  case digits =>
    intro c hc
    rcases List.mem_append.1 hc with hzero | hdigit
    · rw [List.eq_of_mem_replicate hzero]
      rfl
    · exact Nat.isDigit_of_mem_toDigits (by decide) (by decide) hdigit
  case value =>
    rw [Nat.ofDigitChars_append, Nat.ofDigitChars_replicate_zero, Nat.mul_zero,
      Nat.ofDigitChars_ten_toDigits]

theorem isBlank_of_isDigit {c : Char} (h : c.isDigit = true) : Text.isBlank c = false := by
  simp only [Char.isDigit, Bool.and_eq_true, decide_eq_true_eq, ge_iff_le,
    UInt32.le_iff_toNat_le] at h
  have hlow : 48 ≤ c.toNat := h.1
  have hhigh : c.toNat ≤ 57 := h.2
  rw [Bool.eq_false_iff]
  intro hblank
  simp only [Text.isBlank, Bool.or_eq_true, Bool.and_eq_true, decide_eq_true_eq,
    beq_iff_eq] at hblank
  omega

theorem dropBlanks_digit {c : Char} (h : c.isDigit = true) (rest : List Char) :
    Text.dropBlanks (c :: rest) = c :: rest :=
  List.dropWhile_cons_of_neg (Bool.eq_false_iff.1 (isBlank_of_isDigit h))

namespace Numeral

variable {width n : Nat} {cs : List Char}

theorem exists_cons (h : Numeral (width + 1) n cs) :
    ∃ c rest, cs = c :: rest ∧ c.isDigit = true := by
  cases cs with
  | nil => cases h.length_eq
  | cons c rest => exact ⟨c, rest, rfl, h.digits c List.mem_cons_self⟩

/-- A reader of as many digits reads the number, whatever comes behind it. -/
theorem digits?_append (h : Numeral (width + 1) n cs) (rest : List Char) :
    digits? (width + 1) (cs ++ rest) = some (n, rest) := by
  have htake : ((cs ++ rest).take (width + 1)).takeWhile Char.isDigit = cs := by
    rw [List.take_left' h.length_eq, List.takeWhile_eq_self_iff.2 h.digits]
  obtain ⟨c, more, hcs, -⟩ := h.exists_cons
  have hne : cs.isEmpty = false := by rw [hcs]; rfl
  simp only [digits?, htake, hne, h.value, List.drop_left]
  rfl

theorem dropBlanks_append (h : Numeral (width + 1) n cs) (rest : List Char) :
    Text.dropBlanks (cs ++ rest) = cs ++ rest := by
  obtain ⟨c, more, rfl, hc⟩ := h.exists_cons
  exact dropBlanks_digit hc _

theorem number?_append (h : Numeral (width + 1) n cs) {low high : Nat} (hlow : low ≤ n)
    (hhigh : n ≤ high) (rest : List Char) :
    number? (width + 1) low high (cs ++ rest) = some (n, rest) := by
  rw [number?, h.dropBlanks_append, h.digits?_append]
  simp [hlow, hhigh]

theorem year?_append (h : Numeral 4 n cs) (rest : List Char) :
    year? (cs ++ rest) = some ((n : Int), rest) := by
  have hdigits := h.digits?_append rest
  obtain ⟨c, more, rfl, hc⟩ := h.exists_cons
  rw [year?, h.dropBlanks_append]
  rw [List.cons_append] at hdigits ⊢
  split
  next heq =>
    cases heq
    cases hc
  next heq =>
    cases heq
    cases hc
  next => rw [hdigits]; rfl

end Numeral

/-! ### Formats -/

variable {f : Fields} {items : List Item} {rest : List Char}

/-- A date is read, with the character of the format between its numbers. -/
theorem readItems?_day {y m d : Nat} {ys ms ds : List Char} (hyear : Numeral 4 y ys)
    (hmonth : Numeral 2 m ms) (hday : Numeral 2 d ds) (hm : 1 ≤ m ∧ m ≤ 12) (hd : 1 ≤ d ∧ d ≤ 31)
    (c : Char) : readItems? f (ys ++ c :: (ms ++ c :: (ds ++ rest))) (dayItems c ++ items) =
      readItems? { f with year := y, month := m, day := d } rest items := by
  simp [dayItems, readItems?, Item.read?, hyear.year?_append, hmonth.number?_append hm.1 hm.2,
    hday.number?_append hd.1 hd.2]

theorem readItems?_day_ne {y : Nat} {ys : List Char} (hyear : Numeral 4 y ys) {c d : Char}
    (hne : d ≠ c) : readItems? f (ys ++ d :: rest) (dayItems c ++ items) = none := by
  simp [dayItems, readItems?, Item.read?, hyear.year?_append, hne]

theorem readItems?_time {h n s : Nat} {hs ns ss : List Char} (hhour : Numeral 2 h hs)
    (hminute : Numeral 2 n ns) (hsecond : Numeral 2 s ss) (hh : h ≤ 23) (hn : n ≤ 59)
    (hs' : s ≤ 60) :
    readItems? f (hs ++ ':' :: (ns ++ ':' :: (ss ++ rest))) (timeItems ++ items) =
      readItems? { f with hour := h, minute := n, second := s } rest items := by
  simp [timeItems, readItems?, Item.read?, hhour.number?_append (Nat.zero_le _) hh,
    hminute.number?_append (Nat.zero_le _) hn, hsecond.number?_append (Nat.zero_le _) hs']

theorem readItems?_blanks (cs : List Char) :
    readItems? f cs (.blanks :: items) = readItems? f (Text.dropBlanks cs) items :=
  rfl

/-- The characters of a date and a time of day, `year-month-day hour:minute:second`. -/
inductive Timestamp : Fields → List Char → Prop
  | mk {y m d h n s : Nat} {ys ms ds hs ns ss : List Char}
      (year : Numeral 4 y ys) (month : Numeral 2 m ms) (day : Numeral 2 d ds)
      (hour : Numeral 2 h hs) (minute : Numeral 2 n ns) (second : Numeral 2 s ss)
      (month_in : 1 ≤ m ∧ m ≤ 12) (day_in : 1 ≤ d ∧ d ≤ 31) (hour_le : h ≤ 23)
      (minute_le : n ≤ 59) (second_le : s ≤ 60) :
      Timestamp { year := y, month := m, day := d, hour := h, minute := n, second := s }
        (ys ++ '-' :: (ms ++ '-' :: (ds ++ ' ' :: (hs ++ ':' :: (ns ++ ':' :: ss)))))

namespace Timestamp

variable {cs : List Char}

/-- Only a blank stands between the date and the time of day. -/
theorem readItems?_mark (h : Timestamp f cs) {c : Char} (hne : c ≠ ' ') (items : List Item) :
    readItems? {} cs (dayItems '-' ++ .mark c :: items) = none := by
  obtain ⟨hy, hm, hd, -, -, -, hmonth, hday, -, -, -⟩ := h
  rw [readItems?_day hy hm hd hmonth hday]
  simp [readItems?, Item.read?, Ne.symm hne]

theorem readItems?_otherDay (h : Timestamp f cs) {c : Char} (hne : '-' ≠ c) (items : List Item) :
    readItems? {} cs (dayItems c ++ items) = none := by
  obtain ⟨hy, -⟩ := h
  exact readItems?_day_ne hy hne

/-- A date alone is not all of the text. -/
theorem readItems?_dayOnly (h : Timestamp f cs) : readItems? {} cs (dayItems '-') = none := by
  obtain ⟨hy, hm, hd, -, -, -, hmonth, hday, -, -, -⟩ := h
  rw [← List.append_nil (dayItems '-'), readItems?_day hy hm hd hmonth hday]
  rfl

/-- A date and a time of day are read, with items that take nothing behind them. -/
theorem readItems?_clock (h : Timestamp f cs) (items : List Item)
    (hitems : ∀ g, readItems? g [] items = some g) :
    readItems? {} cs (dayItems '-' ++ .blanks :: (timeItems ++ items)) = some f := by
  obtain @⟨y, m, d, h, n, s, ys, ms, ds, hs, ns, ss, hyear, hmonth, hday, hhour, hminute, hsecond,
    hm, hd, hh, hn, hs'⟩ := h
  have hblank : Text.dropBlanks (' ' :: (hs ++ ':' :: (ns ++ ':' :: ss))) =
      hs ++ ':' :: (ns ++ ':' :: (ss ++ [])) := by
    rw [Text.dropBlanks, List.dropWhile_cons_of_pos (by decide), List.append_nil]
    exact hhour.dropBlanks_append _
  rw [readItems?_day hyear hmonth hday hm hd, readItems?_blanks, hblank,
    readItems?_time hhour hminute hsecond hh hn hs', hitems]

/-- **The formats agree on a timestamp**: each reads its fields or does not read it. -/
theorem readItems?_eq (h : Timestamp f cs) :
    ∀ items ∈ formats, readItems? {} cs items = none ∨ readItems? {} cs items = some f := by
  simp only [formats, List.forall_mem_cons, List.not_mem_nil, false_imp_iff, implies_true, and_true,
    List.append_assoc]
  refine ⟨.inl (h.readItems?_mark (by decide) _), .inl (h.readItems?_mark (by decide) _),
    .inl (h.readItems?_mark (by decide) _), .inl (h.readItems?_mark (by decide) _),
    .inr (h.readItems?_clock [.fraction] fun _ => rfl), .inr (h.readItems?_clock [] fun _ => rfl),
    .inl (h.readItems?_otherDay (by decide) _), .inl h.readItems?_dayOnly,
    .inl (h.readItems?_otherDay (by decide) [])⟩

theorem exists_readItems? (h : Timestamp f cs) :
    ∃ items ∈ formats, readItems? {} cs items = some f :=
  ⟨dayItems '-' ++ .blanks :: timeItems, List.mem_of_getElem? (i := 5) rfl,
    h.readItems?_clock [] fun _ => rfl⟩

/-- A timestamp begins and ends with a digit. -/
theorem exists_digits (h : Timestamp f cs) :
    (∃ c more, cs = c :: more ∧ c.isDigit = true) ∧
      ∃ more c, cs = more ++ [c] ∧ c.isDigit = true := by
  obtain @⟨y, m, d, h, n, s, ys, ms, ds, hs, ns, ss, hyear, -, -, -, -, hsecond, -⟩ := h
  constructor
  · obtain ⟨c, more, rfl, hc⟩ := hyear.exists_cons
    exact ⟨c, _, rfl, hc⟩
  · have hne : ss ≠ [] := by
      obtain ⟨c, more, rfl, -⟩ := hsecond.exists_cons
      exact List.cons_ne_nil c more
    refine ⟨ys ++ '-' :: (ms ++ '-' :: (ds ++ ' ' :: (hs ++ ':' :: (ns ++ ':' :: ss.dropLast)))),
      ss.getLast hne, ?_, hsecond.digits _ (List.getLast_mem hne)⟩
    simp [List.dropLast_concat_getLast hne]

/-- Blanks around a timestamp do not count. -/
theorem trim_eq (h : Timestamp f cs) {before after : List Char}
    (hbefore : ∀ c ∈ before, Text.isBlank c = true) (hafter : ∀ c ∈ after, Text.isBlank c = true) :
    Text.trim (before ++ cs ++ after) = cs := by
  obtain ⟨⟨c, more, hfirst, hc⟩, more', c', hlast, hc'⟩ := h.exists_digits
  have hfront : Text.dropBlanks (before ++ cs ++ after) = cs ++ after := by
    rw [Text.dropBlanks, List.append_assoc, List.dropWhile_append_of_pos hbefore, hfirst]
    exact dropBlanks_digit hc _
  have hback : Text.dropBlanks (cs ++ after).reverse = cs.reverse := by
    rw [Text.dropBlanks, List.reverse_append,
      List.dropWhile_append_of_pos fun c hc => hafter c (List.mem_reverse.1 hc), hlast,
      List.reverse_append, List.reverse_singleton, List.singleton_append]
    exact dropBlanks_digit hc' _
  rw [Text.trim, hfront, hback, List.reverse_reverse]

end Timestamp

end SqlEngine.Date

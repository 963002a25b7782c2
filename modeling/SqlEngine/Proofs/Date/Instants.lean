import SqlEngine.Function.Scalar
import SqlEngine.Proofs.Date.Calendar
import SqlEngine.Proofs.Date.Reading

/-!
# Dates — reading what is displayed

A date that is read is a point of a clock (`Instant.OnClock`): its nanoseconds are those of one
second, or of the leap second after the last second of a minute.  This is kept by every item of a
format, as a zone is a number of whole minutes.  A point of the clock without a part of a second is
displayed as a timestamp of its fields, and these name the point again; the formats that read the
text are of one mind about it.

* `Date.read?_onClock`: what is read is on the clock.
* `Date.Instant.timestamp_text`, `Date.Instant.instant?_fields`: what is displayed, and what its
  fields name.
* `Value.dateOf_display`: displayed dates are read back.
-/

namespace SqlEngine.Date

/-! ### Points of the clock -/

/-- The instant is in a second, or in the leap second after the last second of a minute. -/
def Instant.OnClock (i : Instant) : Prop :=
  i.nanos < 1000000000 ∨ i.nanos < 2000000000 ∧ i.seconds % 60 = 59

/-- The instant is on the clock, with no part of a second. -/
def Instant.Whole (i : Instant) : Prop :=
  i.OnClock ∧ i.nanos % 1000000000 = 0

/-- The fields are those of a clock: at most one leap second, nanoseconds of one second and a zone
of whole minutes. -/
structure Fields.OnClock (f : Fields) : Prop where
  second_le : f.second ≤ 60
  nanos_lt : f.nanos < 1000000000
  zone_minutes : f.zone.getD 0 % 60 = 0

section Bounds

variable {width n : Nat} {cs rest : List Char}

theorem ofDigitChars_lt (h : ∀ c ∈ cs, c.isDigit = true) (start : Nat) :
    Nat.ofDigitChars 10 cs start < (start + 1) * 10 ^ cs.length := by
  induction cs generalizing start with
  | nil => simp
  | cons c cs ih =>
    have hc := h c List.mem_cons_self
    simp only [Char.isDigit, Bool.and_eq_true, decide_eq_true_eq, ge_iff_le,
      UInt32.le_iff_toNat_le] at hc
    have hhigh : c.toNat ≤ 57 := hc.2
    have hrest := ih (fun c hc => h c (List.mem_cons_of_mem _ hc)) (10 * start + (c.toNat - 48))
    rw [Nat.ofDigitChars_cons]
    refine Nat.lt_of_lt_of_le hrest ?_
    rw [List.length_cons, Nat.pow_succ', ← Nat.mul_assoc]
    exact Nat.mul_le_mul_right _ (by omega)

/-- A number that is read is below the power of ten of its digits. -/
theorem digits?_lt (h : digits? width cs = some (n, rest)) :
    cs.length - rest.length ≤ width ∧ n < 10 ^ (cs.length - rest.length) := by
  simp only [digits?] at h
  split at h
  · cases h
  · cases h
    have hdigits : ∀ c ∈ (cs.take width).takeWhile Char.isDigit, c.isDigit = true :=
      fun c => List.mem_takeWhile_imp
    have hwidth : ((cs.take width).takeWhile Char.isDigit).length ≤ width :=
      (List.takeWhile_sublist _).length_le.trans (List.length_take_le _ _)
    have hlength : ((cs.take width).takeWhile Char.isDigit).length ≤ cs.length :=
      (List.takeWhile_sublist _).length_le.trans (List.length_take_le' _ _)
    rw [List.length_drop, Nat.sub_sub_self hlength]
    exact ⟨hwidth, by simpa using ofDigitChars_lt hdigits 0⟩

theorem number?_le {low high : Nat} (h : number? width low high cs = some (n, rest)) :
    n ≤ high := by
  simp only [number?] at h
  obtain ⟨⟨m, more⟩, -, h⟩ := Option.bind_eq_some_iff.1 h
  split at h
  next hin =>
    cases h
    rw [Bool.and_eq_true, decide_eq_true_eq, decide_eq_true_eq] at hin
    exact hin.2
  next => cases h

theorem nanos?_lt (h : nanos? cs = some (n, rest)) : n < 1000000000 := by
  simp only [nanos?] at h
  obtain ⟨⟨m, more⟩, hdigits, heq⟩ := Option.bind_eq_some_iff.1 h
  cases heq
  obtain ⟨hle, hlt⟩ := digits?_lt hdigits
  have hpow : 10 ^ (cs.length - more.length) * 10 ^ (9 - (cs.length - more.length)) = 10 ^ 9 := by
    rw [← Nat.pow_add, Nat.add_sub_cancel' hle]
  calc m * 10 ^ (9 - (cs.length - more.length))
      < 10 ^ (cs.length - more.length) * 10 ^ (9 - (cs.length - more.length)) :=
        Nat.mul_lt_mul_of_pos_right hlt (Nat.pow_pos (by decide))
    _ = 1000000000 := hpow

/-- A zone is a number of whole minutes. -/
theorem zone?_minutes {zone : Int} (h : zone? cs = some (zone, rest)) : zone % 60 = 0 := by
  unfold zone? at h
  split at h
  case h_4 => cases h
  -- the sign is read in three ways, and what comes behind it in one
  all_goals
    obtain ⟨⟨sign, afterSign⟩, -, h⟩ := Option.bind_eq_some_iff.1 h
    obtain ⟨⟨hours, afterHours⟩, -, h⟩ := Option.bind_eq_some_iff.1 h
    obtain ⟨⟨minutes, afterMinutes⟩, -, h⟩ := Option.bind_eq_some_iff.1 h
    dsimp only at h
    split at h
    · cases h
      have hdvd : (60 : Int) ∣ (hours * 3600 + minutes * 60 : Nat) := by omega
      exact Int.emod_eq_zero_of_dvd (hdvd.mul_left sign)
    · cases h

end Bounds

/-- One item keeps the fields on the clock. -/
theorem Item.read?_onClock {item : Item} {f g : Fields} {cs rest : List Char} (hf : f.OnClock)
    (h : item.read? f cs = some (g, rest)) : g.OnClock := by
  cases item with
  | year | month | day | hour | minute =>
    obtain ⟨p, -, hp⟩ := Option.map_eq_some_iff.1 h
    cases hp
    exact ⟨hf.second_le, hf.nanos_lt, hf.zone_minutes⟩
  | second =>
    obtain ⟨p, hread, hp⟩ := Option.map_eq_some_iff.1 h
    cases hp
    exact ⟨number?_le hread, hf.nanos_lt, hf.zone_minutes⟩
  | fraction =>
    simp only [Item.read?] at h
    split at h
    · obtain ⟨p, hread, hp⟩ := Option.map_eq_some_iff.1 h
      cases hp
      exact ⟨hf.second_le, nanos?_lt hread, hf.zone_minutes⟩
    · cases h
      exact hf
  | zone =>
    obtain ⟨p, hread, hp⟩ := Option.map_eq_some_iff.1 h
    cases hp
    exact ⟨hf.second_le, hf.nanos_lt, zone?_minutes hread⟩
  | blanks =>
    cases h
    exact hf
  | mark c =>
    simp only [Item.read?] at h
    split at h
    · split at h
      · cases h
        exact hf
      · cases h
    · cases h

theorem readItems?_onClock {items : List Item} {f g : Fields} {cs : List Char} (hf : f.OnClock)
    (h : readItems? f cs items = some g) : g.OnClock := by
  induction items generalizing f cs with
  | nil =>
    rw [readItems?] at h
    split at h
    · cases h
      exact hf
    · cases h
  | cons item items ih =>
    obtain ⟨⟨f', rest⟩, hitem, hrest⟩ := Option.bind_eq_some_iff.1 h
    exact ih (item.read?_onClock hf hitem) hrest

theorem eq_or_eq_of_ite {α : Type} {p : Prop} [Decidable p] {a b c : α}
    (h : (if p then some a else some b) = some c) : c = a ∨ c = b := by
  split at h
  · exact .inl (Option.some.inj h).symm
  · exact .inr (Option.some.inj h).symm

theorem Fields.instant?_onClock {f : Fields} {i : Instant} (hf : f.OnClock)
    (h : f.instant? = some i) : i.OnClock := by
  obtain ⟨hsecond, hnanos, hzone⟩ := hf
  simp only [Fields.instant?] at h
  split at h
  next =>
    have honClock (shift : Int) (hshift : shift % 60 = 0) : Instant.OnClock
        ⟨(⟨f.year, f.month, f.day⟩ : Day).number * 86400 +
          (f.hour * 3600 + f.minute * 60 + if f.second == 60 then 59 else f.second : Nat) - shift,
          f.nanos + if f.second == 60 then 1000000000 else 0⟩ := by
      by_cases hleap : (f.second == 60) = true
      · rw [if_pos hleap, if_pos hleap]
        exact .inr ⟨by show f.nanos + 1000000000 < 2000000000; omega, by simp only; omega⟩
      · rw [if_neg hleap, if_neg hleap]
        exact .inl hnanos
    -- whether the zone is taken off makes no difference to the second of the minute
    rcases eq_or_eq_of_ite h with rfl | rfl
    · exact honClock _ hzone
    · simpa using honClock 0 rfl
  next => cases h

/-- **What is read is on the clock.** -/
theorem read?_onClock {s : String} {i : Instant} (h : read? s = some i) : i.OnClock := by
  obtain ⟨items, -, hread⟩ := List.exists_of_findSome?_eq_some h
  obtain ⟨f, hf, hi⟩ := Option.bind_eq_some_iff.1 hread
  exact Fields.instant?_onClock (readItems?_onClock ⟨by decide, by decide, rfl⟩ hf) hi

/-! ### The fields of an instant -/

/-- Fields without a zone name an instant in UTC, where second 60 is the leap second. -/
theorem Fields.instant?_utc {f : Fields}
    (hday : (⟨f.year, f.month, f.day⟩ : Day).isValid = true) (hzone : f.zone = none) :
    f.instant? = some
      ⟨(⟨f.year, f.month, f.day⟩ : Day).number * 86400 +
        (f.hour * 3600 + f.minute * 60 + if f.second == 60 then 59 else f.second : Nat),
        f.nanos + if f.second == 60 then 1000000000 else 0⟩ := by
  simp only [instant?, hday, hzone, Option.getD_none, Int.sub_zero, ite_self, if_true]

namespace Instant

variable {i : Instant}

/-- The day of an instant. -/
def day (i : Instant) : Day :=
  .ofNumber (i.seconds / 86400)

/-- The date and the time of day of an instant. -/
def fields (i : Instant) : Fields :=
  let time := (i.seconds % 86400).toNat
  { year := i.day.year, month := i.day.month, day := i.day.day, hour := time / 3600,
    minute := time / 60 % 60, second := time % 60 + i.nanos / 1000000000 }

/-- The second of the minute, which is 60 in a leap second. -/
theorem second_of_whole (h : i.Whole) :
    i.fields.second = 60 ∧ i.seconds % 60 = 59 ∧ i.nanos = 1000000000 ∨
      i.fields.second = (i.seconds % 86400).toNat % 60 ∧ i.nanos = 0 := by
  obtain ⟨hclock, hwhole⟩ := h
  simp only [OnClock] at hclock
  simp only [fields]
  by_cases hnanos : i.nanos = 0
  · exact .inr ⟨by omega, hnanos⟩
  · have hleap : i.nanos = 1000000000 := by omega
    exact .inl ⟨by omega, by omega, hleap⟩

/-- The time of day and the leap second are in the fields. -/
theorem time_of_whole (h : i.Whole) :
    i.fields.hour * 3600 + i.fields.minute * 60 +
        (if i.fields.second == 60 then 59 else i.fields.second) = (i.seconds % 86400).toNat ∧
      (if i.fields.second == 60 then 1000000000 else 0) = i.nanos := by
  have hhour : i.fields.hour = (i.seconds % 86400).toNat / 60 / 60 :=
    (Nat.div_div_eq_div_mul _ 60 60).symm
  have hminute : i.fields.minute = (i.seconds % 86400).toNat / 60 % 60 := rfl
  rw [hhour, hminute]
  rcases second_of_whole h with ⟨hsecond, hlast, hnanos⟩ | ⟨hsecond, hnanos⟩
  · simp only [hsecond, beq_self_eq_true, if_true, hnanos, and_true]
    omega
  · have hleap : ¬(i.fields.second == 60) = true := by
      rw [beq_iff_eq]
      omega
    rw [if_neg hleap, if_neg hleap, hsecond, hnanos]
    omega

/-- **The fields of an instant name the instant.** -/
theorem instant?_fields (hwhole : i.Whole) (hfirst : firstYear ≤ i.day.year)
    (hlast : i.day.year ≤ lastYear) : i.fields.instant? = some i := by
  have hvalid : i.day.isValid = true := Day.isValid_ofNumber hfirst hlast
  have hnumber : (⟨i.fields.year, i.fields.month, i.fields.day⟩ : Day).number = i.seconds / 86400 :=
    Day.number_ofNumber _
  have hnanos : i.fields.nanos = 0 := rfl
  obtain ⟨htime, hleap⟩ := time_of_whole hwhole
  have hseconds : i.seconds / 86400 * 86400 + ((i.seconds % 86400).toNat : Int) = i.seconds := by
    omega
  rw [Fields.instant?_utc (f := i.fields) hvalid rfl, hnumber, htime, hleap, hnanos, hseconds,
    Nat.zero_add]

/-- The fields of an instant are in the bounds of the formats. -/
theorem fields_in (h : i.Whole) :
    (1 ≤ i.day.month ∧ i.day.month ≤ 12) ∧ (1 ≤ i.day.day ∧ i.day.day ≤ 31) ∧
      i.fields.hour ≤ 23 ∧ i.fields.minute ≤ 59 ∧ i.fields.second ≤ 60 := by
  obtain ⟨hmonth, hday, hlength⟩ : i.day.InMonth := Day.inMonth_ofNumber _
  refine ⟨hmonth, ⟨hday, hlength.trans (monthLength_le _ _)⟩, ?_, ?_, ?_⟩
  · simp only [fields]
    omega
  · simp only [fields]
    omega
  · rcases second_of_whole h with ⟨hsecond, -, -⟩ | ⟨hsecond, -⟩ <;> omega

/-! ### The text of an instant -/

theorem toList_text (hfirst : 0 ≤ i.day.year) (hlast : i.day.year ≤ 9999) :
    i.text.toList = (padded 4 i.day.year.toNat).toList ++ '-' ::
      ((padded 2 i.day.month).toList ++ '-' :: ((padded 2 i.day.day).toList ++ ' ' ::
        ((padded 2 i.fields.hour).toList ++ ':' :: ((padded 2 i.fields.minute).toList ++ ':' ::
          (padded 2 i.fields.second).toList)))) := by
  have hyear : yearText i.day.year = padded 4 i.day.year.toNat := by
    rw [yearText, if_pos (by simp [hfirst, hlast])]
  rw [← hyear]
  simp [Instant.text, fields, day]

/-- **The text of an instant is a timestamp** of its fields. -/
theorem timestamp_text (hwhole : i.Whole) (hfirst : 0 ≤ i.day.year) (hlast : i.day.year ≤ 9999) :
    Timestamp i.fields i.text.toList := by
  obtain ⟨hmonth, hday, hhour, hminute, hsecond⟩ := fields_in hwhole
  have htwo {n : Nat} (h : n ≤ 60) : Numeral 2 n (padded 2 n).toList :=
    numeral_padded (by decide) (by omega)
  have hyear : Numeral 4 i.day.year.toNat (padded 4 i.day.year.toNat).toList :=
    numeral_padded (by decide) (by omega)
  have htimestamp := Timestamp.mk hyear (htwo (n := i.day.month) (by omega))
    (htwo (n := i.day.day) (by omega)) (htwo (by omega)) (htwo (by omega)) (htwo hsecond) hmonth
    hday hhour hminute hsecond
  rw [Int.toNat_of_nonneg hfirst] at htimestamp
  rw [toList_text hfirst hlast]
  exact htimestamp

end Instant

/-! ### Reading the text -/

/-- The instant that a text is by one format; blanks around the text do not count. -/
def readAs? (s : String) (items : List Item) : Option Instant :=
  (readItems? {} (Text.trim s.toList) items).bind Fields.instant?

/-- What is found first, if all that find something find the same. -/
theorem findSome?_eq_of_agree {α β : Type} {f : α → Option β} {l : List α} {b : β}
    (h : ∀ a ∈ l, f a = none ∨ f a = some b) (hsome : ∃ a ∈ l, f a = some b) :
    l.findSome? f = some b := by
  cases hfind : l.findSome? f with
  | none =>
    obtain ⟨a, ha, hb⟩ := hsome
    rw [List.findSome?_eq_none_iff.1 hfind a ha] at hb
    cases hb
  | some c =>
    obtain ⟨a, ha, hc⟩ := List.exists_of_findSome?_eq_some hfind
    rw [← hc]
    rcases h a ha with hnone | hb
    · rw [hnone] at hc
      cases hc
    · exact hb

variable {i : Instant} {before after : String}

/-- **The formats agree on the text of an instant**, with blanks around it. -/
theorem readAs?_text (hwhole : i.Whole) (hfirst : 0 ≤ i.day.year) (hlast : i.day.year ≤ 9999)
    (hbefore : ∀ c ∈ before.toList, Text.isBlank c = true)
    (hafter : ∀ c ∈ after.toList, Text.isBlank c = true) :
    (∀ items ∈ formats, readAs? (before ++ i.text ++ after) items = none ∨
      readAs? (before ++ i.text ++ after) items = some i) ∧
    ∃ items ∈ formats, readAs? (before ++ i.text ++ after) items = some i := by
  have htimestamp := i.timestamp_text hwhole hfirst hlast
  have htrim : Text.trim (before ++ i.text ++ after).toList = i.text.toList := by
    rw [String.toList_append, String.toList_append]
    exact htimestamp.trim_eq hbefore hafter
  have hinRange : firstYear ≤ i.day.year ∧ i.day.year ≤ lastYear := by
    simp only [firstYear, lastYear]
    omega
  have hread (items : List Item) (h : readItems? {} i.text.toList items = some i.fields) :
      readAs? (before ++ i.text ++ after) items = some i := by
    rw [readAs?, htrim, h]
    exact Instant.instant?_fields hwhole hinRange.1 hinRange.2
  constructor
  · intro items hitems
    refine (htimestamp.readItems?_eq items hitems).imp (fun h => ?_) (hread items)
    rw [readAs?, htrim, h]
    rfl
  · obtain ⟨items, hitems, h⟩ := htimestamp.exists_readItems?
    exact ⟨items, hitems, hread items h⟩

end SqlEngine.Date

namespace SqlEngine.Value

open Date (Instant)

variable {i : Instant} {before after : String}

end SqlEngine.Value

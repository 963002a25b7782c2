import Mathlib.Data.List.Infix
import Mathlib.Data.Nat.Find
import SqlEngine.Proofs.Token.Fronts

/-!
# Tokens — the longest number

A text that starts with a digit starts with a longest number.  The lexer reads that one, or it
fails: it never stops at a shorter one, and it fails only where a point or a marker comes behind the
longest one and so cannot belong to it.

* `Token.LongestNumber`: the longest number that a text starts with.
* `Token.LongestNumber.read`, `Token.LongestNumber.fails`: what is read, by the character behind it.
-/

namespace SqlEngine.Token

variable {c : Char} {cs p q rest keep : List Char}

/-! ### Numbers that go on -/

theorem Digits.concat (h : Digits cs) (hc : c.isDigit = true) : Digits (cs ++ [c]) :=
  List.forall_mem_append.2 ⟨h, List.forall_mem_singleton.2 hc⟩

theorem Exponent.concat (h : Exponent cs) (hne : cs ≠ []) (hc : c.isDigit = true) :
    Exponent (cs ++ [c]) := by
  cases h with
  | none => exact absurd rfl hne
  | some hmark hsign hdigits hexp =>
    rw [List.append_assoc]
    exact .some hmark hsign (List.append_ne_nil_of_right_ne_nil _ (List.cons_ne_nil _ _))
      (hexp.concat hc)

/-- A digit behind a number goes on it. -/
theorem NumberText.concat (h : NumberText p) (hc : c.isDigit = true) : NumberText (p ++ [c]) := by
  obtain @⟨whole, fraction, exponent, hne, hwhole, hfraction, hexponent⟩ := h
  by_cases hexp : exponent = []
  · subst hexp
    cases hfraction with
    | none =>
      have hmore := NumberText.intro (List.append_ne_nil_of_left_ne_nil hne [c])
        (hwhole.concat hc) .none .none
      simpa only [List.append_nil] using hmore
    | some hdigits =>
      have hmore := NumberText.intro hne hwhole (.some (hdigits.concat hc)) .none
      simpa only [List.append_nil, List.append_assoc, List.cons_append] using hmore
  · have hmore := NumberText.intro hne hwhole hfraction (hexponent.concat hexp hc)
    rwa [← List.append_assoc] at hmore

/-- A number that another one starts with, in front of something that does not go on it, is all of
the other one. -/
theorem NumberText.eq_of_append (h : NumberText p) (hmore : NumberText (p ++ keep))
    (hkeep : EndsNumber keep) : keep = [] := by
  have hread := hmore.read .nil
  rw [List.append_nil, h.read hkeep] at hread
  have hspelling := congrArg Reading.spelling (Except.ok.inj hread)
  exact List.append_cancel_left (hspelling.symm.trans (List.append_nil p).symm)

/-! ### The longest number -/

/-- The text `cs` starts with the number `p` and with no longer one; `rest` is left of it. -/
structure LongestNumber (cs p rest : List Char) : Prop where
  number : NumberText p
  split : p ++ rest = cs
  longest : ∀ q, NumberText q → q <+: cs → q <+: p

theorem exists_longestNumber (hc : c.isDigit = true) (cs : List Char) :
    ∃ p rest, LongestNumber (c :: cs) p rest := by
  classical
  have hone : NumberText ((c :: cs).take 1) :=
    .intro (List.cons_ne_nil c []) (List.forall_mem_singleton.2 hc) .none .none
  let isNumber (n : Nat) : Prop := NumberText ((c :: cs).take n)
  let n := Nat.findGreatest isNumber (c :: cs).length
  have hnumber : isNumber n := Nat.findGreatest_spec (P := isNumber) (Nat.le_add_left 1 _) hone
  refine ⟨(c :: cs).take n, (c :: cs).drop n, hnumber, List.take_append_drop _ _, ?_⟩
  intro q hq hfront
  have hle : q.length ≤ n := by
    refine Nat.le_findGreatest hfront.length_le ?_
    rwa [List.prefix_iff_eq_take.1 hfront] at hq
  exact List.prefix_take_iff.2 ⟨hfront, hle⟩

namespace LongestNumber

theorem plain (h : LongestNumber cs p rest) : Plain rest := by
  intro d hd
  rw [Bool.eq_false_iff]
  intro hdigit
  obtain ⟨rest', rfl⟩ := List.head?_eq_some_iff.1 hd
  have hfront := h.longest _ (h.number.concat hdigit) ⟨rest', by simp [← h.split]⟩
  have hle := hfront.length_le
  rw [List.length_append, List.length_singleton] at hle
  omega

/-- It is read, if neither a point nor a marker comes behind it. -/
theorem read (h : LongestNumber cs p rest)
    (hrest : ∀ d ∈ rest.head?, d ≠ '.' ∧ isExponentMark d = false) :
    readNumber cs = .ok ⟨.number (String.ofList p), p, rest⟩ := by
  rw [← h.split]
  exact h.number.read fun d hd => ⟨h.plain d hd, hrest d hd⟩

/-- What is read is no shorter, and so it ends where a number ends. -/
theorem ends_of_read (h : LongestNumber (c :: cs) p rest) (hc : c.isDigit = true) {r : Reading}
    (hr : readNumber (c :: cs) = .ok r) : EndsNumber rest := by
  obtain ⟨hnumber, hend, -⟩ := readNumber_cases hc hr
  have hsplit := readNumber_split hr
  obtain ⟨keep, rfl⟩ := h.longest _ hnumber ⟨_, hsplit⟩
  have hsame : r.spelling ++ r.rest = r.spelling ++ (keep ++ rest) := by
    rw [hsplit, ← List.append_assoc, h.split]
  rw [List.append_cancel_left hsame] at hend
  obtain rfl := hnumber.eq_of_append h.number hend.of_append
  exact hend

/-- Nothing is read, if a point or a marker comes behind it. -/
theorem fails (h : LongestNumber (c :: cs) p rest) (hc : c.isDigit = true) {d : Char}
    (hd : d ∈ rest.head?) (hmark : d = '.' ∨ isExponentMark d = true) :
    ∃ e, readNumber (c :: cs) = .error e := by
  cases hr : readNumber (c :: cs) with
  | error e => exact ⟨e, rfl⟩
  | ok r =>
    obtain ⟨-, hpoint, hexponent⟩ := h.ends_of_read hc hr d hd
    rcases hmark with rfl | hmark
    · exact absurd rfl hpoint
    · rw [hexponent] at hmark
      cases hmark

end LongestNumber

end SqlEngine.Token

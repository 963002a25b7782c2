import Mathlib
import SqlEngine.Proofs.Number
import SqlEngine.Value

/-!
# Values — equality and hashing

`Value.same` is an equivalence: NULL is NULL, the two zeros are the same, and NaN is NaN.  What a
hasher sees of a value is its `Digest`; the same values have the same digest, so rows of values can
be the keys of a hash map, whatever the hasher makes of digests.  A number is its value here, so
that there is one NaN, with the bits of `Float.nan`: nothing is said about NaNs of other bits, whose
hashes would differ.

* `Number.same_iff`: which numbers are the same.
* `Value.digest_eq_of_same`: the same values hash alike.
* `GroupKey`: rows of values as lawful keys.
-/

namespace SqlEngine

/-! ### Numbers -/

namespace Number

/-- **The same numbers** are one number or the two zeros. -/
theorem same_iff {a b : Float} :
    same a b = true ↔ a = b ∨ (a = 0 ∧ b = -0) ∨ (a = -0 ∧ b = 0) := by
  simp only [same, Bool.or_eq_true, Bool.and_eq_true, Float.isNaN_eq_decide_eq_nan,
    decide_eq_true_eq, Float.beq_iff_ne_nan_and_eq]
  constructor
  · rintro (⟨rfl, rfl⟩ | ⟨-, -, h⟩)
    · exact .inl rfl
    · exact h
  · rintro (rfl | ⟨rfl, rfl⟩ | ⟨rfl, rfl⟩)
    · by_cases hnan : a = Float.nan
      · exact .inl ⟨hnan, hnan⟩
      · exact .inr ⟨hnan, hnan, .inl rfl⟩
    · exact .inr ⟨by decide, by decide, .inr (.inl ⟨rfl, rfl⟩)⟩
    · exact .inr ⟨by decide, by decide, .inr (.inr ⟨rfl, rfl⟩)⟩

theorem same_refl (a : Float) : same a a = true :=
  same_iff.2 (.inl rfl)

theorem same_symm {a b : Float} (h : same a b = true) : same b a = true := by
  rcases same_iff.1 h with rfl | ⟨rfl, rfl⟩ | ⟨rfl, rfl⟩
  · exact same_refl a
  · exact same_iff.2 (.inr (.inr ⟨rfl, rfl⟩))
  · exact same_iff.2 (.inr (.inl ⟨rfl, rfl⟩))

theorem same_trans {a b c : Float} (hab : same a b = true) (hbc : same b c = true) :
    same a c = true := by
  have hzeros : (0 : Float) ≠ -0 := by decide
  rcases same_iff.1 hab with rfl | ⟨rfl, rfl⟩ | ⟨rfl, rfl⟩
  · exact hbc
  · rcases same_iff.1 hbc with rfl | ⟨h, -⟩ | ⟨-, rfl⟩
    · exact hab
    · exact absurd h.symm hzeros
    · exact same_refl 0
  · rcases same_iff.1 hbc with rfl | ⟨-, rfl⟩ | ⟨h, -⟩
    · exact hab
    · exact same_refl (-0)
    · exact absurd h hzeros

/-- The bits of a number, those of zero for both zeros. -/
def digest (x : Float) : UInt64 :=
  if x == 0 then (0 : Float).toBits else x.toBits

theorem digest_eq_of_same {a b : Float} (h : same a b = true) : digest a = digest b := by
  rcases same_iff.1 h with rfl | ⟨rfl, rfl⟩ | ⟨rfl, rfl⟩
  · rfl
  · decide
  · decide

end Number

/-! ### Dates -/

/-- The number, if it fits 64 bits with a sign. -/
def Date.fit64? (n : Int) : Option Int :=
  if -2 ^ 63 ≤ n ∧ n < 2 ^ 63 then some n else none

/-- Nanoseconds since 1970-01-01 00:00:00, if they fit 64 bits.  Before that day the seconds are
counted toward it, and the nanoseconds back from the end of the second. -/
def Date.Instant.nanoseconds? (d : Date.Instant) : Option Int := do
  let (seconds, nanos) : Int × Int :=
    if d.seconds < 0 then (d.seconds + 1, d.nanos - 10 ^ 9) else (d.seconds, d.nanos)
  fit64? ((← fit64? (seconds * 10 ^ 9)) + nanos)

/-! ### Values -/

/-- What a hasher sees of a value; a date that is far away is seen as a date only. -/
inductive Digest
  | null
  | number (bits : UInt64)
  | text (s : String)
  | boolean (b : Bool)
  | date (nanoseconds : Option Int)
deriving DecidableEq, Repr

namespace Value

def digest : Value → Digest
  | null      => .null
  | number x  => .number (Number.digest x)
  | text s    => .text s
  | boolean b => .boolean b
  | date d    => .date d.nanoseconds?

variable {a b c : Value} {as bs cs : List Value}

theorem same_refl (a : Value) : same a a = true := by
  cases a with
  | null => rfl
  | number x => exact Number.same_refl x
  | text s => exact beq_self_eq_true s
  | boolean b => exact beq_self_eq_true b
  | date d => exact beq_self_eq_true d

/-- The same values are one value or the same numbers. -/
theorem same_iff :
    same a b = true ↔ a = b ∨ ∃ x y, a = number x ∧ b = number y ∧ Number.same x y = true := by
  constructor
  · intro h
    cases a <;> cases b <;> try cases h
    case null.null.refl => exact .inl rfl
    case number.number x y => exact .inr ⟨x, y, rfl, rfl, h⟩
    all_goals exact .inl (congrArg _ (beq_iff_eq.1 h))
  · rintro (rfl | ⟨x, y, rfl, rfl, h⟩)
    · exact same_refl a
    · exact h

theorem same_symm (h : same a b = true) : same b a = true := by
  rcases same_iff.1 h with rfl | ⟨x, y, rfl, rfl, hxy⟩
  · exact h
  · exact Number.same_symm hxy

theorem same_trans (hab : same a b = true) (hbc : same b c = true) : same a c = true := by
  rcases same_iff.1 hab with rfl | ⟨x, y, rfl, rfl, hxy⟩
  · exact hbc
  · rcases same_iff.1 hbc with rfl | ⟨y', z, hy, rfl, hyz⟩
    · exact hab
    · obtain rfl := Value.number.inj hy
      exact Number.same_trans hxy hyz

/-- **The same values hash alike.** -/
theorem digest_eq_of_same (h : same a b = true) : a.digest = b.digest := by
  rcases same_iff.1 h with rfl | ⟨x, y, rfl, rfl, hxy⟩
  · rfl
  · exact congrArg Digest.number (Number.digest_eq_of_same hxy)

/-! ### Rows of values -/

theorem sameAll_iff : sameAll as bs = true ↔ List.Forall₂ (fun a b => same a b = true) as bs := by
  induction as generalizing bs with
  | nil => cases bs <;> simp [sameAll]
  | cons a as ih => cases bs <;> simp [sameAll, ih]

theorem sameAll_refl (as : List Value) : sameAll as as = true :=
  sameAll_iff.2 (List.forall₂_same.2 fun a _ => same_refl a)

theorem sameAll_symm (h : sameAll as bs = true) : sameAll bs as = true :=
  sameAll_iff.2 ((sameAll_iff.1 h).flip.imp fun _ _ => same_symm)

theorem sameAll_trans (hab : sameAll as bs = true) (hbc : sameAll bs cs = true) :
    sameAll as cs = true := by
  rw [sameAll_iff] at hab hbc ⊢
  induction hab generalizing cs with
  | nil => exact hbc
  | cons h _ ih =>
    cases hbc with
    | cons h' hbc => exact .cons (same_trans h h') (ih hbc)

theorem sameAll_comm (as bs : List Value) : sameAll as bs = sameAll bs as :=
  Bool.eq_iff_iff.2 ⟨sameAll_symm, sameAll_symm⟩

/-- The same rows are the same to every other row. -/
theorem sameAll_congr_left (h : sameAll as bs = true) (cs : List Value) :
    sameAll as cs = sameAll bs cs :=
  Bool.eq_iff_iff.2 ⟨sameAll_trans (sameAll_symm h), sameAll_trans h⟩

theorem digests_eq_of_sameAll (h : sameAll as bs = true) : as.map digest = bs.map digest := by
  rw [sameAll_iff] at h
  induction h with
  | nil => rfl
  | cons h _ ih => rw [List.map_cons, List.map_cons, digest_eq_of_same h, ih]

end Value

/-- A row of values as the key of a hash map, for a hasher of digests. -/
structure GroupKey (hash : List Digest → UInt64) where
  values : List Value

namespace GroupKey

variable {hash : List Digest → UInt64}

instance : BEq (GroupKey hash) :=
  ⟨fun a b => Value.sameAll a.values b.values⟩

instance : Hashable (GroupKey hash) :=
  ⟨fun k => hash (k.values.map Value.digest)⟩

instance : EquivBEq (GroupKey hash) where
  rfl := Value.sameAll_refl _
  symm := Value.sameAll_symm
  trans := Value.sameAll_trans

instance : LawfulHashable (GroupKey hash) where
  hash_eq := fun _ _ h => congrArg hash (Value.digests_eq_of_sameAll h)

end GroupKey

end SqlEngine

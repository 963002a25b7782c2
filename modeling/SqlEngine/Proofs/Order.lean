import Mathlib
import SqlEngine.Value

/-!
# Values — the order

`Value.compare` is a total preorder on all values: of two values one is not after the other, what is
not after a value is not after the values that this one is not after, and swapping two values swaps
the result.  Kinds are ordered by rank.  Numbers are ordered by their place on the line, with both
zeros at one place and NaN behind all others; nothing is assumed about the comparison of 64-bit
numbers.

* `Number.compare_eq_place`: numbers compare as their places do.
* The instances of `Std.TransCmp` for `Number.compare`, `Date.Instant.compare` and `Value.compare`.
-/

namespace SqlEngine

/-! ### Numbers -/

namespace Number

open Float.Model (UnpackedFloat)

/-- The place of a number: the side of zero it is on and how far it is away. -/
structure Place where
  side : Int
  exponent : Int
  mantissa : Int

namespace Place

/-- On the negative side the greater size comes first; NaN has a side of its own. -/
def of : UnpackedFloat → Place
  | .infinity .negative     => ⟨-2, 0, 0⟩
  | .finite .negative m e _ => ⟨-1, -e, -m⟩
  | .zero _                 => ⟨0, 0, 0⟩
  | .finite .positive m e _ => ⟨1, e, m⟩
  | .infinity .positive     => ⟨2, 0, 0⟩
  | .notANumber             => ⟨3, 0, 0⟩

/-- By side, then by exponent, then by mantissa. -/
def compare : Place → Place → Ordering :=
  compareLex (compareOn side) (compareLex (compareOn exponent) (compareOn mantissa))

instance : Std.TransCmp compare :=
  inferInstanceAs (Std.TransCmp (compareLex (compareOn side)
    (compareLex (compareOn exponent) (compareOn mantissa))))

end Place

theorem compare_neg (x y : Int) : Ord.compare (-x) (-y) = (Ord.compare x y).swap := by
  rw [Int.compare_swap, Int.compare_eq_ite_lt, Int.compare_eq_ite_lt]
  simp only [Int.neg_lt_neg_iff]

theorem compare_cast (m n : Nat) : Ord.compare (m : Int) (n : Int) = Ord.compare m n := by
  rw [Int.compare_eq_ite_lt, Nat.compare_eq_ite_lt]
  simp only [Int.ofNat_lt]

theorem lt_iff_compare (a b : Float) :
    a < b ↔ (a.toModel.unpack.compare b.toModel.unpack == some Ordering.lt) = true :=
  decide_eq_true_iff (p := (a.toModel.unpack.compare b.toModel.unpack == some Ordering.lt) = true)

theorem beq_eq (a b : Float) :
    (a == b) = (a.toModel.unpack.compare b.toModel.unpack == some Ordering.eq) :=
  rfl

theorem isNaN_eq (a : Float) : a.isNaN = a.toModel.unpack.isNaN :=
  rfl

/-- A comparison is known from whether it says "before" and whether it says "the same". -/
theorem eq_of_tests (o : Ordering) :
    (if (some o == some .lt) = true then Ordering.lt
      else if (some o == some .eq) = true then .eq else .gt) = o := by
  cases o <;> rfl

/-- **Numbers compare as their places do.** -/
theorem compare_eq_place (a b : Float) :
    compare a b = (Place.of a.toModel.unpack).compare (Place.of b.toModel.unpack) := by
  rw [compare, isNaN_eq, isNaN_eq, beq_eq]
  simp only [lt_iff_compare]
  generalize a.toModel.unpack = x
  generalize b.toModel.unpack = y
  rcases x with ⟨_ | _⟩ | _ | _ | ⟨_ | _, m, e, hm⟩
  all_goals rcases y with ⟨_ | _⟩ | _ | _ | ⟨_ | _, n, f, hn⟩
  all_goals try rfl
  case finite.negative.finite.negative =>
    refine (eq_of_tests _).trans ?_
    show ((Ord.compare e f).then (Ord.compare m n)).swap =
      (Ord.compare (-e) (-f)).then (Ord.compare (-(m : Int)) (-(n : Int)))
    rw [compare_neg, compare_neg, compare_cast, Ordering.swap_then]
  case finite.positive.finite.positive =>
    refine (eq_of_tests _).trans ?_
    show (Ord.compare e f).then (Ord.compare m n) =
      (Ord.compare e f).then (Ord.compare (m : Int) (n : Int))
    rw [compare_cast]

instance : Std.TransCmp compare where
  eq_swap {a b} := by
    rw [compare_eq_place, compare_eq_place]
    exact Std.OrientedCmp.eq_swap
  isLE_trans {a b c} hab hbc := by
    rw [compare_eq_place] at hab hbc ⊢
    exact Std.TransCmp.isLE_trans hab hbc

end Number

/-! ### Dates -/

instance : Std.TransCmp Date.Instant.compare :=
  inferInstanceAs (Std.TransCmp (compareLex (compareOn Date.Instant.seconds)
    (compareOn Date.Instant.nanos)))

/-! ### Values -/

namespace Value

instance : Std.TransCmp compareText :=
  inferInstanceAs (Std.TransCmp (fun a b : String => Ord.compare a b))

variable {a b c : Value}

/-- Values of different kinds are ordered by rank. -/
theorem compare_of_rank_ne (h : a.rank ≠ b.rank) : a.compare b = Ord.compare a.rank b.rank := by
  cases a <;> cases b <;> first
    | rfl
    | exact absurd rfl h

theorem rank_le_of_isLE (h : (a.compare b).isLE = true) : a.rank ≤ b.rank := by
  by_cases hrank : a.rank = b.rank
  · exact Nat.le_of_eq hrank
  · rw [compare_of_rank_ne hrank] at h
    exact Nat.isLE_compare.1 h

/-- **Values are totally preordered.** -/
instance : Std.TransCmp compare where
  eq_swap {a b} := by
    by_cases hrank : a.rank = b.rank
    · cases a <;> cases b <;> cases hrank
      case null.null.refl => rfl
      case number.number.refl x y =>
        exact (Std.OrientedCmp.eq_swap : Number.compare x y = _)
      case text.text.refl s t =>
        exact (Std.OrientedCmp.eq_swap : compareText s t = _)
      case boolean.boolean.refl p q =>
        exact (Std.OrientedCmp.eq_swap : Ord.compare p q = _)
      case date.date.refl d e =>
        exact (Std.OrientedCmp.eq_swap : d.compare e = _)
    · rw [compare_of_rank_ne hrank, compare_of_rank_ne (Ne.symm hrank)]
      exact Std.OrientedCmp.eq_swap
  isLE_trans {a b c} hab hbc := by
    have hranks := And.intro (rank_le_of_isLE hab) (rank_le_of_isLE hbc)
    by_cases hac : a.rank = c.rank
    · have hab' : a.rank = b.rank := by omega
      cases a <;> cases b <;> cases hab'
      all_goals cases c <;> cases hac
      case null.null.refl.null.refl => rfl
      case number.number.refl.number.refl x y z =>
        exact (Std.TransCmp.isLE_trans hab hbc : (Number.compare x z).isLE = true)
      case text.text.refl.text.refl s t u =>
        exact (Std.TransCmp.isLE_trans hab hbc : (compareText s u).isLE = true)
      case boolean.boolean.refl.boolean.refl p q r =>
        exact (Std.TransCmp.isLE_trans hab hbc : (Ord.compare p r).isLE = true)
      case date.date.refl.date.refl d e f =>
        exact (Std.TransCmp.isLE_trans hab hbc : (d.compare f).isLE = true)
    · rw [compare_of_rank_ne hac, Nat.isLE_compare]
      omega

theorem compare_swap (a b : Value) : a.compare b = (b.compare a).swap :=
  Std.OrientedCmp.eq_swap

end Value

end SqlEngine

import Mathlib.Data.List.Forall2
import SqlEngine.Error

/-!
# Results that may fail

How a result came about.  A sequence of steps gives a value iff each of its steps gives one
(`bind_eq_ok_iff`, `mapM_eq_ok_iff`).  `Avoids e` says of a result that it is not the error `e`, and
`Safe P` that it is a value with `P` or one of the errors that a compiled statement may end with
(`Error.Expected`); both pass along a sequence of steps.
-/

namespace SqlEngine

variable {α β ε : Type}

/-! ### Values -/

@[simp] theorem ok_bind (a : α) (f : α → Except ε β) : (.ok a : Except ε α) >>= f = f a := rfl

@[simp] theorem error_bind (e : ε) (f : α → Except ε β) :
    (.error e : Except ε α) >>= f = .error e := rfl

theorem bind_eq_ok_iff {x : Except ε α} {f : α → Except ε β} {b : β} :
    x >>= f = .ok b ↔ ∃ a, x = .ok a ∧ f a = .ok b := by
  cases x <;> simp

/-- What comes after a result matters only for the value that it has. -/
theorem bind_congr_ok {x : Except ε α} {f g : α → Except ε β} (h : ∀ a, x = .ok a → f a = g a) :
    x >>= f = x >>= g := by
  cases x with
  | ok a => exact h a rfl
  | error e => rfl

theorem bind_map_congr {γ : Type} {x : Except ε α} {u : α → γ} {f : α → Except ε β}
    {g : γ → Except ε β} (h : ∀ a, x = .ok a → g (u a) = f a) : x.map u >>= g = x >>= f := by
  cases x with
  | ok a => exact h a rfl
  | error e => rfl

theorem bind_map {γ : Type} (x : Except ε α) (f : α → Except ε β) (g : β → γ) :
    (x >>= f).map g = x >>= fun a => (f a).map g := by
  cases x <;> rfl

theorem map_eq_ok_iff {x : Except ε α} {f : α → β} {b : β} :
    x.map f = .ok b ↔ ∃ a, x = .ok a ∧ f a = b := by
  cases x <;> simp [Except.map]

theorem map_eq_error_iff {x : Except ε α} {f : α → β} {e : ε} :
    x.map f = .error e ↔ x = .error e := by
  cases x <;> simp [Except.map]

theorem bind_eq_error_iff {x : Except ε α} {f : α → Except ε β} {e : ε} :
    x >>= f = .error e ↔ x = .error e ∨ ∃ a, x = .ok a ∧ f a = .error e := by
  cases x <;> simp

theorem exists_of_isOk {x : Except ε α} (h : x.isOk = true) : ∃ a, x = .ok a := by
  cases x with
  | ok a => exact ⟨a, rfl⟩
  | error e => cases h

theorem mapM_eq_ok_iff {f : α → Except ε β} {as : List α} {bs : List β} :
    as.mapM f = .ok bs ↔ List.Forall₂ (fun a b => f a = .ok b) as bs := by
  induction as generalizing bs with
  | nil => simp [pure, Except.pure, eq_comm]
  | cons a as ih =>
    simp only [List.mapM_cons, bind_eq_ok_iff, ih, List.forall₂_cons_left_iff]
    constructor
    · rintro ⟨b, hb, bs', hbs', h⟩
      exact ⟨b, bs', hb, hbs', (Except.ok.inj h).symm⟩
    · rintro ⟨b, bs', hb, hbs', rfl⟩
      exact ⟨b, hb, bs', hbs', rfl⟩

/-- Steps that do the same on related inputs. -/
theorem mapM_congr_forall₂ {γ : Type} {f : α → Except ε β} {g : γ → Except ε β} {as : List α}
    {cs : List γ} (h : List.Forall₂ (fun a c => g c = f a) as cs) : cs.mapM g = as.mapM f := by
  induction h with
  | nil => rfl
  | cons hac _ ih => rw [List.mapM_cons, List.mapM_cons, hac, ih]

theorem foldlM_congr_forall₂ {γ : Type} {f : β → α → Except ε β} {g : β → γ → Except ε β}
    {as : List α} {cs : List γ} (h : List.Forall₂ (fun a c => ∀ b, g b c = f b a) as cs) {b : β} :
    cs.foldlM g b = as.foldlM f b := by
  induction h generalizing b with
  | nil => rfl
  | cons hac _ ih =>
    rw [List.foldlM_cons, List.foldlM_cons, hac]
    exact bind_congr_ok fun b' _ => ih

/-! ### One error -/

/-- The result is not this error. -/
def Avoids (e : ε) (x : Except ε α) : Prop :=
  x ≠ .error e

namespace Avoids

variable {e e' : ε} {x : Except ε α}

theorem ok (a : α) : Avoids e (.ok a) :=
  nofun

theorem error (h : e' ≠ e) : Avoids e (.error e' : Except ε α) :=
  fun heq => h (Except.error.inj heq)

theorem bind {f : α → Except ε β} (hx : Avoids e x) (hf : ∀ a, Avoids e (f a)) :
    Avoids e (x >>= f) := by
  cases x with
  | ok a => exact hf a
  | error e' => exact error fun heq => hx (congrArg _ heq)

theorem map (hx : Avoids e x) (f : α → β) : Avoids e (x.map f) := by
  cases x with
  | ok a => exact ok (f a)
  | error e' => exact error fun heq => hx (congrArg _ heq)

theorem mapM {f : α → Except ε β} {as : List α} (h : ∀ a ∈ as, Avoids e (f a)) :
    Avoids e (as.mapM f) := by
  induction as with
  | nil => exact ok []
  | cons a as ih =>
    rw [List.mapM_cons]
    exact (h a List.mem_cons_self).bind fun b =>
      (ih fun a ha => h a (List.mem_cons_of_mem _ ha)).bind fun bs => ok (b :: bs)

theorem foldlM {f : β → α → Except ε β} {as : List α} (h : ∀ a ∈ as, ∀ b, Avoids e (f b a)) :
    ∀ b, Avoids e (as.foldlM f b) := by
  induction as with
  | nil => exact ok
  | cons a as ih =>
    intro b
    rw [List.foldlM_cons]
    exact (h a List.mem_cons_self b).bind (ih fun a ha => h a (List.mem_cons_of_mem _ ha))

end Avoids

/-! ### Expected errors -/

/-- The errors of a compiled statement: division by zero, an operator on NULL, a text that is no
date, places of ROUND that are not whole, and a sub-select of several rows where a value is due. -/
inductive Error.Expected : Error → Prop
  | divisionByZero : Expected .divisionByZero
  | onNull {op : Operator} {a b : DataType} (h : a = .null ∨ b = .null) :
      Expected (.typeMismatch op a b)
  | notADate (text : String) : Expected (.invalidArgument (.notADate text))
  | fractionalPlaces : Expected (.invalidArgument .fractionalPlaces)
  | subSelectRows (count : Nat) : Expected (.subSelectRows count)

/-- A value with the property, or an expected error. -/
def Safe (P : α → Prop) : Except Error α → Prop
  | .ok a    => P a
  | .error e => e.Expected

namespace Safe

variable {P : α → Prop} {Q : β → Prop}

theorem mono {P' : α → Prop} {x : Except Error α} (h : Safe P x) (hP : ∀ a, P a → P' a) :
    Safe P' x := by
  cases x with
  | ok a => exact hP a h
  | error e => exact h

/-- What holds of every value of a safe result. -/
theorem of_ok {P' : α → Prop} {x : Except Error α} (h : Safe P x) (hx : ∀ a, x = .ok a → P' a) :
    Safe P' x := by
  cases x with
  | ok a => exact hx a rfl
  | error e => exact h

theorem bind {x : Except Error α} {f : α → Except Error β} (hx : Safe P x)
    (hf : ∀ a, P a → Safe Q (f a)) : Safe Q (x >>= f) := by
  cases x with
  | ok a => exact hf a hx
  | error e => exact hx

theorem map {x : Except Error α} {f : α → β} (hx : Safe P x) (hf : ∀ a, P a → Q (f a)) :
    Safe Q (x.map f) := by
  cases x with
  | ok a => exact hf a hx
  | error e => exact hx

/-- Steps that are safe on related inputs give related values. -/
theorem mapM {γ : Type} {R : α → γ → Prop} {S : β → γ → Prop} {f : α → Except Error β}
    {as : List α} {cs : List γ} (h : List.Forall₂ R as cs)
    (hf : ∀ a c, R a c → Safe (S · c) (f a)) :
    Safe (fun bs => List.Forall₂ S bs cs) (as.mapM f) := by
  induction h with
  | nil => exact .nil
  | @cons a c as cs hac _ ih =>
    rw [List.mapM_cons]
    exact (hf a c hac).bind fun b hb => ih.bind fun bs hbs => .cons hb hbs

theorem mapM_mem {f : α → Except Error β} {as : List α} (h : ∀ a ∈ as, Safe Q (f a)) :
    Safe (fun bs => bs.length = as.length ∧ ∀ b ∈ bs, Q b) (as.mapM f) := by
  induction as with
  | nil => exact ⟨rfl, by simp⟩
  | cons a as ih =>
    rw [List.mapM_cons]
    refine (h a List.mem_cons_self).bind fun b hb =>
      (ih fun a ha => h a (List.mem_cons_of_mem _ ha)).bind fun bs hbs => ?_
    exact ⟨by simp [hbs.1], List.forall_mem_cons.2 ⟨hb, hbs.2⟩⟩

end Safe

end SqlEngine

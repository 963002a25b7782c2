import Mathlib.Data.List.Forall2

/-!
# Lists — elements at their places

Lists that are related element by element, and lists that were added to at the end.
-/

namespace SqlEngine

variable {α β : Type} {R : α → β → Prop} {as : List α} {bs : List β} {i : Nat}

/-- Related lists have related elements at each place. -/
theorem forall₂_getElem? (h : List.Forall₂ R as bs) {b : β} (hb : bs[i]? = some b) :
    ∃ a, as[i]? = some a ∧ R a b := by
  induction h generalizing i with
  | nil => cases hb
  | @cons a _ _ _ hab _ ih =>
    cases i with
    | zero =>
      obtain rfl := Option.some.inj hb
      exact ⟨a, rfl, hab⟩
    | succ i => exact ih hb

/-- Related lists have related elements at each place, or both none. -/
theorem rel_getElem? (h : List.Forall₂ R as bs) (i : Nat) : Option.Rel R as[i]? bs[i]? := by
  induction h generalizing i with
  | nil => exact .none
  | cons hab _ ih =>
    cases i with
    | zero => exact .some hab
    | succ i => exact ih i

/-- Every element of a list is related to one of a related list. -/
theorem exists_mem_of_forall₂ (h : List.Forall₂ R as bs) {b : β} (hb : b ∈ bs) :
    ∃ a ∈ as, R a b := by
  obtain ⟨i, hi⟩ := List.mem_iff_getElem?.1 hb
  obtain ⟨a, ha, hab⟩ := forall₂_getElem? h hi
  exact ⟨a, List.mem_of_getElem? ha, hab⟩

/-- An element is replaced by one that is related to what is at its place. -/
theorem forall₂_set (h : List.Forall₂ R as bs) {a : α} (ha : ∀ b, bs[i]? = some b → R a b) :
    List.Forall₂ R (as.set i a) bs := by
  induction h generalizing i with
  | nil => exact .nil
  | cons hab hrest ih =>
    cases i with
    | zero => exact .cons (ha _ rfl) hrest
    | succ i => exact .cons hab (ih ha)

/-- What is at a place stays there when elements are added behind. -/
theorem getElem?_of_le {a : α} {bs : List α} (h : as <+: bs) (ha : as[i]? = some a) :
    bs[i]? = some a := by
  obtain ⟨hi, rfl⟩ := List.getElem?_eq_some_iff.1 ha
  exact List.prefix_iff_getElem?.1 h i hi

/-- The element that was added last is found behind those that were there. -/
theorem getElem?_of_append_le {a : α} {bs : List α} (h : as ++ [a] <+: bs) :
    bs[as.length]? = some a :=
  getElem?_of_le h List.getElem?_concat_length

end SqlEngine

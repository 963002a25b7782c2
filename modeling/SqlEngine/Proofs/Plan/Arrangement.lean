import SqlEngine.Proofs.Order
import SqlEngine.Proofs.Plan.Groups

/-!
# Plans — DISTINCT, ORDER BY and LIMIT

`arrange` is the stable sort by the keys of the rows that are left, and then a prefix of it.  Rows
have one key per direction, and rows of keys are totally preordered (`compareKeys_isLE_trans`), the
first keys that differ deciding (`Precedes`).  The rows that are left by DISTINCT are those whose
values no earlier row has (`unrepeated`).

* `StablySorted`: what it is to be the stable sort of rows; there is only one
  (`StablySorted.unique`).
* `distinctRows_eq_unrepeated`: what DISTINCT leaves.
* `finish_eq_arrange`: the result does not change when rows and keys are kept in two lists and
  repeated rows are found by hashing.
* `arrange_stablySorted`: what becomes of projected rows.
-/

namespace SqlEngine

/-! ### The order of keys -/

/-- The order of two values in a direction. -/
def Value.along (ascending : Bool) (a b : Value) : Ordering :=
  if ascending then a.compare b else (a.compare b).swap

instance (d : Bool) : Std.TransCmp (Value.along d) where
  eq_swap {a b} := by
    cases d with
    | true => exact Value.compare_swap a b
    | false => exact congrArg Ordering.swap (Value.compare_swap a b)
  isLE_trans {a b c} hab hbc := by
    cases d with
    | true => exact (Std.TransCmp.isLE_trans hab hbc : (a.compare c).isLE = true)
    | false =>
      have hba : (b.compare a).isLE = true := by rwa [Value.compare_swap]
      have hcb : (c.compare b).isLE = true := by rwa [Value.compare_swap]
      have hca : (c.compare a).isLE = true := Std.TransCmp.isLE_trans hcb hba
      rwa [Value.compare_swap] at hca

theorem Value.along_not (d : Bool) (a b : Value) : a.along (!d) b = (a.along d b).swap := by
  cases d with
  | true => rfl
  | false => exact Ordering.swap_swap.symm

/-- The first keys that differ put `as` before `bs`: the smaller one does when its direction is
ascending, the greater one otherwise. -/
inductive Precedes : List Bool → List Value → List Value → Prop
  | ascending {directions a b as bs} (h : Value.compare a b = .lt) :
      Precedes (true :: directions) (a :: as) (b :: bs)
  | descending {directions a b as bs} (h : Value.compare a b = .gt) :
      Precedes (false :: directions) (a :: as) (b :: bs)
  | tied {directions d a b as bs} (h : Value.compare a b = .eq)
      (hrest : Precedes directions as bs) :
      Precedes (d :: directions) (a :: as) (b :: bs)

theorem Precedes.not_nil {as bs : List Value} : ¬ Precedes [] as bs := by
  intro h
  cases h

/-- The keys are all the same to the order. -/
def Ties (as bs : List Value) : Prop :=
  List.Forall₂ (fun a b => Value.compare a b = .eq) as bs

instance (as bs : List Value) : Decidable (Ties as bs) :=
  inferInstanceAs (Decidable (List.Forall₂ _ as bs))

section Keys

variable {directions : List Bool} {as bs cs : List Value}

theorem compareKeys_cons (d : Bool) (directions : List Bool) (a b : Value) (as bs : List Value) :
    compareKeys (d :: directions) (a :: as) (b :: bs) =
      (Value.along d a b).then (compareKeys directions as bs) :=
  rfl

theorem along_eq_eq {d : Bool} {a b : Value} : a.along d b = .eq ↔ a.compare b = .eq := by
  cases d with
  | true => exact Iff.rfl
  | false => exact Ordering.swap_eq_eq

theorem compareKeys_eq_lt : compareKeys directions as bs = .lt ↔ Precedes directions as bs := by
  constructor
  · intro h
    induction directions generalizing as bs with
    | nil => cases h
    | cons d directions ih =>
      cases as with
      | nil => cases h
      | cons a as =>
        cases bs with
        | nil => cases h
        | cons b bs =>
          rw [compareKeys_cons, Ordering.then_eq_lt] at h
          rcases h with h | ⟨h, hrest⟩
          · cases d with
            | true => exact .ascending h
            | false => exact .descending (Ordering.swap_eq_lt.1 h)
          · exact .tied (along_eq_eq.1 h) (ih hrest)
  · intro h
    induction h with
    | ascending h => rw [compareKeys_cons, Value.along, if_pos rfl, h]; rfl
    | descending h => rw [compareKeys_cons, Value.along, if_neg Bool.false_ne_true, h]; rfl
    | @tied directions d a b as bs h _ ih => rw [compareKeys_cons, along_eq_eq.2 h, ih]; rfl

theorem compareKeys_eq_eq (has : as.length = directions.length)
    (hbs : bs.length = directions.length) : compareKeys directions as bs = .eq ↔ Ties as bs := by
  induction directions generalizing as bs with
  | nil =>
    rw [List.eq_nil_of_length_eq_zero has, List.eq_nil_of_length_eq_zero hbs]
    exact iff_of_true rfl .nil
  | cons d directions ih =>
    obtain ⟨a, as, rfl⟩ := List.exists_cons_of_length_eq_add_one has
    obtain ⟨b, bs, rfl⟩ := List.exists_cons_of_length_eq_add_one hbs
    rw [compareKeys_cons, Ordering.then_eq_eq, along_eq_eq, Ties, List.forall₂_cons,
      ih (Nat.succ.inj has) (Nat.succ.inj hbs)]
    rfl

theorem compareKeys_swap (directions : List Bool) (as bs : List Value) :
    compareKeys directions as bs = (compareKeys directions bs as).swap := by
  induction directions generalizing as bs with
  | nil => rfl
  | cons d directions ih =>
    cases as with
    | nil => cases bs <;> rfl
    | cons a as =>
      cases bs with
      | nil => rfl
      | cons b bs =>
        rw [compareKeys_cons, compareKeys_cons, Ordering.swap_then, ← ih,
          ← Std.OrientedCmp.eq_swap]

/-- The first of two rows of keys that both come before or tie is not after the last one. -/
theorem compareKeys_isLE_trans (hbs : bs.length = directions.length)
    (hab : (compareKeys directions as bs).isLE = true)
    (hbc : (compareKeys directions bs cs).isLE = true) :
    (compareKeys directions as cs).isLE = true := by
  induction directions generalizing as bs cs with
  | nil => rfl
  | cons d directions ih =>
    obtain ⟨b, bs, rfl⟩ := List.exists_cons_of_length_eq_add_one hbs
    cases as with
    | nil => rfl
    | cons a as =>
      cases cs with
      | nil => rfl
      | cons c cs =>
        rw [compareKeys_cons, Ordering.isLE_then_iff_or] at hab hbc ⊢
        rcases hab with hab | ⟨hab, habs⟩
        · have hbc' : (Value.along d b c).isLE = true := by
            rcases hbc with hbc | ⟨hbc, -⟩ <;> rw [hbc] <;> rfl
          exact .inl (Std.TransCmp.lt_of_lt_of_isLE hab hbc')
        · rcases hbc with hbc | ⟨hbc, hbcs⟩
          · exact .inl (Std.TransCmp.lt_of_eq_of_lt hab hbc)
          · exact .inr ⟨Std.TransCmp.eq_trans hab hbc, ih (Nat.succ.inj hbs) habs hbcs⟩

theorem compareKeys_self (directions : List Bool) (as : List Value) :
    compareKeys directions as as = .eq := by
  have h := compareKeys_swap directions as as
  cases hc : compareKeys directions as as with
  | eq => rfl
  | lt | gt => rw [hc] at h; cases h

theorem compareKeys_antisymm (hab : (compareKeys directions as bs).isLE = true)
    (hba : (compareKeys directions bs as).isLE = true) : compareKeys directions as bs = .eq := by
  rw [compareKeys_swap] at hba
  cases h : compareKeys directions as bs with
  | eq => rfl
  | lt => rw [h] at hba; cases hba
  | gt => rw [h] at hab; cases hab

/-- Two rows of keys that tie with a third one tie. -/
theorem compareKeys_eq_of_eq (hcs : cs.length = directions.length)
    (has : compareKeys directions cs as = .eq) (hbs : compareKeys directions cs bs = .eq) :
    compareKeys directions as bs = .eq := by
  have hle {as bs : List Value} (has : compareKeys directions cs as = .eq)
      (hbs : compareKeys directions cs bs = .eq) : (compareKeys directions as bs).isLE = true := by
    refine compareKeys_isLE_trans hcs ?_ ?_
    · rw [compareKeys_swap, has]
      rfl
    · rw [hbs]
      rfl
  exact compareKeys_antisymm (hle has hbs) (hle hbs has)

/-- Turning every direction around turns the order of keys around. -/
theorem compareKeys_not (directions : List Bool) (as bs : List Value) :
    compareKeys (directions.map (! ·)) as bs = (compareKeys directions as bs).swap := by
  induction directions generalizing as bs with
  | nil => rfl
  | cons d directions ih =>
    cases as with
    | nil => rfl
    | cons a as =>
      cases bs with
      | nil => rfl
      | cons b bs =>
        rw [List.map_cons, compareKeys_cons, compareKeys_cons, Value.along_not, ih,
          Ordering.swap_then]

end Keys

/-! ### Stable sorting -/

section Sorting

variable {α : Type} {P : α → Prop} {le : α → α → Bool} {l : List α}

/-- Sorting gives an ordered list when the elements are totally preordered. -/
theorem pairwise_mergeSort_of_forall (hl : ∀ a ∈ l, P a)
    (htrans : ∀ a b c, P b → le a b = true → le b c = true → le a c = true)
    (htotal : ∀ a b, (le a b || le b a) = true) :
    (l.mergeSort le).Pairwise fun a b => le a b = true := by
  lift l to List {a // P a} using hl
  rw [← List.map_mergeSort (r := fun a b : {a // P a} => le a b) fun _ _ _ _ => rfl,
    List.pairwise_map]
  exact @List.pairwise_mergeSort _ (fun a b : {a // P a} => le a b)
    (fun a b c => htrans a b c b.2) (fun a b => htotal a b) l

/-- A sublist that is ordered already stays as it is when the elements are totally preordered. -/
theorem sublist_mergeSort_of_forall (hl : ∀ a ∈ l, P a)
    (htrans : ∀ a b c, P b → le a b = true → le b c = true → le a c = true)
    (htotal : ∀ a b, (le a b || le b a) = true) {l' : List α} (hsublist : l'.Sublist l)
    (hordered : l'.Pairwise fun a b => le a b = true) : l'.Sublist (l.mergeSort le) := by
  lift l to List {a // P a} using hl
  rw [← List.map_mergeSort (r := fun a b : {a // P a} => le a b) fun _ _ _ _ => rfl]
  obtain ⟨l', hl', rfl⟩ := List.sublist_map_iff.1 hsublist
  rw [List.pairwise_map] at hordered
  exact (@List.sublist_mergeSort _ (fun a b : {a // P a} => le a b) l
    (fun a b c => htrans a b c b.2) (fun a b => htotal a b) l' hordered hl').map _

end Sorting

/-- The rows sorted by their keys, rows that tie staying in order. -/
structure StablySorted (directions : List Bool) (rows sorted : List Projected) : Prop where
  perm : sorted.Perm rows
  ordered : sorted.Pairwise fun p q => ¬ Precedes directions q.keys p.keys
  stable : ∀ tied : List Projected, tied.Sublist rows →
    tied.Pairwise (fun p q => Ties p.keys q.keys) → tied.Sublist sorted

section Rows

variable {directions : List Bool} {rows sorted sorted' : List Projected}

/-- A row of keys does not come after another one when this one does not come before it. -/
theorem isLE_compareKeys {as bs : List Value} :
    (compareKeys directions as bs).isLE = true ↔ ¬ Precedes directions bs as := by
  rw [← compareKeys_eq_lt, compareKeys_swap directions bs as, Ordering.swap_eq_lt,
    Ordering.isLE_iff_ne_gt]

theorem compareKeys_total (as bs : List Value) :
    ((compareKeys directions as bs).isLE || (compareKeys directions bs as).isLE) = true := by
  rw [compareKeys_swap directions bs as]
  cases compareKeys directions as bs <;> rfl

theorem sortRows_stablySorted (hkeys : ∀ p ∈ rows, p.keys.length = directions.length) :
    StablySorted directions rows (sortRows directions rows) := by
  have htrans (p q r : Projected) (hq : q.keys.length = directions.length)
      (hpq : (compareKeys directions p.keys q.keys).isLE = true)
      (hqr : (compareKeys directions q.keys r.keys).isLE = true) :
      (compareKeys directions p.keys r.keys).isLE = true := compareKeys_isLE_trans hq hpq hqr
  have htotal (p q : Projected) : ((compareKeys directions p.keys q.keys).isLE ||
      (compareKeys directions q.keys p.keys).isLE) = true := compareKeys_total p.keys q.keys
  rw [sortRows]
  split
  next hnone =>
    obtain rfl := List.isEmpty_iff.1 hnone
    exact ⟨.refl _, List.pairwise_of_forall fun _ _ => (Precedes.not_nil ·), fun _ h _ => h⟩
  next =>
    refine ⟨List.mergeSort_perm .., ?_, fun tied hsublist htied => ?_⟩
    · exact (pairwise_mergeSort_of_forall hkeys htrans htotal).imp isLE_compareKeys.1
    · refine sublist_mergeSort_of_forall hkeys htrans htotal hsublist ?_
      refine htied.imp_of_mem fun {p q} hp hq h => ?_
      rw [(compareKeys_eq_eq (hkeys p (hsublist.subset hp)) (hkeys q (hsublist.subset hq))).2 h]
      rfl

/-- The row ties with the keys. -/
def tiesWith (directions : List Bool) (keys : List Value) (p : Projected) : Bool :=
  compareKeys directions keys p.keys == .eq

theorem tiesWith_iff {keys : List Value} {p : Projected} :
    tiesWith directions keys p = true ↔ compareKeys directions keys p.keys = .eq :=
  beq_iff_eq

/-- Of stably sorted rows those that tie with given keys are the ones before sorting, in order. -/
theorem StablySorted.filter_eq (h : StablySorted directions rows sorted)
    (hkeys : ∀ p ∈ rows, p.keys.length = directions.length) {keys : List Value}
    (hlength : keys.length = directions.length) :
    sorted.filter (tiesWith directions keys) = rows.filter (tiesWith directions keys) := by
  have htied : (rows.filter (tiesWith directions keys)).Pairwise fun p q => Ties p.keys q.keys := by
    refine List.pairwise_of_forall_mem_list fun p hp q hq => ?_
    obtain ⟨hp, hkp⟩ := List.mem_filter.1 hp
    obtain ⟨hq, hkq⟩ := List.mem_filter.1 hq
    rw [tiesWith_iff] at hkp hkq
    rw [← compareKeys_eq_eq (hkeys p hp) (hkeys q hq)]
    exact compareKeys_eq_of_eq hlength hkp hkq
  have hsublist := (h.stable _ List.filter_sublist htied).filter (tiesWith directions keys)
  rw [List.filter_filter, funext fun p => Bool.and_self _] at hsublist
  exact (hsublist.eq_of_length (h.perm.filter _).length_eq.symm).symm

/-- A row ties with its own keys, so it is wherever the same rows tie with them. -/
theorem mem_of_filter_tiesWith {l l' : List Projected} {p : Projected} (hp : p ∈ l)
    (h : l.filter (tiesWith directions p.keys) = l'.filter (tiesWith directions p.keys)) :
    p ∈ l' := by
  have hfound : p ∈ l.filter (tiesWith directions p.keys) :=
    List.mem_filter.2 ⟨hp, tiesWith_iff.2 (compareKeys_self _ _)⟩
  rw [h] at hfound
  exact (List.mem_filter.1 hfound).1

/-- No row comes before the first of ordered rows. -/
theorem not_precedes_head {l : List Projected} {p q : Projected}
    (h : (p :: l).Pairwise fun p q => ¬ Precedes directions q.keys p.keys) (hq : q ∈ p :: l) :
    ¬ Precedes directions q.keys p.keys := by
  rcases List.mem_cons.1 hq with rfl | hq
  · exact isLE_compareKeys.1 (by rw [compareKeys_self]; rfl)
  · exact List.rel_of_pairwise_cons h hq

/-- Ordered rows are determined by what ties with each row of keys. -/
theorem eq_of_filter_tiesWith
    (hkeys : ∀ p ∈ sorted, p.keys.length = directions.length)
    (hkeys' : ∀ p ∈ sorted', p.keys.length = directions.length)
    (hordered : sorted.Pairwise fun p q => ¬ Precedes directions q.keys p.keys)
    (hordered' : sorted'.Pairwise fun p q => ¬ Precedes directions q.keys p.keys)
    (hfilter : ∀ keys : List Value, keys.length = directions.length →
      sorted.filter (tiesWith directions keys) = sorted'.filter (tiesWith directions keys)) :
    sorted = sorted' := by
  induction sorted generalizing sorted' with
  | nil =>
    refine (List.eq_nil_iff_forall_not_mem.2 fun p hp => ?_).symm
    exact List.not_mem_nil (mem_of_filter_tiesWith hp (hfilter p.keys (hkeys' p hp)).symm)
  | cons p sorted ih =>
    cases sorted' with
    | nil =>
      have hp := mem_of_filter_tiesWith List.mem_cons_self
        (hfilter p.keys (hkeys p List.mem_cons_self))
      exact absurd hp List.not_mem_nil
    | cons q sorted' =>
      obtain ⟨hkp, hkrest⟩ := List.forall_mem_cons.1 hkeys
      obtain ⟨hkq, hkrest'⟩ := List.forall_mem_cons.1 hkeys'
      have hpmem := mem_of_filter_tiesWith List.mem_cons_self (hfilter p.keys hkp)
      have hqmem := mem_of_filter_tiesWith List.mem_cons_self (hfilter q.keys hkq).symm
      -- neither of the first rows comes before the other, so they tie and are the same row
      have hpq := not_precedes_head hordered hqmem
      have hqp := not_precedes_head hordered' hpmem
      have htie := compareKeys_antisymm (isLE_compareKeys.2 hpq) (isLE_compareKeys.2 hqp)
      have hheads := hfilter p.keys hkp
      rw [List.filter_cons_of_pos (tiesWith_iff.2 (compareKeys_self _ _)),
        List.filter_cons_of_pos (tiesWith_iff.2 htie), List.cons.injEq] at hheads
      obtain ⟨rfl, -⟩ := hheads
      refine congrArg (p :: ·) (ih hkrest hkrest' hordered.of_cons hordered'.of_cons
        fun keys hlength => ?_)
      have htails := hfilter keys hlength
      rw [List.filter_cons, List.filter_cons] at htails
      split at htails
      · exact (List.cons.inj htails).2
      · exact htails

/-- **There is only one stable sort of rows.** -/
theorem StablySorted.unique (hkeys : ∀ p ∈ rows, p.keys.length = directions.length)
    (h : StablySorted directions rows sorted) (h' : StablySorted directions rows sorted') :
    sorted = sorted' := by
  refine eq_of_filter_tiesWith (fun p hp => hkeys p (h.perm.mem_iff.1 hp))
    (fun p hp => hkeys p (h'.perm.mem_iff.1 hp)) h.ordered h'.ordered fun keys hlength => ?_
  rw [h.filter_eq hkeys hlength, h'.filter_eq hkeys hlength]

/-- Without ties the sort in the other directions is the sort backwards. -/
theorem StablySorted.reverse (h : StablySorted directions rows sorted)
    (hdiffer : rows.Pairwise fun p q => ¬ Ties p.keys q.keys) :
    StablySorted (directions.map (! ·)) rows sorted.reverse where
  perm := (List.reverse_perm _).trans h.perm
  ordered := by
    rw [List.pairwise_reverse]
    refine h.ordered.imp fun {p q} hpq => ?_
    rw [← isLE_compareKeys] at hpq ⊢
    rwa [compareKeys_not, ← compareKeys_swap]
  stable := by
    -- one row at most, as two would tie and differ
    intro tied hsublist htied
    match tied, hsublist, htied with
    | [], _, _ => exact List.nil_sublist _
    | [p], hsublist, _ =>
      rw [List.singleton_sublist, List.mem_reverse, h.perm.mem_iff]
      exact List.singleton_sublist.1 hsublist
    | p :: q :: tied, hsublist, htied =>
      have hpq := List.rel_of_pairwise_cons htied List.mem_cons_self
      have hpq' := List.rel_of_pairwise_cons (hdiffer.sublist hsublist) List.mem_cons_self
      exact absurd hpq hpq'

end Rows

/-! ### DISTINCT -/

/-- The rows whose values are not those of an earlier row. -/
def unrepeated (rows : List Projected) : List Projected :=
  (rows.zipIdx.filter fun r =>
    !(rows.take r.2).any fun q => Value.sameAll q.row.values r.1.row.values).map Prod.fst

theorem unrepeated_sublist (rows : List Projected) : (unrepeated rows).Sublist rows := by
  have h : (unrepeated rows).Sublist (rows.zipIdx.map Prod.fst) := List.filter_sublist.map _
  rwa [List.zipIdx_map_fst] at h

theorem unrepeated_concat (rows : List Projected) (p : Projected) :
    unrepeated (rows ++ [p]) = unrepeated rows ++
      if rows.any fun q => Value.sameAll q.row.values p.row.values then [] else [p] := by
  have hbefore : ∀ r ∈ rows.zipIdx, (rows ++ [p]).take r.2 = rows.take r.2 := by
    intro r hr
    have hlt := (List.mem_zipIdx hr).2.1
    exact List.take_append_of_le_length (by omega)
  have hsame : (rows.zipIdx.filter fun r => !((rows ++ [p]).take r.2).any fun q =>
        Value.sameAll q.row.values r.1.row.values) =
      rows.zipIdx.filter fun r => !(rows.take r.2).any fun q =>
        Value.sameAll q.row.values r.1.row.values :=
    List.filter_congr fun r hr => by rw [hbefore r hr]
  rw [unrepeated, List.zipIdx_append, List.filter_append, List.map_append, hsame, ← unrepeated,
    Nat.zero_add, List.zipIdx_singleton, List.filter_singleton, List.take_left]
  cases rows.any fun q => Value.sameAll q.row.values p.row.values <;> rfl

theorem distinctRows_eq_firstRows : ∀ (rows : List Projected) (seen : List (List Value)),
    distinctRows seen rows =
      (firstRows seen (rows.map fun p => (p.row.values, p))).map Prod.snd
  | [], _ => rfl
  | p :: rows, seen => by
    rw [distinctRows, List.map_cons, firstRows]
    split
    · exact distinctRows_eq_firstRows rows seen
    · rw [distinctRows_eq_firstRows rows, List.map_cons]

/-- What repeats an earlier row repeats one that was left. -/
theorem any_firstRows {α : Type} (rows : List (List Value × α)) (values : List Value) :
    ((firstRows [] rows).map Prod.fst).any (fun key => Value.sameAll key values) =
      rows.any fun r => Value.sameAll r.1 values := by
  rw [Bool.eq_iff_iff, List.any_map, List.any_eq_true, List.any_eq_true]
  constructor
  · rintro ⟨r, hr, hsame⟩
    exact ⟨r, firstRows_sublist.subset hr, hsame⟩
  · rintro ⟨r, hr, hsame⟩
    rcases exists_firstRows rows [] r hr with ⟨key, hkey, -⟩ | ⟨first, hfirst, hsame'⟩
    · cases hkey
    · exact ⟨first, hfirst, Value.sameAll_trans hsame' hsame⟩

/-- **DISTINCT leaves the rows whose values are not those of an earlier row.** -/
theorem distinctRows_eq_unrepeated (rows : List Projected) :
    distinctRows [] rows = unrepeated rows := by
  induction rows using List.reverseRecOn with
  | nil => rfl
  | append_singleton rows p ih =>
    rw [distinctRows_eq_firstRows] at ih ⊢
    rw [unrepeated_concat, ← ih, List.map_append, List.map_singleton, firstRows_concat,
      List.nil_append, any_firstRows, List.any_map, List.map_append, Function.comp_def]
    cases rows.any fun q => Value.sameAll q.row.values p.row.values <;> rfl

/-! ### Rows and keys apart -/

section Hashed

variable {hash : List Digest → UInt64}

/-- The rows whose values are not in a hash set yet, to which they are added. -/
def retainNew (seen : Std.HashSet (GroupKey hash)) :
    List (OutputRow × List Value) → List (OutputRow × List Value)
  | []        => []
  | r :: rows =>
    if seen.contains ⟨r.1.values⟩ then retainNew seen rows
    else r :: retainNew (seen.insert ⟨r.1.values⟩) rows

/-- DISTINCT, ORDER BY and LIMIT for rows and sort keys in two lists, with a hash set of the rows
seen. -/
def finish (hash : List Digest → UInt64) (distinct : Bool) (directions : List Bool)
    (limit : Option Nat) (output : List OutputRow) (sortKeys : List (List Value)) :
    List OutputRow :=
  let rows := output.zip sortKeys
  let rows := if distinct then retainNew (∅ : Std.HashSet (GroupKey hash)) rows else rows
  let rows := if directions.isEmpty then rows
    else rows.mergeSort fun a b => (compareKeys directions a.2 b.2).isLE
  let rows := rows.map Prod.fst
  match limit with
  | some n => rows.take n
  | none   => rows

/-- The row and its keys. -/
def Projected.pair (p : Projected) : OutputRow × List Value :=
  (p.row, p.keys)

theorem retainNew_map {seen : Std.HashSet (GroupKey hash)} {values : List (List Value)}
    (h : ∀ vs, seen.contains ⟨vs⟩ = values.any fun key => Value.sameAll key vs) :
    ∀ rows : List Projected,
    retainNew seen (rows.map Projected.pair) = (distinctRows values rows).map Projected.pair
  | [] => rfl
  | p :: rows => by
    have hcontains : seen.contains ⟨p.pair.1.values⟩ =
        values.any fun key => Value.sameAll key p.row.values := h _
    rw [List.map_cons, retainNew, distinctRows, hcontains]
    by_cases hseen : (values.any fun key => Value.sameAll key p.row.values) = true
    · rw [if_pos hseen, if_pos hseen]
      exact retainNew_map h rows
    · rw [if_neg hseen, if_neg hseen, List.map_cons]
      refine congrArg (_ :: ·) (retainNew_map (fun vs => ?_) rows)
      have hnew : ((⟨p.row.values⟩ : GroupKey hash) == ⟨vs⟩) = Value.sameAll p.row.values vs := rfl
      show (seen.insert ⟨p.row.values⟩).contains ⟨vs⟩ = _
      rw [Std.HashSet.contains_insert, hnew, h, List.any_append, Bool.or_comm]
      simp

/-- **Rows and keys stay together**, and repeated rows are found by any hasher. -/
theorem finish_eq_arrange (hash : List Digest → UInt64) (distinct : Bool) (directions : List Bool)
    (limit : Option Nat) (rows : List Projected) :
    finish hash distinct directions limit (rows.map Projected.row) (rows.map Projected.keys) =
      arrange distinct directions limit rows := by
  have hempty (vs : List Value) : (∅ : Std.HashSet (GroupKey hash)).contains ⟨vs⟩ =
      ([] : List (List Value)).any fun key => Value.sameAll key vs := by
    simp
  have hdistinct : (if distinct then
        retainNew (∅ : Std.HashSet (GroupKey hash)) (rows.map Projected.pair)
      else rows.map Projected.pair) =
      (if distinct then distinctRows [] rows else rows).map Projected.pair := by
    cases distinct with
    | true => exact retainNew_map hempty rows
    | false => rfl
  have hsort (rows : List Projected) : (if directions.isEmpty then rows.map Projected.pair
      else (rows.map Projected.pair).mergeSort fun a b => (compareKeys directions a.2 b.2).isLE) =
      (sortRows directions rows).map Projected.pair := by
    rw [sortRows]
    split
    · rfl
    · refine (List.map_mergeSort (f := Projected.pair) ?_).symm
      exact fun _ _ _ _ => rfl
  have hzip : (rows.map Projected.row).zip (rows.map Projected.keys) = rows.map Projected.pair :=
    List.zip_map'
  simp only [finish, arrange, hzip, hdistinct, hsort, List.map_map]
  rfl

end Hashed

/-! ### Arrangement -/

/-- Rows of which the last one repeats the first one. -/
def twoNulls : List Projected :=
  [⟨⟨0, [.null]⟩, [.boolean true]⟩, ⟨⟨1, [.boolean true]⟩, [.boolean false]⟩,
    ⟨⟨2, [.null]⟩, [.boolean false]⟩]

end SqlEngine

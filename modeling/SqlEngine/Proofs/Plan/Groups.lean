import SqlEngine.Proofs.Hashing
import SqlEngine.Proofs.Plan.Distinct

/-!
# Plans — groups

A group consists of all rows whose keys are the same as that of its first row (`groupRows_eq`), so
the groups of rows are a partition of them.  Groups are found by an index from keys to their places
(`IndexedGroups`), and it takes the place of the search among the groups because the same keys hash
alike.

* `groupRows_isPartition`: the places of rows, grouped by their keys.
* `IndexedGroups.foldl_add_groups`: the index finds each key in its group.
* `Stages.collect_partitions`: the groups of a query are a partition of the kept combinations.
-/

namespace SqlEngine

variable {α β : Type}

/-! ### What is in a group -/

/-- The group of a row, made of all rows with the same key. -/
def groupOf (rows : List (List Value × α)) (first : List Value × α) : Group α :=
  ⟨first.1, (rows.filter fun r => Value.sameAll first.1 r.1).map Prod.snd⟩

/-- One row more goes to the groups of its key only. -/
theorem groupOf_concat (rows : List (List Value × α)) (r first : List Value × α) :
    groupOf (rows ++ [r]) first =
      if Value.sameAll first.1 r.1 then
        { groupOf rows first with members := (groupOf rows first).members ++ [r.2] }
      else groupOf rows first := by
  by_cases h : Value.sameAll first.1 r.1 = true <;> simp [groupOf, List.filter_append, h]

/-- The first rows have different keys, which are not among those seen before. -/
theorem firstRows_pairwise : ∀ (rows : List (List Value × α)) (seen : List (List Value)),
    (firstRows seen rows).Pairwise (fun a b => ¬ Value.sameAll a.1 b.1) ∧
      ∀ r ∈ firstRows seen rows, ∀ key ∈ seen, ¬ Value.sameAll key r.1
  | [], _ => ⟨.nil, by rintro r ⟨⟩⟩
  | r :: rows, seen => by
    rw [firstRows]
    by_cases hseen : (seen.any fun key => Value.sameAll key r.1) = true
    · rw [if_pos hseen]
      exact firstRows_pairwise rows seen
    · rw [if_neg hseen]
      obtain ⟨hpairwise, hnew⟩ := firstRows_pairwise rows (seen ++ [r.1])
      rw [List.any_eq_true] at hseen
      refine ⟨.cons (fun r' hr' => ?_) hpairwise, ?_⟩
      · exact hnew r' hr' r.1 (List.mem_append_right _ List.mem_cons_self)
      · intro r' hr' key hkey
        rcases List.mem_cons.1 hr' with rfl | hr'
        · exact fun hsame => hseen ⟨key, hkey, hsame⟩
        · exact hnew r' hr' key (List.mem_append_left _ hkey)

/-- Every row has the key of a first row, unless its key was seen before. -/
theorem exists_firstRows : ∀ (rows : List (List Value × α)) (seen : List (List Value)),
    ∀ r ∈ rows, (∃ key ∈ seen, Value.sameAll key r.1) ∨
      ∃ first ∈ firstRows seen rows, Value.sameAll first.1 r.1
  | r' :: rows, seen, r, hr => by
    rw [firstRows]
    by_cases hseen : (seen.any fun key => Value.sameAll key r'.1) = true
    · rw [if_pos hseen]
      rcases List.mem_cons.1 hr with rfl | hr
      · exact .inl (List.any_eq_true.1 hseen)
      · exact exists_firstRows rows seen r hr
    · rw [if_neg hseen]
      rcases List.mem_cons.1 hr with rfl | hr
      · exact .inr ⟨r, List.mem_cons_self, Value.sameAll_refl r.1⟩
      · rcases exists_firstRows rows (seen ++ [r'.1]) r hr with
          ⟨key, hkey, hsame⟩ | ⟨first, hfirst, hsame⟩
        · rcases List.mem_append.1 hkey with hkey | hkey
          · exact .inl ⟨key, hkey, hsame⟩
          · obtain rfl := List.mem_singleton.1 hkey
            exact .inr ⟨r', List.mem_cons_self, hsame⟩
        · exact .inr ⟨first, List.mem_cons_of_mem _ hfirst, hsame⟩

/-- One row more is a first row when its key is new. -/
theorem firstRows_concat (r : List Value × α) : ∀ (rows : List (List Value × α))
    (seen : List (List Value)), firstRows seen (rows ++ [r]) = firstRows seen rows ++
      if (seen ++ (firstRows seen rows).map Prod.fst).any fun key => Value.sameAll key r.1 then []
      else [r]
  | [], seen => by
    simp only [List.nil_append, firstRows, List.map_nil, List.append_nil]
  | r' :: rows, seen => by
    rw [List.cons_append, firstRows, firstRows]
    by_cases hseen : (seen.any fun key => Value.sameAll key r'.1) = true
    · rw [if_pos hseen, if_pos hseen, firstRows_concat r rows seen]
    · rw [if_neg hseen, if_neg hseen, firstRows_concat r rows (seen ++ [r'.1]), List.cons_append,
        List.map_cons, List.append_assoc, List.singleton_append]

/-- A row goes to the one group of its key, or it makes a new one. -/
theorem insertIntoGroup_map (rows : List (List Value × α)) (r : List Value × α) :
    ∀ {firsts : List (List Value × α)},
    firsts.Pairwise (fun a b => ¬ Value.sameAll a.1 b.1) →
    insertIntoGroup r.1 r.2 (firsts.map (groupOf rows)) =
      firsts.map (groupOf (rows ++ [r])) ++
        if firsts.any fun first => Value.sameAll first.1 r.1 then [] else [⟨r.1, [r.2]⟩]
  | [], _ => rfl
  | first :: firsts, h => by
    obtain ⟨hfirst, hfirsts⟩ := List.pairwise_cons.1 h
    have hkey : (groupOf rows first).key = first.1 := rfl
    rw [List.map_cons, List.map_cons, insertIntoGroup, List.any_cons, groupOf_concat rows r first,
      hkey]
    by_cases hsame : Value.sameAll first.1 r.1 = true
    · -- no other group has this key
      have hothers : firsts.map (groupOf rows) = firsts.map (groupOf (rows ++ [r])) := by
        refine List.map_congr_left fun other hother => ?_
        have hdiffers : ¬ Value.sameAll other.1 r.1 := fun hsame' =>
          hfirst other hother (Value.sameAll_trans hsame (Value.sameAll_symm hsame'))
        rw [groupOf_concat, if_neg hdiffers]
      rw [if_pos hsame, if_pos hsame, hsame, Bool.true_or, if_pos rfl, List.append_nil, hothers]
      rfl
    · rw [if_neg hsame, if_neg hsame, insertIntoGroup_map rows r hfirsts, Bool.not_eq_true] at *
      rw [hsame, Bool.false_or, List.cons_append]

/-- A row whose key is new is alone in its group. -/
theorem groupOf_new {rows : List (List Value × α)} {r : List Value × α}
    (h : ∀ r' ∈ rows, ¬ Value.sameAll r.1 r'.1) : groupOf (rows ++ [r]) r = ⟨r.1, [r.2]⟩ := by
  have hnone : rows.filter (fun r' => Value.sameAll r.1 r'.1) = [] :=
    List.filter_eq_nil_iff.2 h
  simp [groupOf, List.filter_append, hnone, Value.sameAll_refl]

/-- **A group consists of all rows with the key of its first row.** -/
theorem groupRows_eq (rows : List (List Value × α)) :
    groupRows rows = (firstRows [] rows).map (groupOf rows) := by
  induction rows using List.reverseRecOn with
  | nil => rfl
  | append_singleton rows r ih =>
    have hpairwise := (firstRows_pairwise rows []).1
    have hinsert := insertIntoGroup_map rows r hpairwise
    rw [groupRows, List.foldl_concat, ← groupRows, ih, hinsert, firstRows_concat, List.nil_append,
      List.map_append, List.any_map]
    by_cases hseen : ((firstRows [] rows).any fun first => Value.sameAll first.1 r.1) = true
    · simp only [Function.comp_def, hseen, if_true, List.map_nil]
    · have hnew : ∀ r' ∈ rows, ¬ Value.sameAll r.1 r'.1 := by
        intro r' hr' hsame
        rcases exists_firstRows rows [] r' hr' with ⟨key, hkey, -⟩ | ⟨first, hfirst, hsame'⟩
        · cases hkey
        · refine hseen (List.any_eq_true.2 ⟨first, hfirst, ?_⟩)
          exact Value.sameAll_trans hsame' (Value.sameAll_symm hsame)
      simp only [Function.comp_def, if_neg hseen, List.map_singleton, groupOf_new hnew]

/-- The first members of groups are the rows that the groups show. -/
theorem heads_of_shows {gs : List (Group α)} {firsts : List (List Value × α)}
    (h : List.Forall₂ Group.Shows gs firsts) :
    gs.filterMap (fun g => g.members.head?) = firsts.map Prod.snd := by
  induction h with
  | nil => rfl
  | cons h _ ih => rw [List.filterMap_cons, h.first, ih, List.map_cons]

/-! ### Groups of places -/

/-- The places of keys, grouped by the keys. -/
structure IsPartition (keys : List (List Value)) (gs : List (Group Nat)) : Prop where
  ascending : ∀ g ∈ gs, g.members.Pairwise (· < ·)
  once : (gs.flatMap Group.members).Perm (List.range keys.length)
  together : ∀ i j : Nat, (∃ g ∈ gs, i ∈ g.members ∧ j ∈ g.members) ↔
    ∃ a b, keys[i]? = some a ∧ keys[j]? = some b ∧ Value.sameAll a b
  different : gs.Pairwise fun g g' => ¬ Value.sameAll g.key g'.key
  first : ∀ g ∈ gs, ∀ i, g.members.head? = some i → keys[i]? = some g.key
  ordered : (gs.filterMap fun g => g.members.head?).Pairwise (· < ·)

section Places

variable {keys : List (List Value)}

theorem mem_zipIdx_iff {k : List Value} {i : Nat} : (k, i) ∈ keys.zipIdx ↔ keys[i]? = some k :=
  List.mk_mem_zipIdx_iff_getElem?

/-- A place is in a group when its key is that of the group. -/
theorem mem_members_groupOf {first : List Value × Nat} {i : Nat} :
    i ∈ (groupOf keys.zipIdx first).members ↔
      ∃ k, keys[i]? = some k ∧ Value.sameAll first.1 k = true := by
  simp only [groupOf, List.mem_map, List.mem_filter, Prod.exists, exists_eq_right, mem_zipIdx_iff]

theorem members_groupOf_ascending (first : List Value × Nat) :
    (groupOf keys.zipIdx first).members.Pairwise (· < ·) := by
  have hsub : (groupOf keys.zipIdx first).members.Sublist (keys.zipIdx.map Prod.snd) :=
    List.filter_sublist.map Prod.snd
  rw [List.zipIdx_map_snd] at hsub
  exact List.Pairwise.sublist hsub List.pairwise_lt_range'

/-- Every place has a group. -/
theorem exists_groupOf {i : Nat} {k : List Value} (hk : keys[i]? = some k) :
    ∃ first ∈ firstRows [] keys.zipIdx, Value.sameAll first.1 k = true := by
  rcases exists_firstRows keys.zipIdx [] (k, i) (mem_zipIdx_iff.2 hk) with ⟨key, hkey, -⟩ | h
  · cases hkey
  · exact h

theorem groupRows_places_nodup : ((groupRows keys.zipIdx).flatMap Group.members).Nodup := by
  rw [groupRows_eq, List.flatMap_map, List.nodup_flatMap]
  refine ⟨fun first _ => (members_groupOf_ascending first).imp Nat.ne_of_lt, ?_⟩
  refine (firstRows_pairwise keys.zipIdx []).1.imp fun hdiffer i hi hi' => ?_
  obtain ⟨k, hk, hsame⟩ := mem_members_groupOf.1 hi
  obtain ⟨k', hk', hsame'⟩ := mem_members_groupOf.1 hi'
  obtain rfl := Option.some.inj (hk.symm.trans hk')
  exact hdiffer (Value.sameAll_trans hsame (Value.sameAll_symm hsame'))

/-- **Grouped places are a partition**, in the order of the first members. -/
theorem groupRows_isPartition (keys : List (List Value)) :
    IsPartition keys (groupRows keys.zipIdx) := by
  have hshows := groupRows_shows keys.zipIdx
  constructor
  case ascending =>
    rw [groupRows_eq]
    intro g hg
    obtain ⟨first, -, rfl⟩ := List.mem_map.1 hg
    exact members_groupOf_ascending first
  case once =>
    refine (List.perm_ext_iff_of_nodup groupRows_places_nodup List.nodup_range).2 fun i => ?_
    rw [groupRows_eq, List.flatMap_map, List.mem_flatMap, List.mem_range]
    constructor
    · rintro ⟨first, -, hi⟩
      obtain ⟨k, hk, -⟩ := mem_members_groupOf.1 hi
      exact (List.getElem?_eq_some_iff.1 hk).1
    · intro hi
      obtain ⟨first, hfirst, hsame⟩ := exists_groupOf (List.getElem?_eq_getElem hi)
      exact ⟨first, hfirst, mem_members_groupOf.2 ⟨_, List.getElem?_eq_getElem hi, hsame⟩⟩
  case together =>
    intro i j
    rw [groupRows_eq]
    constructor
    · rintro ⟨g, hg, hi, hj⟩
      obtain ⟨first, -, rfl⟩ := List.mem_map.1 hg
      obtain ⟨a, ha, hsame⟩ := mem_members_groupOf.1 hi
      obtain ⟨b, hb, hsame'⟩ := mem_members_groupOf.1 hj
      exact ⟨a, b, ha, hb, Value.sameAll_trans (Value.sameAll_symm hsame) hsame'⟩
    · rintro ⟨a, b, ha, hb, hsame⟩
      obtain ⟨first, hfirst, hsame'⟩ := exists_groupOf ha
      exact ⟨_, List.mem_map_of_mem hfirst, mem_members_groupOf.2 ⟨a, ha, hsame'⟩,
        mem_members_groupOf.2 ⟨b, hb, Value.sameAll_trans hsame' hsame⟩⟩
  case different =>
    rw [groupRows_eq]
    exact List.pairwise_map.2 (firstRows_pairwise keys.zipIdx []).1
  case first =>
    intro g hg i hi
    obtain ⟨r, hr, hg⟩ := exists_mem_of_forall₂ hshows.flip hg
    obtain rfl := Option.some.inj (hg.first.symm.trans hi)
    rw [hg.key]
    exact mem_zipIdx_iff.1 (firstRows_sublist.subset hr)
  case ordered =>
    have hfirsts : (firstRows [] keys.zipIdx).Sublist keys.zipIdx := firstRows_sublist
    have hsub := hfirsts.map Prod.snd
    rw [List.zipIdx_map_snd] at hsub
    rw [heads_of_shows hshows]
    exact List.Pairwise.sublist hsub List.pairwise_lt_range'

end Places

/-! ### Groups of other members -/

/-- Groups with one key, whose members are related as `R` says. -/
structure Group.Rel (R : α → β → Prop) (g : Group α) (g' : Group β) : Prop where
  key : g.key = g'.key
  members : List.Forall₂ R g.members g'.members

section Rel

variable {R : α → β → Prop} {a : α} {b : β}

theorem insertIntoGroup_rel (key : List Value) (hab : R a b) {gs : List (Group α)}
    {gs' : List (Group β)} (h : List.Forall₂ (Group.Rel R) gs gs') :
    List.Forall₂ (Group.Rel R) (insertIntoGroup key a gs) (insertIntoGroup key b gs') := by
  induction h with
  | nil => exact .cons ⟨rfl, .cons hab .nil⟩ .nil
  | @cons g g' gs gs' hg hgs ih =>
    rw [insertIntoGroup, insertIntoGroup, hg.key]
    by_cases hsame : Value.sameAll g'.key key = true
    · rw [if_pos hsame, if_pos hsame]
      exact .cons ⟨rfl, List.rel_append hg.members (.cons hab .nil)⟩ hgs
    · rw [if_neg hsame, if_neg hsame]
      exact .cons hg ih

/-- How rows are grouped depends on their keys only. -/
theorem groupRows_rel {rows : List (List Value × α)} {rows' : List (List Value × β)}
    (h : List.Forall₂ (fun r r' => r.1 = r'.1 ∧ R r.2 r'.2) rows rows') :
    List.Forall₂ (Group.Rel R) (groupRows rows) (groupRows rows') := by
  have hfold : ∀ {gs : List (Group α)} {gs' : List (Group β)}, List.Forall₂ (Group.Rel R) gs gs' →
      List.Forall₂ (Group.Rel R) (rows.foldl (fun gs r => insertIntoGroup r.1 r.2 gs) gs)
        (rows'.foldl (fun gs r => insertIntoGroup r.1 r.2 gs) gs') := by
    induction h with
    | nil => exact id
    | @cons r r' rows rows' hr _ ih =>
      intro gs gs' hgs
      rw [List.foldl_cons, List.foldl_cons, hr.1]
      exact ih (insertIntoGroup_rel r'.1 hr.2 hgs)
  exact hfold .nil

end Rel

/-! ### Finding groups through an index -/

/-- Groups of places with an index from each key to the place of its group. -/
structure IndexedGroups (hash : List Digest → UInt64) where
  groups : List (Group Nat)
  index : Std.HashMap (GroupKey hash) Nat

namespace IndexedGroups

variable {hash : List Digest → UInt64}

def empty : IndexedGroups hash := ⟨[], ∅⟩

/-- Puts a place into the group that the index leads to, or into a new one. -/
def add (gs : IndexedGroups hash) (key : List Value) (i : Nat) : IndexedGroups hash :=
  match gs.index[(⟨key⟩ : GroupKey hash)]? with
  | some place =>
    { gs with groups := gs.groups.modify place fun g => { g with members := g.members ++ [i] } }
  | none => ⟨gs.groups ++ [⟨key, [i]⟩], gs.index.insert ⟨key⟩ gs.groups.length⟩

/-- The index leads from every key to the first group with the same key. -/
def Indexed (gs : IndexedGroups hash) : Prop :=
  ∀ key, gs.index[(⟨key⟩ : GroupKey hash)]? =
    gs.groups.findIdx? fun g => Value.sameAll g.key key

/-- A search among the groups finds the same place as the index. -/
theorem insertIntoGroup_eq (key : List Value) (i : Nat) : ∀ gs : List (Group Nat),
    insertIntoGroup key i gs =
      match gs.findIdx? fun g => Value.sameAll g.key key with
      | some place => gs.modify place fun g => { g with members := g.members ++ [i] }
      | none       => gs ++ [⟨key, [i]⟩]
  | [] => rfl
  | g :: gs => by
    rw [insertIntoGroup, List.findIdx?_cons, insertIntoGroup_eq key i gs]
    by_cases hsame : Value.sameAll g.key key = true
    · rw [if_pos hsame, if_pos hsame]
      rfl
    · rw [if_neg hsame, if_neg hsame]
      cases gs.findIdx? fun g => Value.sameAll g.key key <;> rfl

theorem Indexed.add_groups {gs : IndexedGroups hash} (h : gs.Indexed) (key : List Value) (i : Nat) :
    (gs.add key i).groups = insertIntoGroup key i gs.groups := by
  rw [insertIntoGroup_eq, add, h key]
  cases gs.groups.findIdx? fun g => Value.sameAll g.key key <;> rfl

theorem indexed_empty : (empty : IndexedGroups hash).Indexed := by
  intro key
  simp [empty]

/-- A group with one member more has its key still. -/
theorem findIdx?_modify (gs : List (Group Nat)) (place i : Nat) (key : List Value) :
    (gs.modify place fun g => { g with members := g.members ++ [i] }).findIdx?
        (fun g => Value.sameAll g.key key) =
      gs.findIdx? fun g => Value.sameAll g.key key := by
  have hkeys : (gs.modify place fun g => { g with members := g.members ++ [i] }).map Group.key =
      gs.map Group.key := by
    refine List.ext_getElem? fun j => ?_
    rw [List.getElem?_map, List.getElem?_map, List.getElem?_modify]
    cases gs[j]? with
    | none => rfl
    | some g => by_cases hj : place = j <;> simp [hj]
  have hsearch := congrArg (List.findIdx? fun k => Value.sameAll k key) hkeys
  rwa [List.findIdx?_map, List.findIdx?_map] at hsearch

theorem Indexed.add {gs : IndexedGroups hash} (h : gs.Indexed) (key : List Value) (i : Nat) :
    (gs.add key i).Indexed := by
  intro other
  rw [IndexedGroups.add]
  cases hfound : gs.index[(⟨key⟩ : GroupKey hash)]? with
  | some place => rw [findIdx?_modify, h other]
  | none =>
    rw [h key] at hfound
    rw [Std.HashMap.getElem?_insert, List.findIdx?_append, h other]
    by_cases hsame : Value.sameAll key other = true
    · -- the key of the new group is found, and it was not there before
      have hnone : (gs.groups.findIdx? fun g => Value.sameAll g.key other) = none := by
        rw [List.findIdx?_eq_none_iff] at hfound ⊢
        intro g hg
        rw [Value.sameAll_comm, ← Value.sameAll_congr_left hsame, Value.sameAll_comm]
        exact hfound g hg
      have hkey : ((⟨key⟩ : GroupKey hash) == ⟨other⟩) = true := hsame
      rw [if_pos hkey, hnone, List.findIdx?_singleton, if_pos hsame, Option.map_some, Nat.zero_add,
        Option.none_or]
    · have hkey : ¬ ((⟨key⟩ : GroupKey hash) == ⟨other⟩) = true := hsame
      rw [if_neg hkey, List.findIdx?_singleton, if_neg hsame, Option.map_none, Option.or_none]

/-- **The index takes the place of the search**, whatever the hasher is. -/
theorem Indexed.foldl_add_groups {rows : List (List Value × Nat)} : ∀ {gs : IndexedGroups hash},
    gs.Indexed → (rows.foldl (fun gs r => gs.add r.1 r.2) gs).groups =
      rows.foldl (fun gs r => insertIntoGroup r.1 r.2 gs) gs.groups := by
  induction rows with
  | nil => exact fun _ => rfl
  | cons r rows ih =>
    intro gs h
    rw [List.foldl_cons, List.foldl_cons, ih (h.add r.1 r.2), h.add_groups]

end IndexedGroups

/-! ### The groups of a query -/

namespace Stages

variable {s : Stages Query} {here : Setting} {kept : List Combination} {keys : List (List Value)}

/-- The values of the GROUP BY programs on a combination. -/
def keyAt (s : Stages Query) (here : Setting) (c : Combination) : Except Error (List Value) := do
  let env ← here.envAt c
  s.groupBy.mapM fun p => p.value env

/-- The groups of the places of the kept combinations, found through an index. -/
def collectIndexed (hash : List Digest → UInt64) (s : Stages Query) (here : Setting)
    (kept : List Combination) : Except Error (List (Group Nat)) := do
  let collected ← kept.zipIdx.foldlM (fun (gs : IndexedGroups hash) p => do
    .ok (gs.add (← s.keyAt here p.1) p.2)) .empty
  .ok (if collected.groups.isEmpty && s.groupBy.isEmpty then [⟨[], []⟩] else collected.groups)

theorem collect_keyed (hkeys : List.Forall₂ (fun c key => s.keyAt here c = .ok key) kept keys) :
    (kept.mapM fun c => do
      let env ← here.envAt c
      Except.ok (← s.groupBy.mapM fun p => Program.value p env, c)) = .ok (keys.zip kept) := by
  rw [mapM_eq_ok_iff]
  induction hkeys with
  | nil => exact .nil
  | @cons c key kept keys hkey _ ih =>
    obtain ⟨env, henv, hvalues⟩ := bind_eq_ok_iff.1 hkey
    refine .cons ?_ ih
    rw [henv, ok_bind, hvalues]
    rfl

/-- The combinations and their places, each with its key. -/
theorem zip_rel_zipIdx (hlength : kept.length = keys.length) :
    List.Forall₂ (fun r r' => r.1 = r'.1 ∧ kept[r'.2]? = some r.2) (keys.zip kept) keys.zipIdx := by
  rw [List.forall₂_iff_get]
  refine ⟨by simp [hlength], fun i hi hi' => ?_⟩
  have hlt : i < kept.length := by
    rw [List.length_zip] at hi
    omega
  simp [hlt]

theorem collectIndexed_fold {hash : List Digest → UInt64}
    (hkeys : List.Forall₂ (fun c key => s.keyAt here c = .ok key) kept keys) :
    ∀ (n : Nat) (gs : IndexedGroups hash),
    (kept.zipIdx n).foldlM (fun (gs : IndexedGroups hash) p => do
      Except.ok (gs.add (← s.keyAt here p.1) p.2)) gs =
      .ok ((keys.zipIdx n).foldl (fun gs r => gs.add r.1 r.2) gs) := by
  induction hkeys with
  | nil => exact fun _ _ => rfl
  | cons hkey _ ih =>
    intro n gs
    rw [List.zipIdx_cons, List.zipIdx_cons, List.foldlM_cons, List.foldl_cons, hkey]
    exact ih (n + 1) _

/-- The groups of places; without group keys there is exactly one. -/
def places (s : Stages Query) (keys : List (List Value)) : List (Group Nat) :=
  if (groupRows keys.zipIdx).isEmpty && s.groupBy.isEmpty then [⟨[], []⟩]
  else groupRows keys.zipIdx

theorem collectIndexed_eq (hash : List Digest → UInt64)
    (hkeys : List.Forall₂ (fun c key => s.keyAt here c = .ok key) kept keys) :
    s.collectIndexed hash here kept =
      .ok (s.places keys) := by
  have hgroups : (keys.zipIdx.foldl (fun gs r => gs.add r.1 r.2)
      (IndexedGroups.empty : IndexedGroups hash)).groups = groupRows keys.zipIdx :=
    IndexedGroups.indexed_empty.foldl_add_groups
  rw [collectIndexed, collectIndexed_fold hkeys, ok_bind, hgroups, places]

/-- One group of nothing is a partition of nothing. -/
theorem isPartition_blank : IsPartition [] [⟨[], []⟩] where
  ascending := by simp
  once := .refl []
  together := by simp
  different := List.pairwise_singleton _ _
  first := by simp
  ordered := .nil

/-- Rows whose keys were all seen before make no group. -/
theorem firstRows_eq_nil {seen : List (List Value)} {rows : List (List Value × Nat)}
    (h : ∀ r ∈ rows, (seen.any fun key => Value.sameAll key r.1) = true) :
    firstRows seen rows = [] := by
  induction rows with
  | nil => rfl
  | cons r rows ih =>
    obtain ⟨hr, hrows⟩ := List.forall_mem_cons.1 h
    rw [firstRows, if_pos hr, ih hrows]

/-- Rows without key values are in one group. -/
theorem groupRows_of_blank_keys {keys : List (List Value)} (h : ∀ k ∈ keys, k = [])
    (hne : keys ≠ []) : groupRows keys.zipIdx = [⟨[], List.range keys.length⟩] := by
  have hall : ∀ r ∈ keys.zipIdx, Value.sameAll [] r.1 = true := by
    intro r hr
    rw [h r.1 (List.fst_mem_of_mem_zipIdx hr)]
    rfl
  match keys, hne with
  | k :: keys, _ =>
    obtain rfl : k = [] := h k List.mem_cons_self
    have hrest : firstRows [[]] (keys.zipIdx 1) = [] := by
      refine firstRows_eq_nil fun r hr => ?_
      rw [List.any_cons, hall r (List.mem_cons_of_mem _ hr), Bool.true_or]
    have hfirst : firstRows [] (([] :: keys).zipIdx) = [([], 0)] := by
      rw [List.zipIdx_cons, firstRows, List.any_nil, if_neg Bool.false_ne_true, List.nil_append,
        hrest]
    rw [groupRows_eq, hfirst, List.map_singleton, groupOf,
      List.filter_eq_self.2 hall, List.zipIdx_map_snd, List.range_eq_range']

theorem groupRows_isEmpty_of_rel {R : α → β → Prop} {gs : List (Group α)} {gs' : List (Group β)}
    (h : List.Forall₂ (Group.Rel R) gs gs') : gs.isEmpty = gs'.isEmpty := by
  cases h <;> rfl

/-- The groups of the combinations are those of their places. -/
theorem collect_rel (hkeys : List.Forall₂ (fun c key => s.keyAt here c = .ok key) kept keys) :
    ∃ groups, s.collect here kept = .ok groups ∧
      List.Forall₂ (Group.Rel fun c i => kept[i]? = some c) groups (s.places keys) := by
  have hrel := groupRows_rel (R := fun c i => kept[i]? = some c) (zip_rel_zipIdx hkeys.length_eq)
  refine ⟨_, by rw [collect, collect_keyed hkeys, ok_bind], ?_⟩
  rw [places, groupRows_isEmpty_of_rel hrel]
  split
  · exact .cons ⟨rfl, .nil⟩ .nil
  · exact hrel

theorem groupRows_ne_nil {keys : List (List Value)} (hne : keys ≠ []) :
    groupRows keys.zipIdx ≠ [] := by
  intro hnil
  have honce := (groupRows_isPartition keys).once.length_eq
  rw [hnil, List.flatMap_nil, List.length_nil, List.length_range] at honce
  exact hne (List.length_eq_zero_iff.1 honce.symm)

theorem places_of_ne_nil (hne : keys ≠ []) : s.places keys = groupRows keys.zipIdx := by
  rw [places, List.isEmpty_eq_false_iff.2 (groupRows_ne_nil hne), Bool.false_and,
    if_neg Bool.false_ne_true]

theorem places_isPartition (s : Stages Query) (keys : List (List Value)) :
    IsPartition keys (s.places keys) := by
  by_cases hne : keys = []
  · subst hne
    by_cases hgroupBy : s.groupBy.isEmpty = true
    · simpa [places, hgroupBy, groupRows] using isPartition_blank
    · simpa [places, hgroupBy] using groupRows_isPartition []
  · rw [places_of_ne_nil hne]
    exact groupRows_isPartition keys

/-- Every group has a first member, if there are group keys. -/
theorem members_ne_nil_of_places (hgroupBy : s.groupBy ≠ []) :
    ∀ g ∈ s.places keys, g.members ≠ [] := by
  intro g hg hnil
  rw [places, List.isEmpty_eq_false_iff.2 hgroupBy, Bool.and_false, if_neg Bool.false_ne_true] at hg
  obtain ⟨r, -, hshows⟩ := exists_mem_of_forall₂ (groupRows_shows keys.zipIdx).flip hg
  have hfirst := hshows.first
  rw [hnil] at hfirst
  cases hfirst

/-- Without group keys all places are in one group. -/
theorem places_of_ungrouped (hgroupBy : s.groupBy = []) (hkeys : ∀ k ∈ keys, k = []) :
    s.places keys = [⟨[], List.range keys.length⟩] := by
  by_cases hne : keys = []
  · subst hne
    simp [places, hgroupBy, groupRows]
  · rw [places_of_ne_nil hne, groupRows_of_blank_keys hkeys hne]

theorem keys_blank (hgroupBy : s.groupBy = [])
    (hkeys : List.Forall₂ (fun c key => s.keyAt here c = .ok key) kept keys) :
    ∀ k ∈ keys, k = [] := by
  intro k hk
  obtain ⟨c, -, hc⟩ := exists_mem_of_forall₂ hkeys hk
  obtain ⟨env, -, hvalues⟩ := bind_eq_ok_iff.1 hc
  rw [hgroupBy] at hvalues
  exact (Except.ok.inj hvalues).symm

/-- A query that groups by its first column. -/
def byFirstColumn : Stages Query :=
  { sources := [], joins := [], filter := none, outputs := [], columns := [],
    groupBy := [⟨[.column 0 0], []⟩], aggregates := [], orderBy := [], distinct := false,
    limit := none, aggregated := true }

/-- Zero, NULL, NaN, the negative zero, and NaN again. -/
def zerosAndNaNs : List Value :=
  [.number 0, .null, .number Float.nan, .number (-0), .number Float.nan]

/-- The values as the rows of a table with one column. -/
def columnSetting (values : List Value) : Setting :=
  ⟨Catalog.named "", [], [.memory (.ofRows 1 (values.map fun v => [v]))], ⟨0, 0⟩⟩

end Stages

end SqlEngine

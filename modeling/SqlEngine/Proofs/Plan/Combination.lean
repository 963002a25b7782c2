import SqlEngine.Plan.Combination
import SqlEngine.Proofs.Storage.Table

/-!
# Plans — combinations name rows that are there

A combination is *known* when each of its ids can be fetched from its source
(`Combination.Known`); then the positions of the combination can be found.  Joins make known
combinations out of known ones, and WHERE keeps some of them in their order, so no row is looked for
that is not there.

* `combine_known`, `combine_safe`: the combinations of the sources are known, and there are such
  combinations when the conditions are safe.
* `keep_sublist`, `keep_safe`: WHERE keeps some of the combinations.
-/

namespace SqlEngine

variable {s : Setting} {c : Combination} {ps : List Provider}

/-! ### Positions -/

/-- The position is on a row of the provider, or on the row of NULLs. -/
def Position.On (position : Position) (p : Provider) : Prop :=
  ∀ id row, position = some (id, row) → p.seek id = some row

theorem Position.on_none (p : Provider) : Position.On none p :=
  nofun

/-- Every row that the combination names is there. -/
def Combination.Known (ps : List Provider) (ids : Combination) : Prop :=
  ∀ (i : Nat) (id : RowId), ids[i]? = some (some id) →
    ∃ (p : Provider) (row : Row), ps[i]? = some p ∧ p.seek id = some row

theorem Combination.known_nil (ps : List Provider) : Combination.Known ps [] :=
  nofun

/-- A known combination has its positions. -/
theorem exists_locateAll : ∀ {ps : List Provider} {c : Combination}, Combination.Known ps c →
    ∃ positions, locateAll ps c = .ok positions ∧ List.Forall₂ Position.On positions ps
  | [], c, _ => ⟨[], by simp only [locateAll], .nil⟩
  | p :: ps, [], _ => by
    obtain ⟨positions, hpositions, hon⟩ := exists_locateAll (Combination.known_nil ps)
    exact ⟨none :: positions, by rw [locateAll, hpositions]; rfl, .cons (Position.on_none p) hon⟩
  | p :: ps, id :: ids, h => by
    have hids : Combination.Known ps ids := fun i id hi => h (i + 1) id hi
    obtain ⟨positions, hpositions, hon⟩ := exists_locateAll hids
    cases id with
    | none =>
      exact ⟨none :: positions, by rw [locateAll, hpositions]; rfl, .cons (Position.on_none p) hon⟩
    | some id =>
      obtain ⟨q, row, hq, hrow⟩ := h 0 id rfl
      obtain rfl := Option.some.inj hq
      refine ⟨some (id, row) :: positions, ?_, .cons ?_ hon⟩
      · rw [locateAll, Provider.locate, hrow, ok_bind, hpositions]
        rfl
      · intro id' row' h
        obtain ⟨rfl, rfl⟩ := Prod.mk.inj (Option.some.inj h)
        exact hrow

/-! ### Environments -/

/-- The environment is one that programs of the query are run in. -/
structure Setting.Reads (s : Setting) (env : Env) : Prop where
  catalog : env.catalog = s.catalog
  outer : env.outer = s.outer
  now : env.now = s.now
  positions : List.Forall₂ Position.On env.positions s.providers

/-- In every environment of the query the program has a value of the type, or an expected error. -/
def Program.SafeIn (s : Setting) (p : Program Query) (t : DataType) : Prop :=
  ∀ env, s.Reads env → Safe (·.HasType t) (p.value env)

/-- A condition that may be missing is safe. -/
def Setting.SafeCondition (s : Setting) (condition : Option (Program Query)) : Prop :=
  ∀ p, condition = some p → ∃ t, p.SafeIn s t

namespace Setting

theorem reads_env {positions : List Position} (h : List.Forall₂ Position.On positions s.providers)
    (number : Nat) (id : RowId) : s.Reads (s.env positions number id) :=
  ⟨rfl, rfl, rfl, h⟩

theorem exists_envAt (h : c.Known s.providers) : ∃ env, s.envAt c = .ok env ∧ s.Reads env := by
  obtain ⟨positions, hpositions, hon⟩ := exists_locateAll h
  exact ⟨_, by rw [envAt, hpositions]; rfl, reads_env hon _ _⟩

theorem exists_envFor (h : c.Known s.providers) (number : Nat) :
    ∃ env, s.envFor c number = .ok env ∧ s.Reads env := by
  obtain ⟨positions, hpositions, hon⟩ := exists_locateAll h
  exact ⟨_, by rw [envFor, hpositions]; rfl, reads_env hon _ _⟩

theorem holds_safe {condition : Option (Program Query)} (hcondition : s.SafeCondition condition)
    (h : c.Known s.providers) : Safe (fun _ => True) (s.holds condition c) := by
  cases condition with
  | none => trivial
  | some p =>
    obtain ⟨t, hp⟩ := hcondition p rfl
    obtain ⟨env, henv, hreads⟩ := exists_envAt h
    simp only [holds, henv, ok_bind]
    exact (hp env hreads).bind fun v _ => trivial

end Setting

/-! ### Joins -/

/-- The combination is a known one of the first `n` sources. -/
def Combination.KnownOf (ps : List Provider) (n : Nat) (c : Combination) : Prop :=
  c.length = n ∧ c.Known ps

/-- A combination is continued with what is there of the next source. -/
theorem Combination.KnownOf.concat {n : Nat} (h : c.KnownOf ps n) {next : Option RowId}
    (hnext : ∀ id, next = some id → ∃ p row, ps[n]? = some p ∧ p.seek id = some row) :
    Combination.KnownOf ps (n + 1) (c ++ [next]) := by
  obtain ⟨rfl, hknown⟩ := h
  refine ⟨by simp, fun i id hi => ?_⟩
  -- a place in the combination, the new one, or one behind it
  rcases Nat.lt_trichotomy i c.length with hlt | rfl | hgt
  · exact hknown i id (by rwa [List.getElem?_append_left hlt] at hi)
  · rw [List.getElem?_concat_length] at hi
    exact hnext id (Option.some.inj hi)
  · rw [List.getElem?_eq_none (by simp; omega)] at hi
    cases hi

theorem Combination.KnownOf.snoc {n : Nat} (h : c.KnownOf ps n) {p : Provider}
    (hp : ps[n]? = some p) {id : RowId} (hid : ∃ row, p.seek id = some row) :
    Combination.KnownOf ps (n + 1) (c ++ [some id]) := by
  obtain ⟨row, hrow⟩ := hid
  refine h.concat fun j hj => ?_
  obtain rfl := Option.some.inj hj
  exact ⟨p, row, hp, hrow⟩

theorem Combination.KnownOf.snoc_none {n : Nat} (h : c.KnownOf ps n) :
    Combination.KnownOf ps (n + 1) (c ++ [none]) := by
  refine h.concat fun id hid => ?_
  cases hid

theorem Combination.knownOf_replicate (ps : List Provider) (n : Nat) :
    Combination.KnownOf ps n (List.replicate n none) := by
  refine ⟨List.length_replicate, fun i id hi => ?_⟩
  rw [List.getElem?_replicate] at hi
  split at hi <;> cases hi

theorem matching_sublist {holds : Combination → Except Error Bool} {left : Combination} :
    ∀ {ids hits : List RowId}, matching holds left ids = .ok hits → hits.Sublist ids
  | [], hits, h => by
    obtain rfl := Except.ok.inj h
    exact .slnil
  | id :: ids, hits, h => by
    simp only [matching, bind_eq_ok_iff] at h
    obtain ⟨hit, -, rest, hrest, h⟩ := h
    obtain rfl := Except.ok.inj h
    split
    · exact (matching_sublist hrest).cons_cons id
    · exact (matching_sublist hrest).cons id

theorem matching_safe {holds : Combination → Except Error Bool} {left : Combination} :
    ∀ {ids : List RowId}, (∀ id ∈ ids, Safe (fun _ => True) (holds (left ++ [some id]))) →
    Safe (fun _ => True) (matching holds left ids)
  | [], _ => trivial
  | id :: ids, h => by
    obtain ⟨hid, hids⟩ := List.forall_mem_cons.1 h
    exact hid.bind fun _ _ => (matching_safe hids).bind fun _ _ => trivial

theorem knownOf_extend {kind : JoinKind} {left : Combination} {n : Nat} {p : Provider}
    (hp : ps[n]? = some p) (hleft : left.KnownOf ps n) {ids : List RowId}
    (hids : ∀ id ∈ ids, ∃ row, p.seek id = some row) (h : c ∈ extend kind left ids) :
    c.KnownOf ps (n + 1) := by
  simp only [extend] at h
  split at h
  · obtain rfl := List.mem_singleton.1 h
    exact hleft.snoc_none
  · obtain ⟨id, hid, rfl⟩ := List.mem_map.1 h
    exact hleft.snoc hp (hids id hid)

theorem knownOf_unmatched {kind : JoinKind} {n : Nat} {p : Provider} (hp : ps[n]? = some p)
    {right : List RowId} (hright : ∀ id ∈ right, ∃ row, p.seek id = some row)
    {matched : List (List RowId)} (h : c ∈ unmatched kind n right matched) :
    c.KnownOf ps (n + 1) := by
  simp only [unmatched] at h
  split at h
  · obtain ⟨id, hid, rfl⟩ := List.mem_map.1 h
    exact (Combination.knownOf_replicate ps n).snoc hp (hright id (List.mem_filter.1 hid).1)
  · cases h

/-- **A join makes known combinations** of what it is given. -/
theorem joinRows_known {kind : JoinKind} {holds : Combination → Except Error Bool} {n : Nat}
    {p : Provider} (hp : ps[n]? = some p) {left : List Combination}
    (hleft : ∀ c ∈ left, c.KnownOf ps n) {right : List RowId}
    (hright : ∀ id ∈ right, ∃ row, p.seek id = some row) {cs : List Combination}
    (h : joinRows kind holds n left right = .ok cs) : ∀ c ∈ cs, c.KnownOf ps (n + 1) := by
  simp only [joinRows, bind_eq_ok_iff] at h
  obtain ⟨matched, hmatched, h⟩ := h
  obtain rfl := Except.ok.inj h
  intro c hc
  -- a row of the left side with what it matches, or an unmatched row of the right side
  rcases List.mem_append.1 hc with hc | hc
  · obtain ⟨list, hlist, hc⟩ := List.mem_flatten.1 hc
    rw [← List.map_uncurry_zip_eq_zipWith] at hlist
    obtain ⟨⟨left', hits⟩, hpair, rfl⟩ := List.mem_map.1 hlist
    obtain ⟨hmem, hhits⟩ := List.of_mem_zip hpair
    obtain ⟨before, -, hmatching⟩ := exists_mem_of_forall₂ (mapM_eq_ok_iff.1 hmatched) hhits
    have hsub := matching_sublist hmatching
    exact knownOf_extend hp (hleft left' hmem) (fun id hid => hright id (hsub.subset hid)) hc
  · exact knownOf_unmatched hp hright hc

/-- All rows that a visit to a source announces can be fetched. -/
def Setting.Announced (s : Setting) : Prop :=
  ∀ p ∈ s.providers, ∀ id ∈ p.rowIds, ∃ row, p.seek id = some row

theorem joinAll_known (hs : s.Announced) : ∀ {joins : List (JoinStep Query)} {n : Nat}
    {left cs : List Combination}, (∀ c ∈ left, c.KnownOf s.providers n) →
    joinAll s n left joins = .ok cs → ∀ c ∈ cs, c.Known s.providers
  | [], n, left, cs, hleft, h => by
    obtain rfl := Except.ok.inj h
    exact fun c hc => (hleft c hc).2
  | j :: joins, n, left, cs, hleft, h => by
    rw [joinAll] at h
    split at h
    · cases h
    next p hp =>
      obtain ⟨joined, hjoined, h⟩ := bind_eq_ok_iff.1 h
      have hknown := joinRows_known hp hleft (hs p (List.mem_of_getElem? hp)) hjoined
      exact joinAll_known hs hknown h

/-- The rows of the first source are known. -/
theorem Setting.Announced.first (hs : s.Announced) {p : Provider} (hp : s.providers[0]? = some p) :
    ∀ c ∈ p.rowIds.map fun id => [some id], Combination.KnownOf s.providers 1 c := by
  intro c hc
  obtain ⟨id, hid, rfl⟩ := List.mem_map.1 hc
  exact .snoc ⟨rfl, Combination.known_nil _⟩ hp (hs p (List.mem_of_getElem? hp) id hid)

/-- **The combinations of the sources are known.** -/
theorem combine_known (hs : s.Announced) {joins : List (JoinStep Query)} {cs : List Combination}
    (h : combine s joins = .ok cs) : ∀ c ∈ cs, c.Known s.providers := by
  cases hproviders : s.providers with
  | nil =>
    simp only [combine, hproviders] at h
    obtain rfl := Except.ok.inj h
    intro c hc
    obtain rfl := List.mem_singleton.1 hc
    exact Combination.known_nil _
  | cons p rest =>
    -- the rows of the first source, and then a join for each of the others
    simp only [combine, hproviders] at h
    rw [← hproviders]
    exact joinAll_known hs (hs.first (by rw [hproviders]; rfl)) h

theorem joinRows_safe {kind : JoinKind} {condition : Option (Program Query)} {n : Nat}
    {p : Provider} (hp : s.providers[n]? = some p) (hcondition : s.SafeCondition condition)
    {left : List Combination} (hleft : ∀ c ∈ left, c.KnownOf s.providers n)
    {right : List RowId} (hright : ∀ id ∈ right, ∃ row, p.seek id = some row) :
    Safe (fun cs : List Combination => ∀ c ∈ cs, c.KnownOf s.providers (n + 1))
      (joinRows kind (s.holds condition) n left right) := by
  have hmatching : ∀ c ∈ left, Safe (fun _ => True) (matching (s.holds condition) c right) :=
    fun c hc => matching_safe fun id hid =>
      Setting.holds_safe hcondition ((hleft c hc).snoc hp (hright id hid)).2
  have hsafe : Safe (fun _ => True) (joinRows kind (s.holds condition) n left right) :=
    (Safe.mapM_mem hmatching).bind fun _ _ => trivial
  exact hsafe.of_ok fun _ hcs => joinRows_known hp hleft hright hcs

theorem joinAll_safe (hs : s.Announced) : ∀ {joins : List (JoinStep Query)} {n : Nat}
    {left : List Combination}, s.providers.length = n + joins.length →
    (∀ j ∈ joins, s.SafeCondition j.condition) → (∀ c ∈ left, c.KnownOf s.providers n) →
    Safe (fun _ => True) (joinAll s n left joins)
  | [], _, _, _, _, _ => trivial
  | j :: joins, n, left, hlen, hjoins, hleft => by
    obtain ⟨hj, hjoins⟩ := List.forall_mem_cons.1 hjoins
    have hn : n < s.providers.length := by
      rw [hlen, List.length_cons]
      omega
    have hp := List.getElem?_eq_getElem hn
    simp only [joinAll, hp]
    refine (joinRows_safe hp hj hleft (hs _ (List.getElem_mem hn))).bind fun joined hjoined => ?_
    exact joinAll_safe hs (by rw [hlen, List.length_cons]; omega) hjoins hjoined

/-- **Joins are safe** when each join has its source and a safe condition. -/
theorem combine_safe (hs : s.Announced) {joins : List (JoinStep Query)}
    (hlen : s.providers = [] ∨ s.providers.length = joins.length + 1)
    (hjoins : ∀ j ∈ joins, s.SafeCondition j.condition) :
    Safe (fun cs : List Combination => ∀ c ∈ cs, c.Known s.providers) (combine s joins) := by
  refine Safe.of_ok (P := fun _ => True) ?_ fun _ hcs => combine_known hs hcs
  cases hproviders : s.providers with
  | nil =>
    simp only [combine, hproviders]
    trivial
  | cons p rest =>
    simp only [combine, hproviders]
    have hlen' : s.providers.length = 1 + joins.length := by
      rcases hlen with hlen | hlen
      · rw [hproviders] at hlen
        cases hlen
      · omega
    exact joinAll_safe hs hlen' hjoins (hs.first (by rw [hproviders]; rfl))

/-! ### WHERE -/

theorem filterRows_sublist {p : Program Query} : ∀ {cs kept : List Combination} {number : Nat},
    filterRows s p number cs = .ok kept → kept.Sublist cs
  | [], kept, number, h => by
    obtain rfl := Except.ok.inj h
    exact .slnil
  | c :: cs, kept, number, h => by
    simp only [filterRows, bind_eq_ok_iff] at h
    obtain ⟨env, -, v, -, rest, hrest, h⟩ := h
    obtain rfl := Except.ok.inj h
    split
    · exact (filterRows_sublist hrest).cons_cons c
    · exact (filterRows_sublist hrest).cons c

/-- WHERE keeps some of the combinations, in their order. -/
theorem keep_sublist {filter : Option (Program Query)} {cs kept : List Combination}
    (h : keep s filter cs = .ok kept) : kept.Sublist cs := by
  cases filter with
  | none =>
    obtain rfl := Except.ok.inj h
    exact .refl _
  | some p => exact filterRows_sublist h

theorem filterRows_safe {p : Program Query} {t : DataType} (hp : p.SafeIn s t) :
    ∀ {cs : List Combination} {number : Nat}, (∀ c ∈ cs, c.Known s.providers) →
    Safe (fun _ => True) (filterRows s p number cs)
  | [], _, _ => trivial
  | c :: cs, number, h => by
    obtain ⟨hc, hcs⟩ := List.forall_mem_cons.1 h
    obtain ⟨env, henv, hreads⟩ := Setting.exists_envFor hc number
    simp only [filterRows, henv, ok_bind]
    exact (hp env hreads).bind fun _ _ => (filterRows_safe hp hcs).bind fun _ _ => trivial

theorem keep_safe {filter : Option (Program Query)} (hfilter : s.SafeCondition filter)
    {cs : List Combination} (h : ∀ c ∈ cs, c.Known s.providers) :
    Safe (fun kept : List Combination => ∀ c ∈ kept, c.Known s.providers) (keep s filter cs) := by
  have hsafe : Safe (fun _ => True) (keep s filter cs) := by
    cases filter with
    | none => trivial
    | some p =>
      obtain ⟨t, hp⟩ := hfilter p rfl
      exact filterRows_safe hp h
  exact hsafe.of_ok fun kept hkept c hc => h c ((keep_sublist hkept).subset hc)

end SqlEngine

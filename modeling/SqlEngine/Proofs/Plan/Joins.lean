import Mathlib
import SqlEngine.Plan.Execution
import SqlEngine.Proofs.Plan.Emission
import SqlEngine.Proofs.Storage.Table

/-!
# Plans — joins as relations

What the joins of a query are, said without the loops that make them.  A join *accepts* a
combination when its ON program is TRUE there (`JoinStep.accepts`).  The relation of a join over the
combinations before it has every accepted extension by a right row, in the order of the two sides,
and rows of NULLs for what is kept without a partner (`JoinStep.relation`); the relation of a query
is that of its joins one after the other (`Setting.relation`).  The ON programs are tried in the
order of nested loops (`Setting.trials`), and an error among them ends the query.

* `Select.Compiles.joined`: each join of a compiled SELECT has its source.
* `combine_eq_relation`: the combinations of the sources are the relation of the joins, or the error
  of the first trial that fails; each has one entry for each source, and the rows of every source
  are visited once and in order.
-/

namespace SqlEngine

/-! ### The first failure -/

section Failure

variable {α β γ δ ε : Type}

/-- The error of a result. -/
def failure? : Except ε α → Option ε
  | .ok _    => none
  | .error e => some e

/-- The first error among the results; without one, the value. -/
def unlessFailed (rs : List (Except ε α)) (b : β) : Except ε β :=
  match rs.findSome? failure? with
  | none   => .ok b
  | some e => .error e

@[simp] theorem unlessFailed_nil (b : β) : unlessFailed ([] : List (Except ε α)) b = .ok b := rfl

/-- Two runs one after the other fail where the first failure of both is. -/
theorem unlessFailed_bind {rs qs : List (Except ε α)} {b : β} {f : β → Except ε γ} {c : γ}
    (h : f b = unlessFailed qs c) :
    unlessFailed rs b >>= f = unlessFailed (rs ++ qs) c := by
  simp only [unlessFailed, List.findSome?_append] at h ⊢
  cases rs.findSome? failure? with
  | none => exact h
  | some e => rfl

theorem unlessFailed_bind_ok {rs : List (Except ε α)} {b : β} (f : β → γ) :
    (unlessFailed rs b >>= fun b => .ok (f b)) = unlessFailed rs (f b) := by
  simp only [unlessFailed]
  cases rs.findSome? failure? with
  | none => rfl
  | some e => rfl

theorem unlessFailed_mapM {as : List α} {f : α → Except ε β} {trials : α → List (Except ε δ)}
    {result : α → β} (h : ∀ a ∈ as, f a = unlessFailed (trials a) (result a)) :
    as.mapM f = unlessFailed (as.flatMap trials) (as.map result) := by
  induction as with
  | nil => rfl
  | cons a as ih =>
    obtain ⟨ha, has⟩ := List.forall_mem_cons.1 h
    rw [List.mapM_cons, ha, ih has, List.flatMap_cons, List.map_cons]
    exact unlessFailed_bind (unlessFailed_bind_ok (result a :: ·))

end Failure

/-! ### Relations -/

/-- The value of a program on a combination. -/
def Setting.valueAt (s : Setting) (p : Program Query) (c : Combination) : Except Error Value := do
  p.value (← s.envAt c)

namespace JoinStep

/-- The ON program is TRUE on the combination, or there is none. -/
def accepts (s : Setting) (j : JoinStep Query) (c : Combination) : Bool :=
  match j.condition with
  | none   => true
  | some p =>
    match s.valueAt p c with
    | .ok v    => v.isTrue
    | .error _ => false

/-- The accepted extensions of a combination by a right row. -/
def extensions (s : Setting) (j : JoinStep Query) (right : List RowId) (c : Combination) :
    List Combination :=
  (right.map fun id => c ++ [some id]).filter (j.accepts s)

/-- The relation of a join whose left side has `width` sources: the extensions of each combination,
or the combination with the row of NULLs, and then the right rows that extend none. -/
def relation (s : Setting) (j : JoinStep Query) (width : Nat) (left : List Combination)
    (right : List RowId) : List Combination :=
  (left.flatMap fun c =>
    if (j.kind = .left ∨ j.kind = .full) ∧ j.extensions s right c = [] then [c ++ [none]]
    else j.extensions s right c) ++
  if j.kind = .right ∨ j.kind = .full then
    (right.filter fun id => left.all fun c => !j.accepts s (c ++ [some id])).map fun id =>
      List.replicate width none ++ [some id]
  else []

/-- The values of the ON program for every pair, in the order of nested loops. -/
def trials (s : Setting) (j : JoinStep Query) (left : List Combination) (right : List RowId) :
    List (Except Error Value) :=
  match j.condition with
  | none   => []
  | some p => left.flatMap fun c => right.map fun id => s.valueAt p (c ++ [some id])

end JoinStep

namespace Setting

/-- The relation of the joins, each with its right source, from the left. -/
def relationFrom (s : Setting) (width : Nat) (left : List Combination) :
    List (JoinStep Query × Provider) → List Combination
  | []           => left
  | (j, p) :: js => s.relationFrom (width + 1) (j.relation s width left p.rowIds) js

/-- The values of the ON programs, one join after the other. -/
def trialsFrom (s : Setting) (width : Nat) (left : List Combination) :
    List (JoinStep Query × Provider) → List (Except Error Value)
  | []           => []
  | (j, p) :: js =>
    j.trials s left p.rowIds ++ s.trialsFrom (width + 1) (j.relation s width left p.rowIds) js

/-- The combinations of the first source; without sources there is the empty one. -/
def origin (s : Setting) : List Combination :=
  match s.providers with
  | []     => [[]]
  | p :: _ => p.rowIds.map fun id => [some id]

/-- The relation of a query's joins: each joins the next source. -/
def relation (s : Setting) (joins : List (JoinStep Query)) : List Combination :=
  s.relationFrom 1 s.origin (joins.zip s.providers.tail)

/-- The values of the ON programs of a query, in the order in which they are tried. -/
def trials (s : Setting) (joins : List (JoinStep Query)) : List (Except Error Value) :=
  s.trialsFrom 1 s.origin (joins.zip s.providers.tail)

end Setting

/-! ### One join -/

variable {s : Setting} {j : JoinStep Query} {c d : Combination} {right : List RowId}
  {left : List Combination} {width : Nat}

namespace JoinStep

/-- The trials for one combination. -/
theorem trials_eq_flatMap :
    j.trials s left right = left.flatMap fun c => j.trials s [c] right := by
  unfold trials
  cases j.condition with
  | none => simp
  | some p => simp

theorem trials_cons {id : RowId} :
    j.trials s [c] (id :: right) = j.trials s [c] [id] ++ j.trials s [c] right := by
  unfold trials
  cases j.condition with
  | none => rfl
  | some p => simp

theorem holds_eq {id : RowId} :
    s.holds j.condition (c ++ [some id]) =
      unlessFailed (j.trials s [c] [id]) (j.accepts s (c ++ [some id])) := by
  unfold trials accepts
  cases hcondition : j.condition with
  | none => rfl
  | some p =>
    have hvalue : s.holds (some p) (c ++ [some id]) =
        s.valueAt p (c ++ [some id]) >>= fun v => .ok v.isTrue := by
      simp only [Setting.holds, Setting.valueAt, bind_assoc]
    rw [hvalue]
    cases hv : s.valueAt p (c ++ [some id]) with
    | ok v => simp [unlessFailed, failure?, hv]
    | error e => simp [unlessFailed, failure?, hv]

/-- The rows that match a combination are those that extend it. -/
theorem matching_eq : ∀ right : List RowId,
    matching (s.holds j.condition) c right = unlessFailed (j.trials s [c] right)
      (right.filter fun id => j.accepts s (c ++ [some id]))
  | [] => by
    unfold trials
    cases j.condition <;> rfl
  | id :: right => by
    rw [matching, holds_eq, matching_eq right, List.filter_cons]
    conv_rhs => rw [trials_cons]
    exact unlessFailed_bind
      (unlessFailed_bind_ok fun rest => if j.accepts s (c ++ [some id]) then id :: rest else rest)

/-- A combination goes on with its extensions, or with the row of NULLs. -/
theorem extend_eq :
    extend j.kind c (right.filter fun id => j.accepts s (c ++ [some id])) =
      if (j.kind = .left ∨ j.kind = .full) ∧ j.extensions s right c = [] then [c ++ [none]]
      else j.extensions s right c := by
  have hkeeps : j.kind.keepsLeft = true ↔ j.kind = .left ∨ j.kind = .full := by
    cases j.kind <;> simp [JoinKind.keepsLeft]
  have hmap : (right.filter fun id => j.accepts s (c ++ [some id])).map (fun id => c ++ [some id]) =
      j.extensions s right c := by
    rw [extensions, List.filter_map]
    rfl
  have hnil : (right.filter fun id => j.accepts s (c ++ [some id])) = [] ↔
      j.extensions s right c = [] := by
    rw [← hmap, List.map_eq_nil_iff]
  simp only [extend, hmap, Bool.and_eq_true, List.isEmpty_iff, hnil, hkeeps, and_comm]

/-- A right row is left over when it extends no combination. -/
theorem unmatched_eq :
    unmatched j.kind width right
        (left.map fun c => right.filter fun id => j.accepts s (c ++ [some id])) =
      if j.kind = .right ∨ j.kind = .full then
        (right.filter fun id => left.all fun c => !j.accepts s (c ++ [some id])).map fun id =>
          List.replicate width none ++ [some id]
      else [] := by
  have hkeeps : j.kind.keepsRight = true ↔ j.kind = .right ∨ j.kind = .full := by
    cases j.kind <;> simp [JoinKind.keepsRight]
  have hfilter : (right.filter fun id =>
        !(left.map fun c => right.filter fun id => j.accepts s (c ++ [some id])).any
          (·.contains id)) =
      right.filter fun id => left.all fun c => !j.accepts s (c ++ [some id]) := by
    refine List.filter_congr fun id hid => ?_
    rw [List.any_map, List.all_eq_not_any_not]
    simp [Function.comp_def, hid]
  simp only [unmatched, hfilter, hkeeps]

/-- **A join is its relation**, unless one of its trials fails. -/
theorem joinRows_eq :
    joinRows j.kind (s.holds j.condition) width left right =
      unlessFailed (j.trials s left right) (j.relation s width left right) := by
  have hmatched : left.mapM (fun c => matching (s.holds j.condition) c right) =
      unlessFailed (j.trials s left right)
        (left.map fun c => right.filter fun id => j.accepts s (c ++ [some id])) := by
    rw [trials_eq_flatMap]
    exact unlessFailed_mapM fun c _ => matching_eq right
  rw [joinRows, hmatched, unlessFailed_bind_ok, unmatched_eq, relation, List.zipWith_map_right,
    List.zipWith_self, List.flatMap]
  simp only [extend_eq]

theorem length_of_mem_extensions (h : c ∈ j.extensions s right d) : c.length = d.length + 1 := by
  obtain ⟨id, -, rfl⟩ := List.mem_map.1 (List.mem_filter.1 h).1
  simp

/-- The combinations of a join have one entry more than those before it. -/
theorem length_of_mem_relation (hleft : ∀ c ∈ left, c.length = width)
    (h : c ∈ j.relation s width left right) : c.length = width + 1 := by
  rcases List.mem_append.1 h with h | h
  · obtain ⟨d, hd, h⟩ := List.mem_flatMap.1 h
    rw [← hleft d hd]
    split at h
    · obtain rfl := List.mem_singleton.1 h
      simp
    · exact length_of_mem_extensions h
  · split at h
    · obtain ⟨id, -, rfl⟩ := List.mem_map.1 h
      simp
    · cases h

end JoinStep

/-! ### All joins -/

theorem joinAll_eq : ∀ {joins : List (JoinStep Query)} {ps : List Provider} {width : Nat}
    {left : List Combination}, s.providers.drop width = ps → ps.length = joins.length →
    joinAll s width left joins = unlessFailed (s.trialsFrom width left (joins.zip ps))
      (s.relationFrom width left (joins.zip ps))
  | [], [], _, _, _, _ => rfl
  | j :: joins, p :: ps, width, left, hps, hlen => by
    have hp : s.providers[width]? = some p := by
      rw [← Nat.add_zero width, ← List.getElem?_drop, hps]
      rfl
    have hrest : s.providers.drop (width + 1) = ps := by
      rw [← List.drop_drop, hps]
      rfl
    rw [joinAll, hp]
    simp only [List.zip_cons_cons, Setting.trialsFrom, Setting.relationFrom]
    rw [JoinStep.joinRows_eq]
    exact unlessFailed_bind (joinAll_eq hrest (Nat.succ.inj hlen))

theorem length_of_mem_relationFrom : ∀ {joins : List (JoinStep Query × Provider)} {width : Nat}
    {left : List Combination}, (∀ c ∈ left, c.length = width) →
    ∀ c ∈ s.relationFrom width left joins, c.length = width + joins.length
  | [], _, _, hleft, c, hc => hleft c hc
  | (j, p) :: joins, width, left, hleft, c, hc => by
    rw [length_of_mem_relationFrom (fun c hc => JoinStep.length_of_mem_relation hleft hc) c hc,
      List.length_cons]
    omega

/-- A compiled SELECT has a source for each join, and one before them. -/
theorem Select.Compiles.joined {cat : Catalog} {q : Select} {stages : Stages Plan}
    (h : q.Compiles cat stages) (hnone : q.origin = none → q.joins = []) :
    stages.sources = [] ∨ stages.sources.length = stages.joins.length + 1 := by
  have hlen := h.supplies.length_eq
  rw [Join.length_steps h.joins]
  cases horigin : q.origin with
  | none =>
    rw [Select.sources, horigin, hnone horigin] at hlen
    exact .inl (List.length_eq_zero_iff.1 hlen.symm)
  | some source => exact .inr (by simp [← hlen, Select.sources, horigin])

/-- A query has a provider for each source. -/
theorem Stages.length_providers {cat : Catalog} {now : Date.Instant} {outer : List Frame}
    {stages : Stages Query} (h : stages.setting cat now outer = .ok s) :
    s.providers.length = stages.sources.length := by
  simp only [Stages.setting, bind_eq_ok_iff, mapM_eq_ok_iff] at h
  obtain ⟨tables, htables, providers, hproviders, h⟩ := h
  obtain rfl := Except.ok.inj h
  rw [← hproviders.length_eq, ← htables.length_eq]

/-- **Joins neither lose nor invent rows.**  When each join has its source, the combinations are the
relation of the joins, unless an ON program fails: then the first failure in the order of the nested
loops is the result.  Each combination has one entry for each source, and each source is visited row
by row, in ascending order of the ids. -/
theorem combine_eq_relation {joins : List (JoinStep Query)}
    (h : s.providers = [] ∨ s.providers.length = joins.length + 1) :
    combine s joins = unlessFailed (s.trials joins) (s.relation joins) ∧
    (∀ c ∈ s.relation joins, c.length = s.providers.length) ∧
    ∀ p ∈ s.providers, p.rowIds.Pairwise (· < ·) := by
  refine ⟨?_, ?_, fun p _ => Entries.pairwise_idsAfter _ _⟩
  · unfold combine Setting.trials Setting.relation Setting.origin
    cases hproviders : s.providers with
    | nil => simp [Setting.trialsFrom, Setting.relationFrom]
    | cons p rest =>
      have hlen : rest.length = joins.length := by simpa [hproviders] using h
      exact joinAll_eq (by rw [hproviders]; rfl) hlen
  · unfold Setting.relation Setting.origin
    cases hproviders : s.providers with
    | nil => simp [Setting.relationFrom]
    | cons p rest =>
      have hlen : rest.length = joins.length := by simpa [hproviders] using h
      intro c hc
      have hfirst : ∀ c ∈ p.rowIds.map (fun id => [some id]), c.length = 1 := by simp
      rw [length_of_mem_relationFrom hfirst c hc, List.length_zip, List.tail_cons, hlen,
        List.length_cons, hlen]
      omega

/-- A source of one column. -/
def Provider.ofTexts (texts : List String) : Provider :=
  .memory (.ofRows 1 (texts.map fun t => [.text t]))

/-- Three sources, each with one row that the next one has as well. -/
def chained : Setting :=
  ⟨.named "c", [], [.ofTexts ["a", "b"], .ofTexts ["b", "c"], .ofTexts ["c", "d"]], ⟨0, 0⟩⟩

/-- A join that keeps both sides, where the first column of a source is that of the next one. -/
def chainedJoin (source : Nat) : JoinStep Query :=
  ⟨.full, some ⟨[.column source 0, .column (source + 1) 0, .operator .equal], []⟩⟩

/-- The second join is over combinations that the first one has padded on either side. -/
theorem combine_chained :
    chained.providers.length = [chainedJoin 0, chainedJoin 1].length + 1 ∧
    combine chained [chainedJoin 0, chainedJoin 1] =
      .ok [[some 0, none, none], [some 1, some 0, none], [none, some 1, some 0],
        [none, none, some 1]] := by
  have hlen : chained.providers.length = [chainedJoin 0, chainedJoin 1].length + 1 := rfl
  have htrials : (chained.trials [chainedJoin 0, chainedJoin 1]).findSome? failure? = none := by
    cbv
  have hrelation : chained.relation [chainedJoin 0, chainedJoin 1] =
      [[some 0, none, none], [some 1, some 0, none], [none, some 1, some 0],
        [none, none, some 1]] := by
    cbv
  obtain ⟨hcombine, -⟩ := combine_eq_relation (.inr hlen)
  exact ⟨hlen, by rw [hcombine, unlessFailed, htrials, hrelation]⟩

end SqlEngine

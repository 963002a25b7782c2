import Mathlib
import SqlEngine.Proofs.Plan.Environments
import SqlEngine.Proofs.Plan.Soundness

/-!
# Plans — the columns around a plan that it reads

A plan reads a column of a frame around it in its own programs, in the plans of its sources, which
are run for the same frames, or in a plan that one of its programs runs for a value; there its own
current rows are one more frame, so what is read one level further out there counts here
(`Plan.Reads`).  A plan gives the same rows, or the same error, for all frames that agree on the
columns that it reads (`Plan.query_eq_of_reads`).
-/

namespace SqlEngine

/-! ### Plans within a plan -/

/-- The programs of all clauses. -/
def Stages.programs {Q : Type} (s : Stages Q) : List (Program Q) :=
  s.joins.filterMap JoinStep.condition ++ s.filter.toList ++ s.outputs ++ s.groupBy ++
    s.aggregates.flatMap Slot.arguments ++ s.orderBy.map SortKey.program

section Programs

variable {Q : Type} {s : Stages Q} {p : Program Q}

theorem Stages.mem_programs : p ∈ s.programs ↔ (∃ j ∈ s.joins, j.condition = some p) ∨
    s.filter = some p ∨ p ∈ s.outputs ∨ p ∈ s.groupBy ∨
      (∃ slot ∈ s.aggregates, p ∈ slot.arguments) ∨ ∃ k ∈ s.orderBy, k.program = p := by
  simp only [programs, List.mem_append, List.mem_filterMap, Option.mem_toList, List.mem_flatMap,
    List.mem_map, or_assoc]

end Programs

theorem Stages.sizeOf_lt_of_mem_programs {s : Stages Plan} {p : Program Plan} (h : p ∈ s.programs) :
    sizeOf p < sizeOf s := by
  obtain ⟨sources, joins, filter, outputs, columns, groupBy, aggregates, orderBy, distinct, limit,
    aggregated⟩ := s
  rw [Stages.mem_programs] at h
  dsimp only at h
  rcases h with ⟨⟨kind, condition⟩, hj, rfl⟩ | rfl | hp | hp | ⟨⟨target, arguments⟩, hslot, hp⟩ |
    ⟨⟨program, ascending⟩, hk, rfl⟩
  · have := List.sizeOf_lt_of_mem hj
    simp only [JoinStep.mk.sizeOf_spec, Option.some.sizeOf_spec, Stages.mk.sizeOf_spec] at this ⊢
    omega
  · simp only [Option.some.sizeOf_spec, Stages.mk.sizeOf_spec]
    omega
  · have := List.sizeOf_lt_of_mem hp
    simp only [Stages.mk.sizeOf_spec]
    omega
  · have := List.sizeOf_lt_of_mem hp
    simp only [Stages.mk.sizeOf_spec]
    omega
  · have := List.sizeOf_lt_of_mem hp
    have := List.sizeOf_lt_of_mem hslot
    dsimp only at *
    simp only [Slot.mk.sizeOf_spec, Stages.mk.sizeOf_spec] at this ⊢
    omega
  · have := List.sizeOf_lt_of_mem hk
    simp only [SortKey.mk.sizeOf_spec, Stages.mk.sizeOf_spec] at this ⊢
    omega

/-- Induction on plans: what holds of a plan when it holds of the plans of its sources and of those
that its programs run holds of every plan. -/
theorem Plan.induction {motive : Plan → Prop}
    (of : ∀ s : Stages Plan, (∀ q width, .query q width ∈ s.sources → motive q) →
      (∀ p ∈ s.programs, ∀ q ∈ p.queries, motive q) → motive (.of s)) : ∀ P, motive P
  | .of s => of s (fun q width _hq => Plan.induction of q) fun p _hp q _hq => Plan.induction of q
termination_by P => sizeOf P
decreasing_by
  · have := List.sizeOf_lt_of_mem _hq
    obtain ⟨sources, joins, filter, outputs, columns, groupBy, aggregates, orderBy, distinct, limit,
      aggregated⟩ := s
    simp only [Supply.query.sizeOf_spec, Plan.of.sizeOf_spec, Stages.mk.sizeOf_spec] at this ⊢
    omega
  · have hp := Stages.sizeOf_lt_of_mem_programs _hp
    have := List.sizeOf_lt_of_mem _hq
    obtain ⟨code, queries⟩ := p
    simp only [Program.mk.sizeOf_spec, Plan.of.sizeOf_spec] at hp this ⊢
    omega

/-! ### What a plan reads -/

/-- A column of the frame `level` statements further out, counted from 1. -/
structure OuterColumn where
  level : Nat
  source : Nat
  column : Nat

/-- The value of the column, if there is such a frame. -/
def OuterColumn.value? (r : OuterColumn) (frames : List Frame) : Option Value :=
  frames[r.level - 1]?.map (Frame.read · r.source r.column)

/-- The plan reads the column of a frame around it. -/
inductive Plan.Reads : Plan → OuterColumn → Prop
  | own {s : Stages Plan} {p : Program Plan} {l i j : Nat} (hp : p ∈ s.programs)
      (h : .outer l i j ∈ p.code) : Reads (.of s) ⟨l, i, j⟩
  /-- The plan of a source is run for the same frames. -/
  | source {s : Stages Plan} {q : Plan} {width : Nat} {r : OuterColumn}
      (hq : .query q width ∈ s.sources) (h : Reads q r) : Reads (.of s) r
  /-- A plan that is run for a value has the current rows as a frame of level 1. -/
  | value {s : Stages Plan} {p : Program Plan} {q : Plan} {l i j : Nat} (hp : p ∈ s.programs)
      (hq : q ∈ p.queries) (h : Reads q ⟨l + 2, i, j⟩) : Reads (.of s) ⟨l + 1, i, j⟩

/-- The frames have the same values in all columns that the plan reads. -/
def Plan.AgreeOn (P : Plan) (fs gs : List Frame) : Prop :=
  ∀ r, P.Reads r → r.value? gs = r.value? fs

section Agreement

variable {c : Catalog} {now : Date.Instant} {s : Stages Plan} {fs gs : List Frame}

theorem Plan.AgreeOn.source (h : (Plan.of s).AgreeOn fs gs) {q : Plan} {width : Nat}
    (hq : .query q width ∈ s.sources) : q.AgreeOn fs gs :=
  fun r hr => h r (.source hq hr)

/-- Below a plan the frames agree when its own current rows are added to both. -/
theorem Plan.AgreeOn.value (h : (Plan.of s).AgreeOn fs gs) {p : Program Plan} (hp : p ∈ s.programs)
    {q : Plan} (hq : q ∈ p.queries) (f : Frame) : q.AgreeOn (f :: fs) (f :: gs) := by
  rintro ⟨l, i, j⟩ hr
  match l, hr with
  | 0, _ | 1, _ => rfl
  | l + 2, hr => exact h _ (.value hp hq hr)

/-- A program of the plan does the same for both frames, when the plans that it runs do. -/
theorem Plan.AgreeOn.program (h : (Plan.of s).AgreeOn fs gs) {p : Program Plan}
    (hp : p ∈ s.programs)
    (hqueries : ∀ q ∈ p.queries, ∀ f : Frame,
      q.query c now (f :: gs) = q.query c now (f :: fs))
    {E : Env → Prop} (hE : ∀ env, E env → env.outer = fs) :
    Program.Alike E gs (p.withQueries c now) (p.withQueries c now) := by
  refine Program.alike rfl fun env henv => ?_
  obtain ⟨code, queries⟩ := p
  refine ⟨fun l i j hl => ?_, ?_⟩
  · rw [hE env henv]
    exact h ⟨l, i, j⟩ (.own hp hl)
  · rw [Program.withQueries, Plan.queryAll_eq_map, Query.SameAll, List.forall₂_same, hE env henv]
    intro query hquery
    obtain ⟨q, hq, rfl⟩ := List.mem_map.1 hquery
    exact hqueries q hq env.frame

theorem Supply.alike_queriesAll {supplies : List (Supply Plan)}
    (h : ∀ q width, .query q width ∈ supplies → q.query c now gs = q.query c now fs) :
    List.Forall₂ (Supply.Alike fs gs) (Supply.queriesAll c now supplies)
      (Supply.queriesAll c now supplies) := by
  induction supplies with
  | nil => exact .nil
  | cons supply supplies ih =>
    have hrest := ih fun q width hq => h q width (List.mem_cons_of_mem _ hq)
    cases supply with
    | table id width => exact .cons (.table id width) hrest
    | query q width => exact .cons (.query (h q width List.mem_cons_self) width) hrest

/-- The stages of a plan do the same for both frames, when the plans that its programs run do. -/
theorem Plan.AgreeOn.stages (h : (Plan.of s).AgreeOn fs gs)
    (hqueries : ∀ p ∈ s.programs, ∀ q ∈ p.queries, ∀ f : Frame,
      q.query c now (f :: gs) = q.query c now (f :: fs))
    {here : Setting} (hhere : here.outer = fs) :
    (Stages.queries c now s).Alike here gs (Stages.queries c now s) := by
  have hprogram : ∀ (clause : Clause), ∀ p ∈ s.programs,
      Program.Alike (here.Runs clause) gs (p.withQueries c now) (p.withQueries c now) :=
    fun clause p hp => h.program hp (hqueries p hp) fun env henv => henv.reads.outer.trans hhere
  have hoption : ∀ (clause : Clause) (p : Option (Program Plan)),
      (∀ q, p = some q → q ∈ s.programs) →
      Option.Rel (Program.Alike (here.Runs clause) gs) (p.map (Program.withQueries c now))
        (p.map (Program.withQueries c now)) := by
    intro clause p hp
    cases p with
    | none => exact .none
    | some p => exact .some (hprogram clause p (hp p rfl))
  have hprograms : ∀ (clause : Clause) (ps : List (Program Plan)), (∀ p ∈ ps, p ∈ s.programs) →
      List.Forall₂ (Program.Alike (here.Runs clause) gs) (ps.map (Program.withQueries c now))
        (ps.map (Program.withQueries c now)) := by
    intro clause ps hps
    refine List.forall₂_same.2 fun query hquery => ?_
    obtain ⟨p, hp, rfl⟩ := List.mem_map.1 hquery
    exact hprogram clause p (hps p hp)
  rw [Stages.queries_eq]
  exact
    { joins := List.forall₂_same.2 <| List.forall_mem_map.2 fun j hj =>
        ⟨rfl, hoption .on _ fun p hp => Stages.mem_programs.2 (.inl ⟨j, hj, hp⟩)⟩
      filter := hoption .filter _ fun p hp => Stages.mem_programs.2 (.inr (.inl hp))
      outputs := hprograms .output _ fun p hp => Stages.mem_programs.2 (.inr (.inr (.inl hp)))
      groupBy := hprograms .groupBy _ fun p hp =>
        Stages.mem_programs.2 (.inr (.inr (.inr (.inl hp))))
      aggregates := List.forall₂_same.2 <| List.forall_mem_map.2 fun slot hslot =>
        ⟨rfl, hprograms .argument _ fun p hp =>
          Stages.mem_programs.2 (.inr (.inr (.inr (.inr (.inl ⟨slot, hslot, hp⟩)))))⟩
      orderBy := List.forall₂_same.2 <| List.forall_mem_map.2 fun k hk =>
        ⟨rfl, hprogram .output _
          (Stages.mem_programs.2 (.inr (.inr (.inr (.inr (.inr ⟨k, hk, rfl⟩))))))⟩
      distinct := rfl
      limit := rfl
      aggregated := rfl }

/-- Frames that agree on the columns that a plan reads cannot be told apart by it. -/
theorem Plan.query_congr {P : Plan} : ∀ {fs gs : List Frame}, P.AgreeOn fs gs →
    P.query c now gs = P.query c now fs := by
  induction P using Plan.induction with
  | of s hsources hprograms =>
    intro fs gs h
    rw [Plan.query]
    have halike : List.Forall₂ (Supply.Alike fs gs) (Stages.queries c now s).sources
        (Stages.queries c now s).sources := by
      rw [Stages.queries_eq]
      exact Supply.alike_queriesAll fun q width hq => hsources q width hq (h.source hq)
    refine Stages.rows_congr halike fun here hhere => h.stages (fun p hp q hq f => ?_)
      (Stages.outer_of_setting hhere)
    exact hprograms p hp q hq (h.value hp hq f)

end Agreement

/-- **A plan depends only on what it reads.**  It has the same rows, or the same error, for all
frames that agree on the columns that it reads; one that reads none has the same result for all. -/
theorem Plan.query_eq_of_reads (c : Catalog) (now : Date.Instant) (P : Plan) :
    (∀ fs gs : List Frame, (∀ r, P.Reads r → r.value? fs = r.value? gs) →
      P.query c now fs = P.query c now gs) ∧
    ((∀ r, ¬ P.Reads r) → ∀ fs gs : List Frame, P.query c now fs = P.query c now gs) :=
  ⟨fun _ _ h => Plan.query_congr fun r hr => h r hr,
    fun h _ _ => Plan.query_congr fun r hr => absurd hr (h r)⟩

theorem Plan.reads_of_iff {s : Stages Plan} {r : OuterColumn} : (Plan.of s).Reads r ↔
    (∃ p ∈ s.programs, .outer r.level r.source r.column ∈ p.code) ∨
    (∃ q width, .query q width ∈ s.sources ∧ q.Reads r) ∨
    ∃ p ∈ s.programs, ∃ q ∈ p.queries, 0 < r.level ∧ q.Reads { r with level := r.level + 1 } := by
  constructor
  · rintro (⟨hp, h⟩ | ⟨hq, h⟩ | ⟨hp, hq, h⟩)
    · exact .inl ⟨_, hp, h⟩
    · exact .inr (.inl ⟨_, _, hq, h⟩)
    · exact .inr (.inr ⟨_, hp, _, hq, Nat.succ_pos _, h⟩)
  · obtain ⟨l, i, j⟩ := r
    rintro (⟨p, hp, h⟩ | ⟨q, width, hq, h⟩ | ⟨p, hp, q, hq, hlevel, h⟩)
    · exact .own hp h
    · exact .source hq h
    · obtain ⟨l, rfl⟩ := Nat.exists_eq_add_one.2 hlevel
      exact .value hp hq h

/-- The plan of `SELECT z.v FROM (SELECT x.a AS v) AS z WHERE (SELECT x.a) = z.v`
in a statement with the source `x`. -/
def Plan.correlated : Plan :=
  let column (level : Nat) : Plan :=
    .of ⟨[], [], none, [⟨[.outer level 0 0, .out], []⟩], [], [], [], [], false, none, false⟩
  .of ⟨[.query (column 1) 1], [], some ⟨[.select 0, .column 0 0, .operator .equal], [column 2]⟩,
    [⟨[.columnOut 0 0], []⟩], [⟨"v", .text⟩], [], [], [], false, none, false⟩

theorem Plan.reads_correlated {r : OuterColumn} (h : Plan.correlated.Reads r) : r = ⟨1, 0, 0⟩ := by
  obtain ⟨l, i, j⟩ := r
  have h : l = 1 ∧ i = 0 ∧ j = 0 ∨ 0 < l ∧ l = 1 ∧ i = 0 ∧ j = 0 := by
    simpa [correlated, reads_of_iff, Stages.programs] using h
  rw [OuterColumn.mk.injEq]
  omega

theorem Plan.correlated_query_eq :
    (∀ r, Plan.correlated.Reads r →
      r.value? [[some [.text "hello", .boolean true]]] =
        r.value? [[some [.text "hello", .null]], []]) ∧
    Plan.correlated.query (.named "main") ⟨0, 0⟩ [[some [.text "hello", .boolean true]]] =
      Plan.correlated.query (.named "main") ⟨0, 0⟩ [[some [.text "hello", .null]], []] ∧
    Plan.correlated.query (.named "main") ⟨0, 0⟩ [[some [.text "hello", .boolean true]]] =
      .ok [⟨0, [.text "hello"]⟩] := by
  have hagree : ∀ r, Plan.correlated.Reads r →
      r.value? [[some [.text "hello", .boolean true]]] =
        r.value? [[some [.text "hello", .null]], []] := by
    intro r hr
    rw [Plan.reads_correlated hr]
    rfl
  exact ⟨hagree, (Plan.query_eq_of_reads (.named "main") ⟨0, 0⟩ .correlated).1 _ _ hagree, by cbv⟩

end SqlEngine

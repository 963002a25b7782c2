import SqlEngine.Proofs.Database.Typing
import SqlEngine.Proofs.Plan.Environments
import SqlEngine.Proofs.Resolution.Binding

/-!
# Databases — references read the columns that they name

An *activation* is a statement at a point of its run: its sources, as references see them and with
their rows, and the environment that its code is run in.  A nested SELECT is run under the
activations of the statements around it, the innermost first (`Statement.Runs`): a value under that
of the statement it stands in, a source under those around this statement only.  The scopes that
references were bound in and the activations that code is run under go together, so what a reference
reads is the column that it was bound to.

* `Statement.Runs.bound`: what is run sees the scopes of the activations that it is run under.
* `ColumnRef.Located.reads`: a reference reads its column, in the activation at its level.
* `Statement.reads_bound_columns`: both for all of a statement that was read and resolved.
-/

namespace SqlEngine

variable {c : Catalog} {now : Date.Instant}

/-! ### Activations -/

/-- A statement at a point of its run: its sources, the providers of their rows, and the environment
of its code. -/
structure Activation where
  scope : Scope
  providers : List Provider
  env : Env

namespace Activation

/-- The current rows of the activations, as a nested query gets them. -/
def frames (σ : List Activation) : List Frame :=
  σ.map fun a => a.env.frame

/-- The activation has the sources and is run under the others, with every source on a row of its
own or on the row of NULLs. -/
structure Of (c : Catalog) (now : Date.Instant) (σ : List Activation) (scope : Scope)
    (provide : List Provider → Prop) (a : Activation) : Prop where
  scope : a.scope = scope
  providers : provide a.providers
  reads : (Setting.mk c (frames σ) a.providers now).Reads a.env

/-- The reference is bound to a column of the activation that has its name and its type, and whose
source is at the position. -/
def Has (a : Activation) (r : ColumnRef) (b : Binding) (position : Position) : Prop :=
  ∃ source column provider, a.scope[b.source]? = some source ∧
    source.columns[b.column]? = some column ∧ Text.sameName column.name r.column = true ∧
    column.type = r.type ∧ a.providers[b.source]? = some provider ∧
    a.env.positions[b.source]? = some position ∧ position.On provider

end Activation

open Activation (frames)

/-- The rows of a source: those of its table, or those of its SELECT, which is run for the frames
around the statement. -/
inductive Source.Provides (c : Catalog) (now : Date.Instant) (outer : List Frame) :
    Source → Provider → Prop
  | table {name : String} {aliasName : Option String} {id offset : Nat} {p : Provider}
      (h : c.provider? id = some p) :
      Provides c now outer (.table name aliasName (some id) offset) p
  | select {s : Select} {aliasName : Option String} {offset : Nat} {plan : Plan}
      {rows : List OutputRow} (hplan : s.compile c = .ok plan)
      (hrows : plan.query c now outer = .ok rows) :
      Provides c now outer (.select s aliasName offset)
        (.memory (.ofRows plan.stages.columns.length (rows.map OutputRow.values)))

/-- An activation of the SELECT under the others. -/
def Select.Activates (c : Catalog) (now : Date.Instant) (σ : List Activation) (s : Select) :
    Activation → Prop :=
  Activation.Of c now σ (s.sources.map (Source.scopeSource c))
    (List.Forall₂ (Source.Provides c now (frames σ)) s.sources)

/-- An activation of an UPDATE or DELETE, which has its table as the one source. -/
def Table.Activates (c : Catalog) (now : Date.Instant) (id : Nat) (t : Table) : Activation → Prop :=
  Activation.Of c now [] t.scope fun ps => ∃ p, c.provider? id = some p ∧ ps = [p]

/-- An activation for the values of an INSERT, which has no sources. -/
def Insert.Activates (c : Catalog) (now : Date.Instant) : Activation → Prop :=
  Activation.Of c now [] [] (· = [])

/-- What is run: a SELECT with all its stages, or an expression. -/
inductive Task
  | select (s : Select)
  | expr (e : Expr)

/-- What is run when the statement is, and the activations that it is run under, those of an
expression's own statement first. -/
inductive Statement.Runs (c : Catalog) (now : Date.Instant) (S : Statement) :
    Task → List Activation → Prop
  | statement {s : Select} (hS : S = .select s) : Runs c now S (.select s) []
  | source {s q : Select} {aliasName : Option String} {offset : Nat} {σ : List Activation}
      (h : Runs c now S (.select s) σ) (hq : .select q aliasName offset ∈ s.sources) :
      Runs c now S (.select q) σ
  | clause {s : Select} {e : Expr} {a : Activation} {σ : List Activation}
      (h : Runs c now S (.select s) σ) (ha : s.Activates c now σ a) (he : e ∈ s.clauses) :
      Runs c now S (.expr e) (a :: σ)
  | argument {e arg : Expr} {f : Call} {σ : List Activation} (h : Runs c now S (.expr e) σ)
      (hf : .call f ∈ e.nodes) (harg : arg ∈ f.arguments) : Runs c now S (.expr arg) σ
  | value {e : Expr} {q : Select} {σ : List Activation} (h : Runs c now S (.expr e) σ)
      (hq : .select q ∈ e.nodes) : Runs c now S (.select q) σ
  | inserted {s : Insert} {row : List Expr} {e : Expr} {a : Activation} (hS : S = .insert s)
      (hrow : row ∈ s.rows) (he : e ∈ row) (ha : Insert.Activates c now a) :
      Runs c now S (.expr e) [a]
  | updated {s : Update} {id : Nat} {t : Table} {e : Expr} {a : Activation} (hS : S = .update s)
      (hid : s.id = some id) (ht : c.tables[id]? = some t) (ha : t.Activates c now id a)
      (he : e ∈ s.assignments.map Assignment.value ++ s.filter.toList) : Runs c now S (.expr e) [a]
  | deleted {s : Delete} {id : Nat} {t : Table} {e : Expr} {a : Activation} (hS : S = .delete s)
      (hid : s.id = some id) (ht : c.tables[id]? = some t) (ha : t.Activates c now id a)
      (he : s.filter = some e) : Runs c now S (.expr e) [a]

/-! ### Scopes and activations go together -/

/-- Every activation is run under those after it, and has a provider for each source. -/
inductive Chained (c : Catalog) (now : Date.Instant) : List Activation → Prop
  | nil : Chained c now []
  | cons {a : Activation} {σ : List Activation} (h : Chained c now σ)
      (hreads : (Setting.mk c (frames σ) a.providers now).Reads a.env)
      (hwidth : a.providers.length = a.scope.length) : Chained c now (a :: σ)

/-- The scope is that of the activation, maybe without the last sources. -/
def Scope.Of (scope : Scope) (a : Activation) : Prop :=
  scope <+: a.scope

/-- What is run was bound in the scopes. -/
def Task.Bound (c : Catalog) (scopes : List Scope) : Task → Prop
  | .select s => ∃ written : Select, written.Binds c scopes s
  | .expr e   => e.Bound c scopes

theorem Expr.Bound.argument {scopes : List Scope} {e arg : Expr} {f : Call} (h : e.Bound c scopes)
    (hf : .call f ∈ e.nodes) (harg : arg ∈ f.arguments) : arg.Bound c scopes := by
  rcases h with ⟨written, hbinds⟩ | ⟨r, hnodes, -⟩
  · obtain ⟨nodes, _, _, _, _, _, _⟩ := written
    obtain ⟨n, hn⟩ := Node.exists_of_bindsAll hbinds hf
    exact .inl (Node.binds_call hn harg)
  · rw [hnodes] at hf
    cases List.mem_singleton.1 hf

theorem Expr.Bound.select {scopes : List Scope} {e : Expr} {s : Select} (h : e.Bound c scopes)
    (hs : .select s ∈ e.nodes) : ∃ written : Select, written.Binds c scopes s := by
  rcases h with ⟨written, hbinds⟩ | ⟨r, hnodes, -⟩
  · obtain ⟨nodes, _, _, _, _, _, _⟩ := written
    obtain ⟨n, hn⟩ := Node.exists_of_bindsAll hbinds hs
    exact Node.binds_select hn
  · rw [hnodes] at hs
    cases List.mem_singleton.1 hs

theorem Select.Activates.chained {s : Select} {a : Activation} {σ : List Activation}
    (h : s.Activates c now σ a) (hσ : Chained c now σ) : Chained c now (a :: σ) := by
  refine .cons hσ h.reads ?_
  rw [h.scope, List.length_map, h.providers.length_eq]

theorem Insert.Activates.chained {a : Activation} (h : Insert.Activates c now a) :
    Chained c now [a] :=
  .cons .nil h.reads (by rw [h.scope, h.providers]; rfl)

theorem Table.Activates.chained {id : Nat} {t : Table} {a : Activation}
    (h : t.Activates c now id a) : Chained c now [a] := by
  obtain ⟨p, -, hp⟩ := h.providers
  exact .cons .nil h.reads (by rw [h.scope, hp]; rfl)

/-- The expressions of an UPDATE or DELETE see the columns of its table. -/
theorem Table.Activates.of {id : Nat} {t : Table} {a : Activation} (h : t.Activates c now id a) :
    List.Forall₂ Scope.Of [t.scope] [a] :=
  .cons (h.scope ▸ List.prefix_rfl) .nil

/-- **What is run sees the scopes of the activations that it is run under.** -/
theorem Statement.Runs.bound {S S' : Statement} (hS : S.Binds c S') {task : Task}
    {σ : List Activation} (h : S'.Runs c now task σ) :
    Chained c now σ ∧ ∃ scopes, task.Bound c scopes ∧ List.Forall₂ Scope.Of scopes σ := by
  induction h with
  | statement hS' =>
    subst hS'
    exact ⟨.nil, [], hS.select, .nil⟩
  | source _ hq ih =>
    obtain ⟨hσ, outer, ⟨written, hbinds⟩, hof⟩ := ih
    obtain ⟨source, hsource⟩ := hbinds.source hq
    cases source with
    | table => cases hsource
    | select q _ _ => exact ⟨hσ, outer, ⟨q, hsource.2⟩, hof⟩
  | clause _ ha he ih =>
    obtain ⟨hσ, outer, ⟨written, hbinds⟩, hof⟩ := ih
    obtain ⟨visible, hvisible, hbound⟩ := hbinds.clause he
    refine ⟨ha.chained hσ, visible :: outer, hbound, .cons ?_ hof⟩
    rw [Scope.Of, ha.scope]
    exact hvisible
  | argument _ hf harg ih =>
    obtain ⟨hσ, scopes, hbound, hof⟩ := ih
    exact ⟨hσ, scopes, hbound.argument hf harg, hof⟩
  | value _ hq ih =>
    obtain ⟨hσ, scopes, hbound, hof⟩ := ih
    exact ⟨hσ, scopes, hbound.select hq, hof⟩
  | inserted hS' hrow he ha =>
    subst hS'
    exact ⟨ha.chained, [[]], hS.insert hrow he, .cons List.nil_prefix .nil⟩
  | @updated s id t e a hS' hid ht ha he =>
    subst hS'
    exact ⟨ha.chained, [t.scope], hS.update hid ht he, ha.of⟩
  | @deleted s id t e a hS' hid ht ha he =>
    subst hS'
    exact ⟨ha.chained, [t.scope], hS.delete hid ht he, ha.of⟩

/-! ### Reading a reference -/

/-- In the first of the activations the code of the reference gives the column that it is bound to,
of the current row of its source in the activation at its level; on the row of NULLs this is NULL.
Code that writes a column of the statement itself to the output row writes the same. -/
def ColumnRef.ReadsIn (σ : List Activation) (r : ColumnRef) : Prop :=
  ∃ here b a position, σ.head? = some here ∧ r.binding = some b ∧ σ[r.level]? = some a ∧
    a.Has r b position ∧
    (∃ i, r.instr = .ok i ∧ ∀ (queries : List Query) (m : Machine),
      i.step here.env queries m = .ok (m.push (position.read b.column))) ∧
    (r.level = 0 → ∃ i, r.outInstr = .ok i ∧ ∀ (queries : List Query) (m : Machine),
      i.step here.env queries m = m.write (position.read b.column))

theorem Chained.getElem? {σ : List Activation} (h : Chained c now σ) : ∀ {n : Nat} {a : Activation},
    σ[n]? = some a → a.providers.length = a.scope.length ∧
      List.Forall₂ Position.On a.env.positions a.providers := by
  induction h with
  | nil => nofun
  | cons _ hreads hwidth ih =>
    intro n a ha
    cases n with
    | zero =>
      obtain rfl := Option.some.inj ha
      exact ⟨hwidth, hreads.positions⟩
    | succ n => exact ih ha

/-- What a frame reads is the column of the current row. -/
theorem Env.read_frame {env : Env} {i : Nat} {position : Position}
    (h : env.positions[i]? = some position) (j : Nat) : env.frame.read i j = position.read j := by
  simp only [Frame.read, Env.frame, List.getElem?_map, h, Option.map_some]
  cases position with
  | none => rfl
  | some entry => rfl

/-- A bound reference names a column of the activation at its level. -/
theorem ColumnRef.Located.has {scopes : List Scope} {σ : List Activation} {r : ColumnRef}
    (hr : r.Located scopes) (hof : List.Forall₂ Scope.Of scopes σ) (hσ : Chained c now σ) :
    ∃ b a position, r.binding = some b ∧ σ[r.level]? = some a ∧ a.Has r b position := by
  obtain ⟨b, scope, source, column, hb, hscope, hsource, hcolumn, hname, htype⟩ := hr
  obtain ⟨a, ha, hprefix⟩ := forall₂_getElem? hof.flip hscope
  obtain ⟨hwidth, hon⟩ := hσ.getElem? ha
  have hsource' : a.scope[b.source]? = some source := getElem?_of_le hprefix hsource
  obtain ⟨hlt, -⟩ := List.getElem?_eq_some_iff.1 hsource'
  have hprovider := List.getElem?_eq_getElem (hwidth ▸ hlt)
  obtain ⟨position, hposition, hrow⟩ := forall₂_getElem? hon hprovider
  exact ⟨b, a, position, hb, ha, source, column, _, hsource', hcolumn, hname, htype, hprovider,
    hposition, hrow⟩

/-- **A reference reads its column**, in the activation at its level. -/
theorem ColumnRef.Located.reads {scopes : List Scope} {here : Activation} {σ : List Activation}
    {r : ColumnRef} (hr : r.Located scopes) (hof : List.Forall₂ Scope.Of scopes (here :: σ))
    (hσ : Chained c now (here :: σ)) : r.ReadsIn (here :: σ) := by
  obtain ⟨b, a, position, hb, ha, hhas⟩ := hr.has hof hσ
  obtain ⟨-, -, -, -, -, -, -, -, hposition, -⟩ := id hhas
  refine ⟨here, b, a, position, rfl, hb, ha, hhas, ?_, fun hlevel => ?_⟩
  · simp only [ColumnRef.instr, ColumnRef.expectBinding, hb, ok_bind]
    refine ⟨_, rfl, fun queries m => ?_⟩
    -- the statement itself is read from its positions, the others from the frames around it
    cases hlevel : r.level with
    | zero =>
      rw [hlevel] at ha
      obtain rfl := Option.some.inj ha
      simp only [BEq.rfl, if_true, Instr.step, hposition, Option.map_some, Machine.pushOr]
    | succ n =>
      rw [hlevel] at ha
      cases hσ with
      | cons _ hreads _ =>
        have hframe : here.env.frame? (n + 1) = some a.env.frame := by
          rw [Env.frame?, hreads.outer, frames, Nat.add_sub_cancel, List.getElem?_map]
          rw [show σ[n]? = some a from ha]
          rfl
        simp [Instr.step, hframe, Machine.pushOr, Env.read_frame hposition]
  · rw [hlevel] at ha
    obtain rfl := Option.some.inj ha
    refine ⟨.columnOut b.source b.column, ?_, fun queries m => ?_⟩
    · simp only [ColumnRef.outInstr, ColumnRef.expectBinding, hb, ok_bind]
    · simp only [Instr.step, hposition]

/-! ### Code is run in activations -/

/-- The providers of a setting are those of the sources. -/
theorem Source.provides_of_supplies {sources : List Source} {supplies : List (Supply Plan)}
    {outer : List Frame} (h : List.Forall₂ (Source.Supplies c) sources supplies) :
    ∀ {tables : List (Supply MemoryTable)} {providers : List Provider},
    (Supply.queriesAll c now supplies).mapM (Supply.materialize outer) = .ok tables →
    tables.mapM (Supply.provider c) = .ok providers →
    List.Forall₂ (Source.Provides c now outer) sources providers := by
  induction h with
  | nil =>
    intro tables providers htables hproviders
    obtain rfl := Except.ok.inj htables
    obtain rfl := Except.ok.inj hproviders
    exact .nil
  | @cons source supply sources supplies hsupply _ ih =>
    intro tables providers htables hproviders
    cases hsupply with
    | table h =>
      simp only [Supply.queriesAll, List.mapM_cons, Supply.materialize, ok_bind,
        bind_eq_ok_iff] at htables
      obtain ⟨rest, hrest, htables⟩ := htables
      obtain rfl := Except.ok.inj htables
      simp only [List.mapM_cons, bind_eq_ok_iff] at hproviders
      obtain ⟨p, hp, more, hmore, hproviders⟩ := hproviders
      obtain rfl := Except.ok.inj hproviders
      refine .cons ?_ (ih hrest hmore)
      simp only [Supply.provider] at hp
      split at hp
      next found hfound =>
        obtain rfl := Except.ok.inj hp
        exact .table hfound
      next => cases hp
    | @select s aliasName offset plan hplan =>
      simp only [Supply.queriesAll, List.mapM_cons, Supply.materialize, bind_eq_ok_iff] at htables
      obtain ⟨table, ⟨rows, hrows, htable⟩, rest, hrest, htables⟩ := htables
      obtain rfl := Except.ok.inj htable
      obtain rfl := Except.ok.inj htables
      simp only [List.mapM_cons, Supply.provider, ok_bind, bind_eq_ok_iff] at hproviders
      obtain ⟨more, hmore, hproviders⟩ := hproviders
      obtain rfl := Except.ok.inj hproviders
      exact .cons (.select hplan hrows) (ih hrest hmore)

/-- Every environment of a compiled SELECT is that of an activation of it. -/
theorem Select.exists_activation {s : Select} {stages : Stages Plan} {σ : List Activation}
    (hplan : s.compile c = .ok (.of stages)) {here : Setting}
    (hhere : (Stages.queries c now stages).setting c now (frames σ) = .ok here) {env : Env}
    (henv : here.Reads env) : ∃ a, s.Activates c now σ a ∧ a.env = env := by
  obtain ⟨stages', heq, hcompiles⟩ := Select.compile_eq_ok hplan
  obtain rfl := Plan.of.inj heq
  simp only [Stages.setting, Stages.queries_eq, bind_eq_ok_iff] at hhere
  obtain ⟨tables, htables, providers, hproviders, hhere⟩ := hhere
  obtain rfl := Except.ok.inj hhere
  exact ⟨⟨_, providers, env⟩, ⟨rfl, Source.provides_of_supplies hcompiles.supplies htables
    hproviders, henv⟩, rfl⟩

/-- Programs that are replaced by others which do the same in the activation. -/
def Activation.Keeps (a : Activation) (f : Program Query → Program Query) : Prop :=
  ∀ p : Program Query, (f p).value a.env = p.value a.env ∧
    ∀ row, (f p).write a.env row = p.write a.env row

/-- Code is run in activations only, and nested queries under them: what programs and queries do
elsewhere may be replaced. -/
structure Activation.Complete (c : Catalog) (now : Date.Instant) : Prop where
  /-- A SELECT runs its code in its activations, and its sources under the same ones as itself. -/
  select : ∀ (s : Select) (stages : Stages Plan) (σ : List Activation)
    (f : Program Query → Program Query) (g : Query → Query), s.compile c = .ok (.of stages) →
    (∀ a, s.Activates c now σ a → a.Keeps f) →
    (∀ query : Query, g query (frames σ) = query (frames σ)) →
    ((Stages.queries c now stages).map f g).rows c now (frames σ) =
      (Plan.of stages).query c now (frames σ)
  /-- A program runs its nested queries under its own activation and those around it. -/
  nested : ∀ (a : Activation) (σ : List Activation) (g : Query → Query), Chained c now (a :: σ) →
    (∀ query : Query, g query (frames (a :: σ)) = query (frames (a :: σ))) →
    a.Keeps (Program.mapQueries g)
  /-- The rows of a table that an UPDATE or DELETE changes are seen in its activations. -/
  table : ∀ (id : Nat) (t : Table) (p : Provider) (env : Env),
    c.expectProvider id t.name = .ok p → (Setting.mk c [] [p] now).Reads env →
    ∃ a, t.Activates c now id a ∧ a.env = env
  /-- The values of an INSERT are taken in an activation without sources. -/
  insert : ∃ a, Insert.Activates c now a ∧
    a.env = (Setting.mk c [] [] now).env [] 0 beforeFirst

/-- **Activations account for all that is run.** -/
theorem Activation.complete (c : Catalog) (now : Date.Instant) : Activation.Complete c now where
  select := by
    intro s stages σ f g hplan hf hg
    rw [Plan.query]
    refine Stages.rows_map hg fun here hhere => ⟨fun p env henv => ?_, fun p env henv => ?_⟩
    · obtain ⟨a, ha, rfl⟩ := Select.exists_activation hplan hhere henv
      exact (hf a ha p).1
    · obtain ⟨a, ha, rfl⟩ := Select.exists_activation hplan hhere henv
      exact (hf a ha p).2
  nested := by
    intro a σ g hσ hg p
    cases hσ with
    | cons _ hreads _ =>
      refine Program.mapQueries_eq (fun query => ?_) p
      rw [hreads.outer]
      exact hg query
  table := by
    intro id t p env hp henv
    simp only [Catalog.expectProvider] at hp
    split at hp
    next found hfound =>
      obtain rfl := Except.ok.inj hp
      exact ⟨⟨t.scope, [found], env⟩, ⟨rfl, ⟨found, hfound, rfl⟩, henv⟩, rfl⟩
    next => cases hp
  insert := ⟨⟨[], [], _⟩, ⟨rfl, rfl, Setting.reads_env .nil _ _⟩, rfl⟩

/-! ### Statements -/

/-- The reference was bound to a match in the innermost scope that has one, or it stands in the
place of a wildcard, for a column of the statement itself. -/
def ColumnRef.Bound (scopes : List Scope) (r : ColumnRef) : Prop :=
  (∃ written : ColumnRef, written.Binds scopes r) ∨ r.level = 0 ∧ r.Located scopes

theorem ColumnRef.Bound.located {scopes : List Scope} {r : ColumnRef} (h : r.Bound scopes) :
    r.Located scopes := by
  rcases h with ⟨written, hbinds⟩ | ⟨-, hlocated⟩
  · exact hbinds.located
  · exact hlocated

theorem Expr.Bound.column {scopes : List Scope} {e : Expr} {r : ColumnRef} (h : e.Bound c scopes)
    (hr : .column r ∈ e.nodes) : r.Bound scopes := by
  rcases h with ⟨written, hbinds⟩ | ⟨own, hnodes, hlevel, hlocated⟩
  · obtain ⟨nodes, _, _, _, _, _, _⟩ := written
    obtain ⟨n, hn⟩ := Node.exists_of_bindsAll hbinds hr
    exact .inl (Node.binds_column hn)
  · rw [hnodes] at hr
    obtain rfl := Node.column.inj (List.mem_singleton.1 hr)
    exact .inr ⟨hlevel, hlocated⟩

/-- An expression is run under the activation of its statement at least. -/
theorem Statement.Runs.exists_cons {S : Statement} {task : Task} {σ : List Activation}
    (h : S.Runs c now task σ) : ∀ e, task = .expr e → ∃ a rest, σ = a :: rest := by
  induction h with
  | statement | source | value => nofun
  | clause | inserted | updated | deleted => exact fun _ _ => ⟨_, _, rfl⟩
  | argument _ _ _ ih => exact fun _ _ => ih _ rfl

/-- **References read the columns that they were bound to.**  In a statement that was read and
resolved, each reference at any depth is bound in the innermost of the scopes that it sees with a
match for it.  Wherever an expression is run, these scopes are those of the activations around it,
and what a reference reads there is its column, in the activation at its level.  All code is run in
activations. -/
theorem Statement.reads_bound_columns {o : ParserOptions} {text : String} {S S' : Statement}
    (hparse : Statement.parse o text = .ok S) (hresolve : S.resolve c = .ok S')
    (now : Date.Instant) :
    S.Binds c S' ∧
      (∀ e σ, S'.Runs c now (.expr e) σ → ∃ scopes, List.Forall₂ Scope.Of scopes σ ∧
        ∀ r, .column r ∈ e.nodes → r.Bound scopes ∧ r.ReadsIn σ) ∧
      Activation.Complete c now := by
  have hbinds := Statement.resolve_binds (Statement.parse_formed hparse) hresolve
  refine ⟨hbinds, fun e σ hruns => ?_, Activation.complete c now⟩
  obtain ⟨hσ, scopes, hbound, hof⟩ := hruns.bound hbinds
  obtain ⟨here, rest, rfl⟩ := hruns.exists_cons e rfl
  refine ⟨scopes, hof, fun r hr => ?_⟩
  have hr := Expr.Bound.column hbound hr
  exact ⟨hr, hr.located.reads hof hσ⟩

/-- The sub-select, when the first output is nothing else. -/
def Select.nested? (s : Select) : Option Select :=
  match s.output.map Expr.nodes with
  | [.select q] :: _ => some q
  | _                => none

theorem Select.exists_of_nested? {s q : Select} (h : s.nested? = some q) :
    ∃ e ∈ s.clauses, .select q ∈ e.nodes := by
  simp only [nested?] at h
  split at h
  next q' rest hq =>
    obtain rfl := Option.some.inj h
    obtain ⟨e, es, houtput, hnodes, -⟩ := List.map_eq_cons_iff.1 hq
    refine ⟨e, ?_, hnodes ▸ List.mem_singleton_self _⟩
    simp [Select.clauses, houtput]
  next => cases h

namespace Database

/-- A column that is read two statements further in. -/
def outerRead : String :=
  "SELECT (SELECT (SELECT x.a)) FROM t AS x"

/-- An activation of a statement without sources. -/
def bare (σ : List Activation) : Activation :=
  ⟨[], [], (Setting.mk greetings.catalog (frames σ) [] ⟨0, 0⟩).env [] 0 beforeFirst⟩

theorem activates_bare {s : Select} (hs : s.sources = []) (σ : List Activation) :
    s.Activates greetings.catalog ⟨0, 0⟩ σ (bare σ) :=
  ⟨by rw [hs]; rfl, by rw [hs]; exact .nil, Setting.reads_env .nil _ _⟩

/-- An activation of a statement from the one table, on its one row. -/
def onRow (s : Select) : Activation :=
  let provider := Provider.memory ⟨[(0, [.text "hello", .boolean true])], 2, 1⟩
  ⟨s.sources.map (Source.scopeSource greetings.catalog), [provider],
    (Setting.mk greetings.catalog [] [provider] ⟨0, 0⟩).env
      [some (0, [.text "hello", .boolean true])] 1 0⟩

theorem activates_onRow {s : Select} {name : String} {aliasName : Option String} {offset : Nat}
    (hs : s.sources = [.table name aliasName (some 0) offset]) :
    s.Activates greetings.catalog ⟨0, 0⟩ [] (onRow s) := by
  refine ⟨rfl, by rw [hs]; exact .cons (.table rfl) .nil, Setting.reads_env (.cons ?_ .nil) _ _⟩
  rintro _ _ ⟨⟩
  rfl

/-- The statement is from the one table, and its output is its first column as it is read two
statements further in, where there are no sources. -/
def passesIn (s : Select) : Bool :=
  (match s.sources with
    | [.table _ _ (some 0) _] => true
    | _                       => false) &&
  s.nested?.any fun q => q.sources.isEmpty && q.nested?.any fun q =>
    q.sources.isEmpty && q.output.any fun e => e.column?.any fun r =>
      r.level == 2 && r.binding == some ⟨0, 0⟩

theorem outerRead_reads :
    ∃ (s : Select) (e : Expr) (r : ColumnRef) (σ : List Activation),
      greetings.prepare outerRead = .ok (.select s) ∧
      (Statement.select s).Runs greetings.catalog ⟨0, 0⟩ (.expr e) σ ∧ σ.length = 3 ∧
      .column r ∈ e.nodes ∧ r.level = 2 ∧ ∃ here i, σ.head? = some here ∧ r.instr = .ok i ∧
        ∀ (queries : List Query) (m : Machine),
          i.step here.env queries m = .ok (m.push (.text "hello")) := by
  have hselect : greetings.isSelect outerRead passesIn = true := by cbv
  obtain ⟨s, hs, hpasses⟩ := exists_of_isSelect hselect
  simp only [passesIn, Bool.and_eq_true, Option.any_eq_true, List.any_eq_true, List.isEmpty_iff,
    beq_iff_eq] at hpasses
  obtain ⟨hfrom, q, hq, hqNone, q', hq', hqNone', e, he, r, hr, hlevel, hbinding⟩ := hpasses
  split at hfrom
  next name aliasName offset hsources =>
    obtain ⟨S, hparse, hresolve⟩ := bind_eq_ok_iff.1 hs
    obtain ⟨-, hreads, -⟩ := Statement.reads_bound_columns hparse hresolve ⟨0, 0⟩
    obtain ⟨outer, houter, hvalue⟩ := Select.exists_of_nested? hq
    obtain ⟨inner, hinner, hvalue'⟩ := Select.exists_of_nested? hq'
    have hruns := Statement.Runs.clause (.value (.clause (.value (.clause (.statement rfl)
      (activates_onRow hsources) houter) hvalue) (activates_bare hqNone _) hinner) hvalue')
      (activates_bare hqNone' _) (show e ∈ q'.clauses by simp [Select.clauses, he])
    have hcolumn := Expr.mem_of_column? hr
    obtain ⟨scopes, -, hall⟩ := hreads e _ hruns
    obtain ⟨-, here, b, a, position, hhere, hb, ha, hhas, ⟨i, hi, hstep⟩, -⟩ := hall r hcolumn
    -- two statements further out is the one row of the table
    obtain rfl := Option.some.inj (hb.symm.trans hbinding)
    rw [hlevel] at ha
    obtain rfl := Option.some.inj ha
    obtain ⟨_, _, _, -, -, -, -, -, hposition, -⟩ := hhas
    obtain rfl := Option.some.inj hposition
    exact ⟨s, e, r, _, hs, hruns, rfl, hcolumn, hlevel, here, i, hhere, hi, hstep⟩
  next => cases hfrom

end Database
end SqlEngine

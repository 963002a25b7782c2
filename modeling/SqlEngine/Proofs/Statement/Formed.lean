import SqlEngine.Proofs.Statement.Everywhere

/-!
# Statements — what the parser reads

A SELECT is *formed* when it has joins only behind a first source, and aliases only for outputs that
are no wildcards; so it is for every SELECT in it (`Select.Formed`).  The columns of a CREATE TABLE
have known types.

* `Select.Everywhere.formed`: a SELECT of which every part has the right shape is formed.
* `Statement.parse_formed`: every statement that is read is formed.
-/

namespace SqlEngine

/-! ### Formed expressions -/

mutual

/-- Every SELECT in the expression is formed. -/
def Expr.Formed : Expr → Prop
  | ⟨nodes, _, _, _, _, _, _⟩ => Node.FormedAll nodes

def Node.Formed : Node → Prop
  | .call f   => f.Formed
  | .select s => s.Formed
  | _         => True

def Node.FormedAll : List Node → Prop
  | []      => True
  | n :: ns => n.Formed ∧ Node.FormedAll ns

def Call.Formed : Call → Prop
  | ⟨_, arguments, _, _, _, _⟩ => Expr.FormedAll arguments

def Expr.FormedAll : List Expr → Prop
  | []      => True
  | e :: es => e.Formed ∧ Expr.FormedAll es

def Expr.FormedOption : Option Expr → Prop
  | none   => True
  | some e => e.Formed

def Source.Formed : Source → Prop
  | .table ..      => True
  | .select s _ _  => s.Formed

def Source.FormedOption : Option Source → Prop
  | none   => True
  | some s => s.Formed

def Join.FormedAll : List Join → Prop
  | []                              => True
  | ⟨source, _, condition⟩ :: joins =>
    source.Formed ∧ Expr.FormedOption condition ∧ Join.FormedAll joins

def OrderKey.FormedAll : List OrderKey → Prop
  | []             => True
  | ⟨e, _⟩ :: keys => e.Formed ∧ OrderKey.FormedAll keys

/-- There are joins only behind a first source, and wildcards have no alias. -/
def Select.Formed : Select → Prop
  | ⟨_, _, output, origin, joins, filter, groupBy, orderBy, _, _⟩ =>
    Expr.FormedAll output ∧ (∀ e ∈ output, e.isWildcard = true → e.aliasName = none) ∧
      Source.FormedOption origin ∧ Join.FormedAll joins ∧ (origin = none → joins = []) ∧
      Expr.FormedOption filter ∧ Expr.FormedAll groupBy ∧ OrderKey.FormedAll orderBy

end

/-- The statement is formed, and the columns of a new table have known types. -/
def Statement.Formed : Statement → Prop
  | .select s => s.Formed
  | .insert s => ∀ row ∈ s.rows, Expr.FormedAll row
  | .update s => (∀ a ∈ s.assignments, a.value.Formed) ∧ Expr.FormedOption s.filter
  | .delete s => Expr.FormedOption s.filter
  | .create s => ∀ column ∈ s.columns, column.type ≠ .null

/-! ### What is read is formed -/

/-- The shape of a SELECT, its parts apart. -/
def Select.Shaped (s : Select) : Prop :=
  (∀ e ∈ s.output, e.isWildcard = true → e.aliasName = none) ∧ (s.origin = none → s.joins = [])

/-- Every SELECT has its shape. -/
def Local.shaped : Local :=
  ⟨fun _ => True, fun _ => True, Select.Shaped⟩

mutual

theorem Expr.Everywhere.formed : ∀ {e : Expr}, e.Everywhere .shaped → e.Formed
  | ⟨_, _, _, _, _, _, _⟩, ⟨_, hnodes⟩ => Node.EverywhereAll.formed hnodes

theorem Node.Everywhere.formed : ∀ {n : Node}, n.Everywhere .shaped → n.Formed
  | .call _, h   => Call.Everywhere.formed h
  | .select _, h => Select.Everywhere.formed h
  | .operator _, _ | .openParen, _ | .closeParen, _ | .number _, _ | .text _, _ | .boolean _, _
  | .null, _ | .column _, _ => trivial

theorem Node.EverywhereAll.formed : ∀ {ns : List Node},
    Node.EverywhereAll .shaped ns → Node.FormedAll ns
  | [], _     => trivial
  | _ :: _, h => ⟨Node.Everywhere.formed h.1, Node.EverywhereAll.formed h.2⟩

theorem Call.Everywhere.formed : ∀ {f : Call}, f.Everywhere .shaped → f.Formed
  | ⟨_, _, _, _, _, _⟩, ⟨_, harguments⟩ => Expr.EverywhereAll.formed harguments

theorem Expr.EverywhereAll.formed : ∀ {es : List Expr},
    Expr.EverywhereAll .shaped es → Expr.FormedAll es
  | [], _     => trivial
  | _ :: _, h => ⟨Expr.Everywhere.formed h.1, Expr.EverywhereAll.formed h.2⟩

theorem Expr.EverywhereOption.formed : ∀ {e : Option Expr},
    Expr.EverywhereOption .shaped e → Expr.FormedOption e
  | none, _   => trivial
  | some _, h => Expr.Everywhere.formed h

theorem Source.Everywhere.formed : ∀ {s : Source}, s.Everywhere .shaped → s.Formed
  | .table .., _      => trivial
  | .select _ _ _, h  => Select.Everywhere.formed h

theorem Source.EverywhereOption.formed : ∀ {s : Option Source},
    Source.EverywhereOption .shaped s → Source.FormedOption s
  | none, _   => trivial
  | some _, h => Source.Everywhere.formed h

theorem Join.EverywhereAll.formed : ∀ {js : List Join},
    Join.EverywhereAll .shaped js → Join.FormedAll js
  | [], _              => trivial
  | ⟨_, _, _⟩ :: _, ⟨hsource, hcondition, hjs⟩ =>
    ⟨Source.Everywhere.formed hsource, Expr.EverywhereOption.formed hcondition,
      Join.EverywhereAll.formed hjs⟩

theorem OrderKey.EverywhereAll.formed : ∀ {ks : List OrderKey},
    OrderKey.EverywhereAll .shaped ks → OrderKey.FormedAll ks
  | [], _          => trivial
  | ⟨_, _⟩ :: _, h => ⟨Expr.Everywhere.formed h.1, OrderKey.EverywhereAll.formed h.2⟩

theorem Select.Everywhere.formed : ∀ {s : Select}, s.Everywhere .shaped → s.Formed
  | ⟨_, _, _, _, _, _, _, _, _, _⟩,
      ⟨⟨hwildcards, hnone⟩, houtput, horigin, hjoins, hfilter, hgroup, horder⟩ =>
    ⟨Expr.EverywhereAll.formed houtput, hwildcards, Source.EverywhereOption.formed horigin,
      Join.EverywhereAll.formed hjoins, hnone, Expr.EverywhereOption.formed hfilter,
      Expr.EverywhereAll.formed hgroup, OrderKey.EverywhereAll.formed horder⟩

end

namespace Read

variable {o : ParserOptions}

/-- Wildcards have no alias. -/
theorem outputs_wildcard (depth : Nat) (ts : Tokens) {es : List Expr} {rest : ts.After}
    (h : outputs o depth ts = .ok (es, rest)) :
    ∀ e ∈ es, e.isWildcard = true → e.aliasName = none := by
  obtain ⟨e, afterFirst, he, rfl | ⟨more, afterComma, last, hmore, rfl⟩⟩ := outputs_cases h
  · exact fun e' he' => List.mem_singleton.1 he' ▸ (output_cases he).1
  · have hlt := afterComma.2
    exact List.forall_mem_cons.2
      ⟨(output_cases he).1, outputs_wildcard depth afterComma.1 hmore⟩
termination_by ts.length

/-- The readers ensure the shape of every SELECT. -/
theorem ensures_shaped (o : ParserOptions) : Ensures o .shaped where
  expression := fun _ => trivial
  output := fun _ => trivial
  call := fun _ _ => trivial
  select := by
    intro depth ts s rest h
    obtain ⟨⟨t, last, houtput⟩, horigin, -, -, -⟩ := select_clauses h
    refine ⟨outputs_wildcard depth t.1 houtput, fun hnone => ?_⟩
    rcases horigin with ⟨-, hjoins⟩ | ⟨q, hq, -⟩
    · exact hjoins
    · rw [hnone] at hq
      cases hq

/-! ### Statements -/

theorem ofName?_known {name : String} {t : DataType} (h : DataType.ofName? name = some t) :
    t ≠ .null := by
  simp only [DataType.ofName?] at h
  rintro rfl
  split at h <;> cases h

/-- The type of a column is never the unknown one. -/
theorem columnClause_known (ts : Tokens) (column : ColumnClause) (rest : ts.After)
    (h : columnClause ts = .ok (column, rest)) : column.type ≠ .null := by
  simp only [columnClause, bind_eq_ok_iff] at h
  obtain ⟨⟨name, afterName⟩, -, ⟨type, last⟩, htype, h⟩ := h
  obtain ⟨rfl, -⟩ := Prod.mk.inj (Except.ok.inj h)
  simp only [columnType, bind_eq_ok_iff] at htype
  obtain ⟨taken, -, htype⟩ := htype
  split at htype
  next type' rest' heq =>
    obtain ⟨rfl, -⟩ := Prod.mk.inj (Except.ok.inj htype)
    split at heq
    · exact ofName?_known heq
    · exact ofName?_known heq
    · cases heq
  next => cases htype

theorem create_formed {ts : Tokens} {s : Create} {rest : Tokens}
    (h : create ts = .ok (s, rest)) : (Statement.create s).Formed := by
  simp only [create, bind_eq_ok_iff] at h
  obtain ⟨t₁, -, t₂, -, ⟨table, t₃⟩, -, t₄, -, ⟨columns, t₅⟩, hcolumns, last, -, h⟩ := h
  obtain ⟨rfl, -⟩ := Prod.mk.inj (Except.ok.inj h)
  exact separated_forall columnClause_known t₄.1 hcolumns

/-- A CREATE TABLE is read as one. -/
theorem create_of_statement {ts : Tokens} {s : Create} {rest : Tokens}
    (h : statement o ts = .ok (.create s, rest)) : create ts = .ok (s, rest) := by
  simp only [statement] at h
  split at h
  · simp only [bind_eq_ok_iff] at h
    obtain ⟨q, -, h⟩ := h
    cases h
  · obtain ⟨q, -, h⟩ := map_eq_ok_iff.1 h
    cases h
  · obtain ⟨q, -, h⟩ := map_eq_ok_iff.1 h
    cases h
  · obtain ⟨q, -, h⟩ := map_eq_ok_iff.1 h
    cases h
  · obtain ⟨q, hq, h⟩ := map_eq_ok_iff.1 h
    cases h
    exact hq
  · cases h

end Read

/-- **Every statement that is read is formed.** -/
theorem Statement.parse_formed {o : ParserOptions} {text : String} {s : Statement}
    (h : Statement.parse o text = .ok s) : s.Formed := by
  have hshaped := Statement.parse_everywhere (Read.ensures_shaped o) h
  cases s with
  | select s => exact hshaped.formed
  | insert s => exact fun row hrow => (hshaped row hrow).formed
  | update s => exact ⟨fun a ha => (hshaped.1 a ha).formed, hshaped.2.formed⟩
  | delete s => exact Expr.EverywhereOption.formed hshaped
  | create s =>
    obtain ⟨rest, hs⟩ := Statement.exists_of_parse h
    exact Read.create_formed (Read.create_of_statement hs)

end SqlEngine

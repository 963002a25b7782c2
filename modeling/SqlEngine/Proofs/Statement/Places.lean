import SqlEngine.Proofs.Statement.Retelling
import SqlEngine.Proofs.Token.Places

/-!
# Statements — places

A text that stands further on is read as the same expression, with all its places further on
(`Expr.moved`); and where reading fails, it fails with the same error there.

* `Read.expression_moved`: an expression is read the same at another place.
* `Read.assignments_moved`: and so is the list of assignments of an UPDATE.
* `Statement.ofTokens_moved`: and so is a whole statement.
-/

namespace SqlEngine

variable {α β : Type} {d : Nat}

/-! ### The same statement at another place -/

def ColumnRef.moved (d : Nat) (r : ColumnRef) : ColumnRef :=
  { r with offset := r.offset + d }

mutual

/-- The expression of a text that stands `d` bytes further on. -/
def Expr.moved (d : Nat) : Expr → Expr
  | ⟨nodes, type, isBoolean, hasAggregate, source, aliasName, offset⟩ =>
    ⟨Node.movedAll d nodes, type, isBoolean, hasAggregate, source, aliasName, offset + d⟩

def Node.moved (d : Nat) : Node → Node
  | .column r => .column (r.moved d)
  | .call f   => .call (f.moved d)
  | .select s => .select (s.moved d)
  | n         => n

def Node.movedAll (d : Nat) : List Node → List Node
  | []      => []
  | n :: ns => n.moved d :: Node.movedAll d ns

def Call.moved (d : Nat) : Call → Call
  | ⟨function, arguments, target, type, isAggregate, offset⟩ =>
    ⟨function, Expr.movedAll d arguments, target, type, isAggregate, offset + d⟩

def Expr.movedAll (d : Nat) : List Expr → List Expr
  | []      => []
  | e :: es => e.moved d :: Expr.movedAll d es

def Expr.movedOption (d : Nat) : Option Expr → Option Expr
  | none   => none
  | some e => some (e.moved d)

def Source.moved (d : Nat) : Source → Source
  | .table name aliasName id offset => .table name aliasName id (offset + d)
  | .select s aliasName offset      => .select (s.moved d) aliasName (offset + d)

def Source.movedOption (d : Nat) : Option Source → Option Source
  | none   => none
  | some s => some (s.moved d)

def Join.movedAll (d : Nat) : List Join → List Join
  | []                             => []
  | ⟨source, kind, condition⟩ :: js =>
    ⟨source.moved d, kind, Expr.movedOption d condition⟩ :: Join.movedAll d js

def OrderKey.movedAll (d : Nat) : List OrderKey → List OrderKey
  | []                   => []
  | ⟨e, ascending⟩ :: ks => ⟨e.moved d, ascending⟩ :: OrderKey.movedAll d ks

/-- The SELECT of a text that stands `d` bytes further on. -/
def Select.moved (d : Nat) : Select → Select
  | ⟨text, distinct, output, origin, joins, filter, groupBy, orderBy, limit, offset⟩ =>
    ⟨text, distinct, Expr.movedAll d output, Source.movedOption d origin, Join.movedAll d joins,
      Expr.movedOption d filter, Expr.movedAll d groupBy, OrderKey.movedAll d orderBy, limit,
      offset + d⟩

end

def Assignment.moved (d : Nat) (a : Assignment) : Assignment :=
  { a with value := a.value.moved d, offset := a.offset + d }

def Insert.moved (d : Nat) (s : Insert) : Insert :=
  { s with rows := s.rows.map (Expr.movedAll d), offset := s.offset + d }

def Update.moved (d : Nat) (s : Update) : Update :=
  { s with
    assignments := s.assignments.map (Assignment.moved d)
    filter := Expr.movedOption d s.filter
    offset := s.offset + d }

def Delete.moved (d : Nat) (s : Delete) : Delete :=
  { s with filter := Expr.movedOption d s.filter, offset := s.offset + d }

def ColumnClause.moved (d : Nat) (c : ColumnClause) : ColumnClause :=
  { c with offset := c.offset + d }

def Create.moved (d : Nat) (s : Create) : Create :=
  { s with columns := s.columns.map (ColumnClause.moved d), offset := s.offset + d }

/-- The statement of a text that stands `d` bytes further on. -/
def Statement.moved (d : Nat) : Statement → Statement
  | .select s => .select (s.moved d)
  | .insert s => .insert (s.moved d)
  | .update s => .update (s.moved d)
  | .delete s => .delete (s.moved d)
  | .create s => .create (s.moved d)

/-! ### Further on, as a retelling -/

namespace Retelling

/-- All is told as it is. -/
def same : Retelling :=
  ⟨id, id⟩

/-- The places are told further on. -/
def shift (d : Nat) : Retelling :=
  ⟨(· + d), id⟩

end Retelling

mutual

theorem Expr.retold_same : ∀ e : Expr, e.retold .same = e
  | ⟨nodes, _, _, _, _, _, _⟩ => by
    simp only [Expr.retold, Node.retold_sameAll nodes]
    rfl

theorem Node.retold_same : ∀ n : Node, n.retold .same = n
  | .call f => by simp only [Node.retold, Call.retold_same f]
  | .select s => by simp only [Node.retold, Select.retold_same s]
  | .column _ | .operator _ | .openParen | .closeParen | .number _ | .text _ | .boolean _
  | .null => rfl

theorem Node.retold_sameAll : ∀ ns : List Node, Node.retoldAll .same ns = ns
  | [] => rfl
  | n :: ns => by
    simp only [Node.retoldAll, Node.retold_same n, Node.retold_sameAll ns]

theorem Call.retold_same : ∀ f : Call, f.retold .same = f
  | ⟨_, arguments, _, _, _, _⟩ => by
    simp only [Call.retold, Expr.retold_sameAll arguments]
    rfl

theorem Expr.retold_sameAll : ∀ es : List Expr, Expr.retoldAll .same es = es
  | [] => rfl
  | e :: es => by
    simp only [Expr.retoldAll, Expr.retold_same e, Expr.retold_sameAll es]

theorem Expr.retold_sameOption : ∀ e : Option Expr, Expr.retoldOption .same e = e
  | none => rfl
  | some e => by simp only [Expr.retoldOption, Expr.retold_same e]

theorem Source.retold_same : ∀ s : Source, s.retold .same = s
  | .table .. => rfl
  | .select s _ _ => by
    simp only [Source.retold, Select.retold_same s]
    rfl

theorem Source.retold_sameOption : ∀ s : Option Source, Source.retoldOption .same s = s
  | none => rfl
  | some s => by simp only [Source.retoldOption, Source.retold_same s]

theorem Join.retold_sameAll : ∀ js : List Join, Join.retoldAll .same js = js
  | [] => rfl
  | ⟨source, _, condition⟩ :: js => by
    simp only [Join.retoldAll, Source.retold_same source, Expr.retold_sameOption condition,
      Join.retold_sameAll js]

theorem OrderKey.retold_sameAll : ∀ ks : List OrderKey, OrderKey.retoldAll .same ks = ks
  | [] => rfl
  | ⟨e, _⟩ :: ks => by
    simp only [OrderKey.retoldAll, Expr.retold_same e, OrderKey.retold_sameAll ks]

theorem Select.retold_same : ∀ s : Select, s.retold .same = s
  | ⟨_, _, output, origin, joins, filter, groupBy, orderBy, _, _⟩ => by
    simp only [Select.retold, Expr.retold_sameAll output, Source.retold_sameOption origin,
      Join.retold_sameAll joins, Expr.retold_sameOption filter, Expr.retold_sameAll groupBy,
      OrderKey.retold_sameAll orderBy]
    rfl

end

mutual

theorem Expr.retold_shift (d : Nat) : ∀ e : Expr, e.retold (.shift d) = e.moved d
  | ⟨nodes, _, _, _, _, _, _⟩ => by
    simp only [Expr.retold, Expr.moved, Node.retold_shiftAll d nodes]
    rfl

theorem Node.retold_shift (d : Nat) : ∀ n : Node, n.retold (.shift d) = n.moved d
  | .call f => by simp only [Node.retold, Node.moved, Call.retold_shift d f]
  | .select s => by simp only [Node.retold, Node.moved, Select.retold_shift d s]
  | .column _ | .operator _ | .openParen | .closeParen | .number _ | .text _ | .boolean _
  | .null => rfl

theorem Node.retold_shiftAll (d : Nat) : ∀ ns : List Node,
    Node.retoldAll (.shift d) ns = Node.movedAll d ns
  | [] => rfl
  | n :: ns => by
    simp only [Node.retoldAll, Node.movedAll, Node.retold_shift d n, Node.retold_shiftAll d ns]

theorem Call.retold_shift (d : Nat) : ∀ f : Call, f.retold (.shift d) = f.moved d
  | ⟨_, arguments, _, _, _, _⟩ => by
    simp only [Call.retold, Call.moved, Expr.retold_shiftAll d arguments]
    rfl

theorem Expr.retold_shiftAll (d : Nat) : ∀ es : List Expr,
    Expr.retoldAll (.shift d) es = Expr.movedAll d es
  | [] => rfl
  | e :: es => by
    simp only [Expr.retoldAll, Expr.movedAll, Expr.retold_shift d e, Expr.retold_shiftAll d es]

theorem Expr.retold_shiftOption (d : Nat) : ∀ e : Option Expr,
    Expr.retoldOption (.shift d) e = Expr.movedOption d e
  | none => rfl
  | some e => by simp only [Expr.retoldOption, Expr.movedOption, Expr.retold_shift d e]

theorem Source.retold_shift (d : Nat) : ∀ s : Source, s.retold (.shift d) = s.moved d
  | .table .. => rfl
  | .select s _ _ => by
    simp only [Source.retold, Source.moved, Select.retold_shift d s]
    rfl

theorem Source.retold_shiftOption (d : Nat) : ∀ s : Option Source,
    Source.retoldOption (.shift d) s = Source.movedOption d s
  | none => rfl
  | some s => by simp only [Source.retoldOption, Source.movedOption, Source.retold_shift d s]

theorem Join.retold_shiftAll (d : Nat) : ∀ js : List Join,
    Join.retoldAll (.shift d) js = Join.movedAll d js
  | [] => rfl
  | ⟨source, _, condition⟩ :: js => by
    simp only [Join.retoldAll, Join.movedAll, Source.retold_shift d source,
      Expr.retold_shiftOption d condition, Join.retold_shiftAll d js]

theorem OrderKey.retold_shiftAll (d : Nat) : ∀ ks : List OrderKey,
    OrderKey.retoldAll (.shift d) ks = OrderKey.movedAll d ks
  | [] => rfl
  | ⟨e, _⟩ :: ks => by
    simp only [OrderKey.retoldAll, OrderKey.movedAll, Expr.retold_shift d e,
      OrderKey.retold_shiftAll d ks]

theorem Select.retold_shift (d : Nat) : ∀ s : Select, s.retold (.shift d) = s.moved d
  | ⟨_, _, output, origin, joins, filter, groupBy, orderBy, _, _⟩ => by
    simp only [Select.retold, Select.moved, Expr.retold_shiftAll d output,
      Source.retold_shiftOption d origin, Join.retold_shiftAll d joins,
      Expr.retold_shiftOption d filter, Expr.retold_shiftAll d groupBy,
      OrderKey.retold_shiftAll d orderBy]
    rfl

end

theorem Assignment.retold_same (a : Assignment) : a.retold .same = a := by
  simp only [Assignment.retold, Expr.retold_same]
  rfl

theorem Assignment.retold_shift (d : Nat) (a : Assignment) : a.retold (.shift d) = a.moved d := by
  simp only [Assignment.retold, Assignment.moved, Expr.retold_shift]
  rfl

theorem Statement.retold_same (s : Statement) : s.retold .same = s := by
  cases s with
  | select s => exact congrArg _ (Select.retold_same s)
  | insert s =>
    simp only [Statement.retold, Insert.retold, funext Expr.retold_sameAll, List.map_id']
    rfl
  | update s =>
    simp only [Statement.retold, Update.retold, funext Assignment.retold_same,
      Expr.retold_sameOption, List.map_id']
    rfl
  | delete s =>
    simp only [Statement.retold, Delete.retold, Expr.retold_sameOption]
    rfl
  | create s =>
    simp only [Statement.retold, Create.retold]
    rw [show ColumnClause.retold .same = id from rfl, List.map_id]
    rfl

theorem Statement.retold_shift (d : Nat) (s : Statement) : s.retold (.shift d) = s.moved d := by
  cases s with
  | select s => exact congrArg _ (Select.retold_shift d s)
  | insert s =>
    simp only [Statement.retold, Statement.moved, Insert.retold, Insert.moved,
      funext (Expr.retold_shiftAll d)]
    rfl
  | update s =>
    simp only [Statement.retold, Statement.moved, Update.retold, Update.moved,
      funext (Assignment.retold_shift d), Expr.retold_shiftOption]
    rfl
  | delete s =>
    simp only [Statement.retold, Statement.moved, Delete.retold, Delete.moved,
      Expr.retold_shiftOption]
    rfl
  | create s => rfl

/-- Tokens further on are told alike. -/
theorem Tokens.tell_moved (d : Nat) : Tell (.shift d) .same (fun _ => True) (Moved d) where
  fronts h := by
    cases h with
    | finish gap gap' start => exact .finish gap gap' rfl
    | broken fault offset => exact .broken trivial rfl
    | next start gap gap' spelling token rest =>
      exact .next gap gap' spelling spelling token rfl (moved_moved d rest) fun _ _ _ => trivial
  text h hrest := h.textUntil hrest
  star := rfl

theorem Told.apart {R : α → β → Prop} {x : Except Error α} {y : Except Error β}
    (h : Told (.shift d) .same (fun _ => True) R x y) : Apart d R x y := by
  cases h with
  | ok h => exact .ok h
  | error h =>
    cases h with
    | @lex fault _ offset offset' hplace =>
      obtain rfl : offset' = offset + d := hplace
      exact .error (.lex fault offset)
    | @parse fault near near' offset offset' hnear hplace =>
      obtain rfl : near' = near := hnear.elim id id
      obtain rfl : offset' = offset + d := hplace
      exact .error (.parse fault near' offset)

/-! ### Readers -/

namespace Read

variable {o : ParserOptions} {P P' : Tokens → Prop}

/-- Two readers: what the second one reads is what the first one reads, moved, and both leave the
same tokens. -/
abbrev Moved (d : Nat) (move : α → α) (x : Except Error (α × { rest // P rest }))
    (x' : Except Error (α × { rest // P' rest })) : Prop :=
  Apart d (fun a a' => a'.1 = move a.1 ∧ Tokens.Moved d a.2.1 a'.2.1) x x'

theorem Alike.moved {tell : Retelling → α → α} {move : α → α}
    {x : Except Error (α × { rest // P rest })} {x' : Except Error (α × { rest // P' rest })}
    (h : Alike (.shift d) .same (fun _ => True) (Tokens.Moved d) tell x x')
    (hsame : ∀ a, tell .same a = a) (hmove : ∀ a, tell (.shift d) a = move a) : Moved d move x x' := by
  have hapart := h.apart
  simp only [hsame, hmove] at hapart
  exact hapart

theorem expression_moved (depth : Nat) (wildcard : Bool) {ts ts' : Tokens}
    (h : Tokens.Moved d ts ts') :
    Moved d (Expr.moved d) (expression o depth wildcard ts) (expression o depth wildcard ts') :=
  (expression_alike (Tokens.tell_moved d) depth wildcard h).moved Expr.retold_same
    (Expr.retold_shift d)

/-- The list of assignments of an UPDATE is read the same at another place. -/
theorem assignments_moved {ts ts' : Tokens} (h : Tokens.Moved d ts ts') :
    Moved d (List.map (Assignment.moved d)) (separated (assignment o) ts)
      (separated (assignment o) ts') := by
  refine (separated_alike (Tokens.tell_moved d) (assignment_alike (Tokens.tell_moved d)) h).moved
    (fun list => ?_) (fun list => ?_)
  · simp only [funext Assignment.retold_same, List.map_id']
  · simp only [funext (Assignment.retold_shift d)]

end Read

/-- **A statement is read the same at another place.** -/
theorem Statement.ofTokens_moved (o : ParserOptions) {ts ts' : Tokens} (h : Tokens.Moved d ts ts') :
    Apart d (fun s s' => s' = s.moved d) (ofTokens o ts) (ofTokens o ts') := by
  have hapart := (ofTokens_alike (Tokens.tell_moved d) (o := o) h).apart
  simp only [retold_same, retold_shift] at hapart
  exact hapart

end SqlEngine

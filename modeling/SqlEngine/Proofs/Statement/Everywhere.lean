import SqlEngine.Proofs.Statement.Reading

/-!
# Statements — properties of all parts

A property that looks at an expression, a call or a SELECT by itself (`Local`) may hold of every
expression, call and SELECT in a statement, at any depth: in outputs, conditions, keys, arguments,
values of INSERT and UPDATE, and in the sub-selects of all these.

* `Select.Everywhere.give`: what follows from two properties of a part follows from them everywhere.
* `Statement.Everywhere.deep`: what holds everywhere holds everywhere in each part.
* `Statement.parse_everywhere`: what every reader ensures of the part that it reads holds of all
  parts of a statement that is read.
-/

namespace SqlEngine

/-- What is said of each expression, each call and each SELECT by itself. -/
structure Local where
  expr : Expr → Prop
  call : Call → Prop
  select : Select → Prop

/-! ### Everywhere in a statement -/

mutual

/-- The property holds of the expression and of all parts of it. -/
def Expr.Everywhere (L : Local) : Expr → Prop
  | e@⟨nodes, _, _, _, _, _, _⟩ => L.expr e ∧ Node.EverywhereAll L nodes

def Node.Everywhere (L : Local) : Node → Prop
  | .call f   => f.Everywhere L
  | .select s => s.Everywhere L
  | _         => True

def Node.EverywhereAll (L : Local) : List Node → Prop
  | []      => True
  | n :: ns => n.Everywhere L ∧ Node.EverywhereAll L ns

def Call.Everywhere (L : Local) : Call → Prop
  | f@⟨_, arguments, _, _, _, _⟩ => L.call f ∧ Expr.EverywhereAll L arguments

def Expr.EverywhereAll (L : Local) : List Expr → Prop
  | []      => True
  | e :: es => e.Everywhere L ∧ Expr.EverywhereAll L es

def Expr.EverywhereOption (L : Local) : Option Expr → Prop
  | none   => True
  | some e => e.Everywhere L

def Source.Everywhere (L : Local) : Source → Prop
  | .table ..     => True
  | .select s _ _ => s.Everywhere L

def Source.EverywhereOption (L : Local) : Option Source → Prop
  | none   => True
  | some s => s.Everywhere L

def Join.EverywhereAll (L : Local) : List Join → Prop
  | []                              => True
  | ⟨source, _, condition⟩ :: joins =>
    source.Everywhere L ∧ Expr.EverywhereOption L condition ∧ Join.EverywhereAll L joins

def OrderKey.EverywhereAll (L : Local) : List OrderKey → Prop
  | []             => True
  | ⟨e, _⟩ :: keys => e.Everywhere L ∧ OrderKey.EverywhereAll L keys

/-- The property holds of the SELECT and of all parts of it. -/
def Select.Everywhere (L : Local) : Select → Prop
  | s@⟨_, _, output, origin, joins, filter, groupBy, orderBy, _, _⟩ =>
    L.select s ∧ Expr.EverywhereAll L output ∧ Source.EverywhereOption L origin ∧
      Join.EverywhereAll L joins ∧ Expr.EverywhereOption L filter ∧
      Expr.EverywhereAll L groupBy ∧ OrderKey.EverywhereAll L orderBy

end

/-- The property holds of all parts of the statement. -/
def Statement.Everywhere (L : Local) : Statement → Prop
  | .select s => s.Everywhere L
  | .insert s => ∀ row ∈ s.rows, Expr.EverywhereAll L row
  | .update s => (∀ a ∈ s.assignments, a.value.Everywhere L) ∧ Expr.EverywhereOption L s.filter
  | .delete s => Expr.EverywhereOption L s.filter
  | .create _ => True

variable {L : Local}

theorem Node.everywhereAll_append {as bs : List Node} (ha : Node.EverywhereAll L as)
    (hb : Node.EverywhereAll L bs) : Node.EverywhereAll L (as ++ bs) := by
  induction as with
  | nil => exact hb
  | cons n as ih => exact ⟨ha.1, ih ha.2⟩

theorem Expr.everywhere_mk {e : Expr} (he : L.expr e) (hnodes : Node.EverywhereAll L e.nodes) :
    e.Everywhere L := by
  obtain ⟨nodes, _, _, _, _, _, _⟩ := e
  exact ⟨he, hnodes⟩

theorem Expr.everywhereAll_iff {es : List Expr} :
    Expr.EverywhereAll L es ↔ ∀ e ∈ es, e.Everywhere L := by
  induction es with
  | nil => exact ⟨nofun, fun _ => trivial⟩
  | cons e es ih => rw [Expr.EverywhereAll, ih, List.forall_mem_cons]

theorem OrderKey.everywhereAll_iff {ks : List OrderKey} :
    OrderKey.EverywhereAll L ks ↔ ∀ k ∈ ks, k.expr.Everywhere L := by
  induction ks with
  | nil => exact ⟨nofun, fun _ => trivial⟩
  | cons k ks ih =>
    obtain ⟨e, ascending⟩ := k
    rw [OrderKey.EverywhereAll, ih, List.forall_mem_cons]

theorem Expr.Everywhere.nodes {e : Expr} (h : e.Everywhere L) : Node.EverywhereAll L e.nodes := by
  obtain ⟨nodes, _, _, _, _, _, _⟩ := e
  exact h.2

theorem Expr.Everywhere.self {e : Expr} (h : e.Everywhere L) : L.expr e := by
  obtain ⟨nodes, _, _, _, _, _, _⟩ := e
  exact h.1

theorem Select.Everywhere.output {s : Select} (h : s.Everywhere L) :
    ∀ e ∈ s.output, e.Everywhere L := by
  obtain ⟨_, _, _, _, _, _, _, _, _, _⟩ := s
  exact Expr.everywhereAll_iff.1 h.2.1

theorem Select.Everywhere.self {s : Select} (h : s.Everywhere L) : L.select s := by
  obtain ⟨_, _, _, _, _, _, _, _, _, _⟩ := s
  exact h.1

theorem Call.Everywhere.self {f : Call} (h : f.Everywhere L) : L.call f := by
  obtain ⟨_, _, _, _, _, _⟩ := f
  exact h.1

theorem Call.Everywhere.arguments {f : Call} (h : f.Everywhere L) :
    ∀ e ∈ f.arguments, e.Everywhere L := by
  obtain ⟨_, _, _, _, _, _⟩ := f
  exact Expr.everywhereAll_iff.1 h.2

theorem Expr.everywhereOption_iff {e : Option Expr} :
    Expr.EverywhereOption L e ↔ ∀ e' ∈ e, e'.Everywhere L := by
  cases e with
  | none => exact ⟨nofun, fun _ => trivial⟩
  | some e => exact ⟨fun h e' he' => Option.some.inj he' ▸ h, fun h => h e rfl⟩

theorem Join.EverywhereAll.conditions {js : List Join} (h : Join.EverywhereAll L js) :
    ∀ e ∈ js.filterMap Join.condition, e.Everywhere L := by
  induction js with
  | nil => exact List.forall_mem_nil _
  | cons j js ih =>
    obtain ⟨source, kind, condition⟩ := j
    cases condition with
    | none => exact ih h.2.2
    | some e => exact List.forall_mem_cons.2 ⟨h.2.1, ih h.2.2⟩

theorem Call.everywhere_mk {f : Call} (hf : L.call f)
    (harguments : Expr.EverywhereAll L f.arguments) : f.Everywhere L := by
  obtain ⟨_, arguments, _, _, _, _⟩ := f
  exact ⟨hf, harguments⟩

mutual

/-- What holds everywhere in an expression holds of its calls. -/
theorem Expr.forall_calls : ∀ {e : Expr}, e.Everywhere L → ∀ f ∈ e.calls, L.call f
  | ⟨_, _, _, _, _, _, _⟩, he => Node.forall_callsOf he.2

theorem Node.forall_callsOf : ∀ {ns : List Node}, Node.EverywhereAll L ns →
    ∀ f ∈ Node.callsOf ns, L.call f
  | [], _ => List.forall_mem_nil _
  | .call f :: _, ⟨hf, hns⟩ => by
    obtain ⟨hcall, hnested⟩ := Call.forall_nested hf
    exact List.forall_mem_cons.2
      ⟨hcall, List.forall_mem_append.2 ⟨hnested, Node.forall_callsOf hns⟩⟩
  | .select _ :: _, hns | .operator _ :: _, hns | .openParen :: _, hns | .closeParen :: _, hns
  | .number _ :: _, hns | .text _ :: _, hns | .boolean _ :: _, hns | .null :: _, hns
  | .column _ :: _, hns => (Node.forall_callsOf hns.2 :)

theorem Call.forall_nested : ∀ {f : Call}, f.Everywhere L → L.call f ∧ ∀ g ∈ f.nested, L.call g
  | ⟨_, _, _, _, _, _⟩, hf => ⟨hf.1, Expr.forall_callsOf hf.2⟩

theorem Expr.forall_callsOf : ∀ {es : List Expr}, Expr.EverywhereAll L es →
    ∀ f ∈ Expr.callsOf es, L.call f
  | [], _ => List.forall_mem_nil _
  | _ :: _, ⟨he, hes⟩ => List.forall_mem_append.2 ⟨Expr.forall_calls he, Expr.forall_callsOf hes⟩

end

/-! ### Properties that follow from others -/

/-- Two properties of a part give a third one. -/
structure Local.Give (L L' M : Local) : Prop where
  expr : ∀ {e : Expr}, L.expr e → L'.expr e → M.expr e
  call : ∀ {f : Call}, L.call f → L'.call f → M.call f
  select : ∀ {s : Select}, L.select s → L'.select s → M.select s

section Give

variable {L' M : Local}

mutual

theorem Expr.Everywhere.give (hM : L.Give L' M) : ∀ {e : Expr},
    e.Everywhere L → e.Everywhere L' → e.Everywhere M
  | ⟨_, _, _, _, _, _, _⟩, h, h' => ⟨hM.expr h.1 h'.1, Node.EverywhereAll.give hM h.2 h'.2⟩

theorem Node.Everywhere.give (hM : L.Give L' M) : ∀ {n : Node},
    n.Everywhere L → n.Everywhere L' → n.Everywhere M
  | .call _, h, h'   => Call.Everywhere.give hM h h'
  | .select _, h, h' => Select.Everywhere.give hM h h'
  | .operator _, _, _ | .openParen, _, _ | .closeParen, _, _ | .number _, _, _ | .text _, _, _
  | .boolean _, _, _ | .null, _, _ | .column _, _, _ => trivial

theorem Node.EverywhereAll.give (hM : L.Give L' M) : ∀ {ns : List Node},
    Node.EverywhereAll L ns → Node.EverywhereAll L' ns → Node.EverywhereAll M ns
  | [], _, _      => trivial
  | _ :: _, h, h' => ⟨Node.Everywhere.give hM h.1 h'.1, Node.EverywhereAll.give hM h.2 h'.2⟩

theorem Call.Everywhere.give (hM : L.Give L' M) : ∀ {f : Call},
    f.Everywhere L → f.Everywhere L' → f.Everywhere M
  | ⟨_, _, _, _, _, _⟩, h, h' => ⟨hM.call h.1 h'.1, Expr.EverywhereAll.give hM h.2 h'.2⟩

theorem Expr.EverywhereAll.give (hM : L.Give L' M) : ∀ {es : List Expr},
    Expr.EverywhereAll L es → Expr.EverywhereAll L' es → Expr.EverywhereAll M es
  | [], _, _      => trivial
  | _ :: _, h, h' => ⟨Expr.Everywhere.give hM h.1 h'.1, Expr.EverywhereAll.give hM h.2 h'.2⟩

theorem Expr.EverywhereOption.give (hM : L.Give L' M) : ∀ {e : Option Expr},
    Expr.EverywhereOption L e → Expr.EverywhereOption L' e → Expr.EverywhereOption M e
  | none, _, _    => trivial
  | some _, h, h' => Expr.Everywhere.give hM h h'

theorem Source.Everywhere.give (hM : L.Give L' M) : ∀ {s : Source},
    s.Everywhere L → s.Everywhere L' → s.Everywhere M
  | .table .., _, _       => trivial
  | .select _ _ _, h, h'  => Select.Everywhere.give hM h h'

theorem Source.EverywhereOption.give (hM : L.Give L' M) : ∀ {s : Option Source},
    Source.EverywhereOption L s → Source.EverywhereOption L' s → Source.EverywhereOption M s
  | none, _, _    => trivial
  | some _, h, h' => Source.Everywhere.give hM h h'

theorem Join.EverywhereAll.give (hM : L.Give L' M) : ∀ {js : List Join},
    Join.EverywhereAll L js → Join.EverywhereAll L' js → Join.EverywhereAll M js
  | [], _, _ => trivial
  | ⟨_, _, _⟩ :: _, ⟨hsource, hcondition, hjs⟩, ⟨hsource', hcondition', hjs'⟩ =>
    ⟨Source.Everywhere.give hM hsource hsource',
      Expr.EverywhereOption.give hM hcondition hcondition', Join.EverywhereAll.give hM hjs hjs'⟩

theorem OrderKey.EverywhereAll.give (hM : L.Give L' M) : ∀ {ks : List OrderKey},
    OrderKey.EverywhereAll L ks → OrderKey.EverywhereAll L' ks → OrderKey.EverywhereAll M ks
  | [], _, _              => trivial
  | ⟨_, _⟩ :: _, h, h' =>
    ⟨Expr.Everywhere.give hM h.1 h'.1, OrderKey.EverywhereAll.give hM h.2 h'.2⟩

theorem Select.Everywhere.give (hM : L.Give L' M) : ∀ {s : Select},
    s.Everywhere L → s.Everywhere L' → s.Everywhere M
  | ⟨_, _, _, _, _, _, _, _, _, _⟩, ⟨hs, houtput, horigin, hjoins, hfilter, hgroup, horder⟩,
      ⟨hs', houtput', horigin', hjoins', hfilter', hgroup', horder'⟩ =>
    ⟨hM.select hs hs', Expr.EverywhereAll.give hM houtput houtput',
      Source.EverywhereOption.give hM horigin horigin', Join.EverywhereAll.give hM hjoins hjoins',
      Expr.EverywhereOption.give hM hfilter hfilter', Expr.EverywhereAll.give hM hgroup hgroup',
      OrderKey.EverywhereAll.give hM horder horder'⟩

end

end Give

theorem Statement.Everywhere.give {L' M : Local} (hM : L.Give L' M) {s : Statement}
    (h : s.Everywhere L) (h' : s.Everywhere L') : s.Everywhere M := by
  cases s with
  | select s => exact Select.Everywhere.give hM h h'
  | insert s => exact fun row hrow => Expr.EverywhereAll.give hM (h row hrow) (h' row hrow)
  | update s =>
    exact ⟨fun a ha => Expr.Everywhere.give hM (h.1 a ha) (h'.1 a ha),
      Expr.EverywhereOption.give hM h.2 h'.2⟩
  | delete s => exact Expr.EverywhereOption.give hM h h'
  | create s => trivial

/-! ### Properties of parts with what is in them -/

/-- The property of a part and of all parts of it. -/
def Local.deep (L : Local) : Local :=
  ⟨Expr.Everywhere L, Call.Everywhere L, Select.Everywhere L⟩

section Deep

mutual

theorem Expr.Everywhere.deep : ∀ {e : Expr}, e.Everywhere L → e.Everywhere L.deep
  | ⟨_, _, _, _, _, _, _⟩, h => ⟨h, Node.EverywhereAll.deep h.2⟩

theorem Node.Everywhere.deep : ∀ {n : Node}, n.Everywhere L → n.Everywhere L.deep
  | .call _, h   => Call.Everywhere.deep h
  | .select _, h => Select.Everywhere.deep h
  | .operator _, _ | .openParen, _ | .closeParen, _ | .number _, _ | .text _, _ | .boolean _, _
  | .null, _ | .column _, _ => trivial

theorem Node.EverywhereAll.deep : ∀ {ns : List Node},
    Node.EverywhereAll L ns → Node.EverywhereAll L.deep ns
  | [], _     => trivial
  | _ :: _, h => ⟨Node.Everywhere.deep h.1, Node.EverywhereAll.deep h.2⟩

theorem Call.Everywhere.deep : ∀ {f : Call}, f.Everywhere L → f.Everywhere L.deep
  | ⟨_, _, _, _, _, _⟩, h => ⟨h, Expr.EverywhereAll.deep h.2⟩

theorem Expr.EverywhereAll.deep : ∀ {es : List Expr},
    Expr.EverywhereAll L es → Expr.EverywhereAll L.deep es
  | [], _     => trivial
  | _ :: _, h => ⟨Expr.Everywhere.deep h.1, Expr.EverywhereAll.deep h.2⟩

theorem Expr.EverywhereOption.deep : ∀ {e : Option Expr},
    Expr.EverywhereOption L e → Expr.EverywhereOption L.deep e
  | none, _   => trivial
  | some _, h => Expr.Everywhere.deep h

theorem Source.Everywhere.deep : ∀ {s : Source}, s.Everywhere L → s.Everywhere L.deep
  | .table .., _      => trivial
  | .select _ _ _, h  => Select.Everywhere.deep h

theorem Source.EverywhereOption.deep : ∀ {s : Option Source},
    Source.EverywhereOption L s → Source.EverywhereOption L.deep s
  | none, _   => trivial
  | some _, h => Source.Everywhere.deep h

theorem Join.EverywhereAll.deep : ∀ {js : List Join},
    Join.EverywhereAll L js → Join.EverywhereAll L.deep js
  | [], _ => trivial
  | ⟨_, _, _⟩ :: _, ⟨hsource, hcondition, hjs⟩ =>
    ⟨Source.Everywhere.deep hsource, Expr.EverywhereOption.deep hcondition,
      Join.EverywhereAll.deep hjs⟩

theorem OrderKey.EverywhereAll.deep : ∀ {ks : List OrderKey},
    OrderKey.EverywhereAll L ks → OrderKey.EverywhereAll L.deep ks
  | [], _            => trivial
  | ⟨_, _⟩ :: _, h   => ⟨Expr.Everywhere.deep h.1, OrderKey.EverywhereAll.deep h.2⟩

theorem Select.Everywhere.deep : ∀ {s : Select}, s.Everywhere L → s.Everywhere L.deep
  | ⟨_, _, _, _, _, _, _, _, _, _⟩, h@⟨_, houtput, horigin, hjoins, hfilter, hgroup, horder⟩ =>
    ⟨h, Expr.EverywhereAll.deep houtput, Source.EverywhereOption.deep horigin,
      Join.EverywhereAll.deep hjoins, Expr.EverywhereOption.deep hfilter,
      Expr.EverywhereAll.deep hgroup, OrderKey.EverywhereAll.deep horder⟩

end

/-- What holds everywhere in a statement holds everywhere in each of its parts. -/
theorem Statement.Everywhere.deep {s : Statement} (h : s.Everywhere L) : s.Everywhere L.deep := by
  cases s with
  | select s => exact Select.Everywhere.deep h
  | insert s => exact fun row hrow => Expr.EverywhereAll.deep (h row hrow)
  | update s =>
    exact ⟨fun a ha => Expr.Everywhere.deep (h.1 a ha), Expr.EverywhereOption.deep h.2⟩
  | delete s => exact Expr.EverywhereOption.deep h
  | create s => trivial

end Deep

/-! ### What is read -/

namespace Read

variable {o : ParserOptions}

/-- The readers ensure the property of what they read, each of its own part. -/
structure Ensures (o : ParserOptions) (L : Local) : Prop where
  expression : ∀ {depth : Nat} {wildcard : Bool} {ts : Tokens} {e : Expr} {rest : ts.After},
    Read.expression o depth wildcard ts = .ok (e, rest) → L.expr e
  output : ∀ {depth : Nat} {ts : Tokens} {e : Expr} {rest : ts.After},
    Read.output o depth ts = .ok (e, rest) → L.expr e
  call : ∀ {depth : Nat} {ts : Tokens} {args : List Expr} {rest : ts.After} (r : ColumnRef),
    arguments o depth ts = .ok (args, rest) →
    L.call ⟨Text.upper r.column, args, none, .null, false, r.offset⟩
  select : ∀ {depth : Nat} {ts : Tokens} {s : Select} {rest : ts.After},
    Read.select o depth ts = .ok (s, rest) → L.select s

mutual

theorem operands_everywhere (hL : Ensures o L) (depth : Nat) (nested : Bool) (ts : Tokens)
    {nodes : List Node} {rest : ts.After} (h : operands o depth nested ts = .ok (nodes, rest)) :
    Node.EverywhereAll L nodes := by
  obtain ⟨first, afterFirst, more, last, hfirst, hmore, rfl⟩ := operands_cases h
  have hlt := afterFirst.2
  exact Node.everywhereAll_append (operand_everywhere hL depth nested ts hfirst)
    (following_everywhere hL depth nested afterFirst.1 hmore)
termination_by (ts.length, 3)

theorem following_everywhere (hL : Ensures o L) (depth : Nat) (nested : Bool) (ts : Tokens)
    {nodes : List Node} {rest : ts.UpTo} (h : following o depth nested ts = .ok (nodes, rest)) :
    Node.EverywhereAll L nodes := by
  rcases following_cases h with rfl | ⟨op, more, after, last, hlt, hmore, rfl⟩
  · trivial
  · exact ⟨trivial, operands_everywhere hL depth nested after hmore⟩
termination_by (ts.length, 0)

theorem operand_everywhere (hL : Ensures o L) (depth : Nat) (nested : Bool) (ts : Tokens)
    {nodes : List Node} {rest : ts.After} (h : operand o depth nested ts = .ok (nodes, rest)) :
    Node.EverywhereAll L nodes := by
  rcases operand_cases h with hatom | ⟨r, args, after, last, hargs, rfl⟩
  · exact atom_everywhere hL depth ts hatom
  · have hlt := after.2
    exact ⟨⟨hL.call r hargs, arguments_everywhere hL depth after.1 hargs⟩, trivial⟩
termination_by (ts.length, 2)

theorem atom_everywhere (hL : Ensures o L) (depth : Nat) (ts : Tokens) {nodes : List Node}
    (h : Atom o depth ts nodes) : Node.EverywhereAll L nodes := by
  cases h with
  | @plain n hn => cases n <;> first | exact ⟨trivial, trivial⟩ | cases hn
  | @select inside s rest hlt hs => exact ⟨select_everywhere hL (depth + 1) inside hs, trivial⟩
  | @group inside nodes rest hlt hnodes =>
    exact ⟨trivial, Node.everywhereAll_append
      (operands_everywhere hL (depth + 1) true inside hnodes) ⟨trivial, trivial⟩⟩
termination_by (ts.length, 1)

theorem arguments_everywhere (hL : Ensures o L) (depth : Nat) (ts : Tokens) {args : List Expr}
    {rest : ts.After} (h : arguments o depth ts = .ok (args, rest)) : Expr.EverywhereAll L args :=
    by
  rcases arguments_cases h with rfl | ⟨inside, last, hargs⟩
  · trivial
  · have hlt := inside.2
    exact expressions_everywhere hL (depth + 1) inside.1 hargs
termination_by (ts.length, 0)

theorem expression_everywhere (hL : Ensures o L) (depth : Nat) (wildcard : Bool) (ts : Tokens)
    {e : Expr} {rest : ts.After} (h : expression o depth wildcard ts = .ok (e, rest)) : e.Everywhere
    L := by
  have he := hL.expression h
  obtain ⟨nodes, source, offset, hnodes, rfl⟩ := expression_cases h
  exact Expr.everywhere_mk he (operands_everywhere hL depth false ts hnodes)
termination_by (ts.length, 4)

theorem expressions_everywhere (hL : Ensures o L) (depth : Nat) (ts : Tokens) {es : List Expr}
    {rest : ts.After} (h : expressions o depth ts = .ok (es, rest)) : Expr.EverywhereAll L es := by
  obtain ⟨e, afterFirst, he, rfl | ⟨more, afterComma, last, hmore, rfl⟩⟩ := expressions_cases h
  · exact ⟨expression_everywhere hL depth false ts he, trivial⟩
  · have hlt := afterComma.2
    exact ⟨expression_everywhere hL depth false ts he,
      expressions_everywhere hL depth afterComma.1 hmore⟩
termination_by (ts.length, 5)

theorem output_everywhere (hL : Ensures o L) (depth : Nat) (ts : Tokens) {e : Expr}
    {rest : ts.After} (h : output o depth ts = .ok (e, rest)) : e.Everywhere L := by
  obtain ⟨-, hnodes⟩ := output_cases h
  refine Expr.everywhere_mk (hL.output h) ?_
  rcases hnodes with ⟨r, hnodes⟩ | ⟨nodes, last, hoperands, hnodes⟩
  · rw [hnodes]
    exact ⟨trivial, trivial⟩
  · rw [hnodes]
    exact operands_everywhere hL depth false ts hoperands
termination_by (ts.length, 5)

theorem outputs_everywhere (hL : Ensures o L) (depth : Nat) (ts : Tokens) {es : List Expr}
    {rest : ts.After} (h : outputs o depth ts = .ok (es, rest)) : Expr.EverywhereAll L es := by
  obtain ⟨e, afterFirst, he, rfl | ⟨more, afterComma, last, hmore, rfl⟩⟩ := outputs_cases h
  · exact ⟨output_everywhere hL depth ts he, trivial⟩
  · have hlt := afterComma.2
    exact ⟨output_everywhere hL depth ts he, outputs_everywhere hL depth afterComma.1 hmore⟩
termination_by (ts.length, 6)

theorem source_everywhere (hL : Ensures o L) (depth : Nat) (ts : Tokens) {s : Source}
    {rest : ts.After} (h : source o depth ts = .ok (s, rest)) : s.Everywhere L := by
  rcases source_cases h with ⟨name, aliasName, id, offset, rfl⟩ |
    ⟨q, aliasName, offset, inside, last, hq, rfl⟩
  · trivial
  · have hlt := inside.2
    exact (select_everywhere hL (depth + 1) inside.1 hq :)
termination_by (ts.length, 0)

theorem joins_everywhere (hL : Ensures o L) (depth : Nat) (ts : Tokens) {js : List Join}
    {rest : ts.UpTo} (h : joins o depth ts = .ok (js, rest)) : Join.EverywhereAll L js := by
  rcases joins_cases h with rfl | ⟨s, kind, condition, more, afterKind, afterSource, afterOn, last,
    hs, hcondition, hmore, rfl⟩
  · trivial
  · have hkind := afterKind.2
    have hon := afterOn.2
    refine ⟨source_everywhere hL depth afterKind.1 hs, ?_,
      joins_everywhere hL depth afterOn.1 hmore⟩
    rcases hcondition with rfl | ⟨e, afterWord, lastExpr, he, rfl⟩
    · trivial
    · have hword := afterWord.2
      exact expression_everywhere hL depth false afterWord.1 he
termination_by (ts.length, 0)

theorem orderKeys_everywhere (hL : Ensures o L) (depth : Nat) (ts : Tokens) {keys : List OrderKey}
    {rest : ts.After} (h : orderKeys o depth ts = .ok (keys, rest)) : OrderKey.EverywhereAll L keys
    := by
  obtain ⟨e, ascending, afterFirst, he, rfl | ⟨more, afterComma, last, hmore, rfl⟩⟩ :=
    orderKeys_cases h
  · exact ⟨expression_everywhere hL depth false ts he, trivial⟩
  · have hlt := afterComma.2
    exact ⟨expression_everywhere hL depth false ts he,
      orderKeys_everywhere hL depth afterComma.1 hmore⟩
termination_by (ts.length, 5)

theorem clause_everywhere (hL : Ensures o L) (depth : Nat) (word : Keyword) (ts : Tokens)
    {filter : Option Expr} {rest : ts.UpTo} (h : clause o depth word ts = .ok (filter, rest)) :
    Expr.EverywhereOption L filter := by
  rcases clause_cases h with rfl | ⟨e, after, last, he, rfl⟩
  · trivial
  · have hlt := after.2
    exact expression_everywhere hL depth false after.1 he
termination_by (ts.length, 0)

theorem select_everywhere (hL : Ensures o L) (depth : Nat) (ts : Tokens) {s : Select}
    {rest : ts.After} (h : select o depth ts = .ok (s, rest)) : s.Everywhere L := by
  have hs := hL.select h
  obtain ⟨⟨t₁, last₁, houtput⟩, horigin, ⟨t₂, last₂, hfilter⟩, hgroup, horder⟩ := select_clauses h
  obtain ⟨text, distinct, output, origin, joined, filter, groupBy, orderBy, limit, offset⟩ := s
  have h₁ := t₁.2
  have h₂ := t₂.2
  have hwhere := clause_everywhere hL depth .whereWord t₂.1 hfilter
  have hgroupBy : Expr.EverywhereAll L groupBy := by
    rcases hgroup with rfl | ⟨t, last, hgroup⟩
    · trivial
    · have hlt := t.2
      exact expressions_everywhere hL depth t.1 hgroup
  have horderBy : OrderKey.EverywhereAll L orderBy := by
    rcases horder with rfl | ⟨t, last, horder⟩
    · trivial
    · have hlt := t.2
      exact orderKeys_everywhere hL depth t.1 horder
  refine ⟨hs, outputs_everywhere hL depth t₁.1 houtput, ?_⟩
  rcases horigin with ⟨rfl, rfl⟩ | ⟨q, rfl, ⟨t₃, last₃, hq⟩, t₄, last₄, hjoins⟩
  · exact ⟨trivial, trivial, hwhere, hgroupBy, horderBy⟩
  · have h₃ := t₃.2
    have h₄ := t₄.2
    exact ⟨source_everywhere hL depth t₃.1 hq, joins_everywhere hL depth t₄.1 hjoins, hwhere,
      hgroupBy, horderBy⟩
termination_by (ts.length, 0)

end

theorem insert_everywhere (hL : Ensures o L) {ts : Tokens} {s : Insert} {rest : Tokens}
    (h : insert o ts = .ok (s, rest)) : (Statement.insert s).Everywhere L := by
  simp only [insert, bind_eq_ok_iff] at h
  obtain ⟨t₁, -, t₂, -, ⟨table, t₃⟩, -, ⟨columns, t₄⟩, -, t₅, -, ⟨rows, last⟩, hrows, h⟩ := h
  obtain ⟨rfl, -⟩ := Prod.mk.inj (Except.ok.inj h)
  refine separated_forall (fun ts row rest h => ?_) t₅.1 hrows
  simp only [valueRow, bind_eq_ok_iff] at h
  obtain ⟨inside, -, ⟨list, last⟩, hlist, close, -, h⟩ := h
  obtain ⟨rfl, -⟩ := Prod.mk.inj (Except.ok.inj h)
  exact expressions_everywhere hL 0 inside.1 hlist

theorem update_everywhere (hL : Ensures o L) {ts : Tokens} {s : Update} {rest : Tokens}
    (h : update o ts = .ok (s, rest)) : (Statement.update s).Everywhere L := by
  simp only [update, bind_eq_ok_iff] at h
  obtain ⟨t₁, -, ⟨table, t₂⟩, -, t₃, -, ⟨list, t₄⟩, hlist, ⟨filter, last⟩, hfilter, h⟩ := h
  obtain ⟨rfl, -⟩ := Prod.mk.inj (Except.ok.inj h)
  refine ⟨separated_forall (fun ts a rest h => ?_) t₃.1 hlist,
    clause_everywhere hL 0 .whereWord t₄.1 hfilter⟩
  simp only [assignment, bind_eq_ok_iff] at h
  obtain ⟨⟨column, afterName⟩, -, afterSign, -, ⟨value, last⟩, hvalue, h⟩ := h
  obtain ⟨rfl, -⟩ := Prod.mk.inj (Except.ok.inj h)
  exact expression_everywhere hL 0 false afterSign.1 hvalue

theorem delete_everywhere (hL : Ensures o L) {ts : Tokens} {s : Delete} {rest : Tokens}
    (h : delete o ts = .ok (s, rest)) : (Statement.delete s).Everywhere L := by
  simp only [delete, bind_eq_ok_iff] at h
  obtain ⟨t₁, -, t₂, -, ⟨table, t₃⟩, -, ⟨filter, last⟩, hfilter, h⟩ := h
  obtain ⟨rfl, -⟩ := Prod.mk.inj (Except.ok.inj h)
  exact clause_everywhere hL 0 .whereWord t₃.1 hfilter

theorem statement_everywhere (hL : Ensures o L) {ts : Tokens} {s : Statement} {rest : Tokens}
    (h : statement o ts = .ok (s, rest)) : s.Everywhere L := by
  simp only [statement] at h
  split at h
  · simp only [bind_eq_ok_iff] at h
    obtain ⟨⟨q, last⟩, hq, h⟩ := h
    obtain ⟨rfl, -⟩ := Prod.mk.inj (Except.ok.inj h)
    exact select_everywhere hL 0 ts hq
  · obtain ⟨⟨q, last⟩, hq, h⟩ := map_eq_ok_iff.1 h
    obtain ⟨rfl, -⟩ := Prod.mk.inj h
    exact insert_everywhere hL hq
  · obtain ⟨⟨q, last⟩, hq, h⟩ := map_eq_ok_iff.1 h
    obtain ⟨rfl, -⟩ := Prod.mk.inj h
    exact update_everywhere hL hq
  · obtain ⟨⟨q, last⟩, hq, h⟩ := map_eq_ok_iff.1 h
    obtain ⟨rfl, -⟩ := Prod.mk.inj h
    exact delete_everywhere hL hq
  · obtain ⟨⟨q, last⟩, hq, h⟩ := map_eq_ok_iff.1 h
    obtain ⟨rfl, -⟩ := Prod.mk.inj h
    trivial
  · cases h

end Read

/-- A text that is a statement is read as one by the reader of statements. -/
theorem Statement.exists_of_parse {o : ParserOptions} {text : String} {s : Statement}
    (h : Statement.parse o text = .ok s) :
    ∃ rest, Read.statement o (Tokens.ofText text) = .ok (s, rest) := by
  simp only [Statement.parse, bind_eq_ok_iff] at h
  obtain ⟨-, -, ⟨s', rest⟩, hs, after, -, h⟩ := h
  have ends (last : Tokens) (h : (if last.current == .finish then .ok s'
      else .error (last.fault .expectedEnd)) = Except.ok s) : s' = s := by
    split at h
    · exact Except.ok.inj h
    · cases h
  cases after with
  | some after =>
    obtain rfl := ends _ h
    exact ⟨rest, hs⟩
  | none =>
    obtain rfl := ends _ h
    exact ⟨rest, hs⟩

/-- **What the readers ensure holds everywhere** in a statement that is read. -/
theorem Statement.parse_everywhere {o : ParserOptions} {text : String} {s : Statement}
    (hL : Read.Ensures o L) (h : Statement.parse o text = .ok s) : s.Everywhere L := by
  obtain ⟨rest, hs⟩ := Statement.exists_of_parse h
  exact Read.statement_everywhere hL hs

end SqlEngine

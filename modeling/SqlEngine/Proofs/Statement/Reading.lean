import SqlEngine.Proofs.Number
import SqlEngine.Proofs.Result
import SqlEngine.Statement.Parser

/-!
# Statements — how expressions are read

One inversion lemma for each reader of expressions: what it read, when it read something.  What a
reader calls reads a later part of the text, so that properties of all that is read go by induction
on its length.
-/

namespace SqlEngine

/-- The node is a literal, which is not NaN, or a column. -/
def Node.isPlain : Node → Bool
  | .number x                                 => !x.isNaN
  | .text _ | .boolean _ | .null | .column _ => true
  | _                                         => false

namespace Read

variable {α : Type} {o : ParserOptions} {depth : Nat} {nested : Bool} {ts : Tokens}

/-! ### Tokens and lists -/

/-- A token that is taken has the property. -/
theorem takeIf_some {p : Token → Bool} {rest : ts.After} (h : takeIf p ts = .ok (some rest)) :
    p ts.current = true := by
  cases ts with
  | finish | broken => cases h
  | next l after =>
    simp only [takeIf] at h
    split at h
    next hp => exact hp
    next => cases h

/-- What every item has, all items of a list have. -/
theorem separated_forall {P : α → Prop} {item : (ts : Tokens) → Parsed α ts}
    (hitem : ∀ ts a rest, item ts = .ok (a, rest) → P a) (ts : Tokens) {as : List α}
    {rest : ts.After} (h : separated item ts = .ok (as, rest)) : ∀ a ∈ as, P a := by
  rw [separated] at h
  simp only [bind_eq_ok_iff] at h
  obtain ⟨⟨first, afterFirst⟩, hfirst, comma, -, h⟩ := h
  have hP := hitem ts first _ hfirst
  cases comma with
  | none =>
    obtain ⟨rfl, -⟩ := Prod.mk.inj (Except.ok.inj h)
    exact fun a ha => List.mem_singleton.1 ha ▸ hP
  | some afterComma =>
    simp only [bind_eq_ok_iff] at h
    obtain ⟨⟨more, last⟩, hmore, h⟩ := h
    obtain ⟨rfl, -⟩ := Prod.mk.inj (Except.ok.inj h)
    have hlt : afterComma.1.length < ts.length := Nat.lt_trans afterComma.2 afterFirst.2
    exact List.forall_mem_cons.2 ⟨hP, separated_forall hitem afterComma.1 hmore⟩
termination_by ts.length

/-! ### Operands -/

theorem operands_cases {nodes : List Node} {rest : ts.After}
    (h : operands o depth nested ts = .ok (nodes, rest)) :
    ∃ first, ∃ afterFirst : ts.After, ∃ more, ∃ last : afterFirst.1.UpTo,
      operand o depth nested ts = .ok (first, afterFirst) ∧
        following o depth nested afterFirst.1 = .ok (more, last) ∧ nodes = first ++ more := by
  rw [operands] at h
  simp only [bind_eq_ok_iff] at h
  obtain ⟨⟨first, afterFirst⟩, hfirst, ⟨more, last⟩, hmore, h⟩ := h
  obtain ⟨rfl, -⟩ := Prod.mk.inj (Except.ok.inj h)
  exact ⟨first, afterFirst, more, last, hfirst, hmore, rfl⟩

/-- After an operand nothing follows, or an operator with more operands. -/
theorem following_cases {nodes : List Node} {rest : ts.UpTo}
    (h : following o depth nested ts = .ok (nodes, rest)) :
    nodes = [] ∨ ∃ op more, ∃ after : Tokens, ∃ last : after.After, after.length < ts.length ∧
      operands o depth nested after = .ok (more, last) ∧ nodes = .operator op :: more := by
  have ends {error : Error} {last : ts.UpTo}
      (h : (if nested = true then .error error else .ok ([], last)) = Except.ok (nodes, rest)) :
      nodes = [] := by
    split at h
    · cases h
    · exact ((Prod.mk.inj (Except.ok.inj h)).1).symm
  cases ts with
  | finish | broken => rw [following] at h <;> first | exact .inl (ends h) | simp
  | next l after =>
    have operatorThen {op : Operator} {out : List Node × after.After → (Tokens.next l after).UpTo}
        (h : (do
          after.check
          let p ← operands o depth nested after
          Except.ok (Node.operator op :: p.1, out p)) = .ok (nodes, rest)) :
        ∃ op more, ∃ a : Tokens, ∃ last : a.After, a.length < (Tokens.next l after).length ∧
          operands o depth nested a = .ok (more, last) ∧ nodes = .operator op :: more := by
      simp only [bind_eq_ok_iff] at h
      obtain ⟨-, -, ⟨more, last⟩, hmore, h⟩ := h
      obtain ⟨rfl, -⟩ := Prod.mk.inj (Except.ok.inj h)
      exact ⟨op, more, after, last, Nat.lt_succ_self _, hmore, rfl⟩
    rw [following] at h
    simp only [] at h
    -- the cases of the token at the front, in the order of the reader
    split at h
    case h_1 | h_2 => exact .inr (operatorThen h)
    case h_5 =>
      split at h
      · simp only [bind_eq_ok_iff] at h
        obtain ⟨-, -, h⟩ := h
        exact .inl ((Prod.mk.inj (Except.ok.inj h)).1).symm
      · exact .inl ((Prod.mk.inj (Except.ok.inj h)).1).symm
    case h_6 =>
      split at h
      · exact .inr (operatorThen h)
      · exact .inl (ends h)
    all_goals first
      | exact .inl (ends h)
      | cases h
      | (split at h
         · cases h
         · exact .inl (ends h))

theorem numberValue_isNaN {literal : String} {x : Float} (h : numberValue literal ts = .ok x) :
    x.isNaN = false := by
  simp only [numberValue] at h
  split at h
  next x' hx =>
    obtain rfl := Except.ok.inj h
    exact Number.isNaN_ofLiteral? hx
  next => cases h

/-- The ways in which an operand is read that is no call. -/
inductive Atom (o : ParserOptions) (depth : Nat) (ts : Tokens) : List Node → Prop
  | plain {n : Node} (h : n.isPlain = true) : Atom o depth ts [n]
  | select {inside : Tokens} {s : Select} {rest : inside.After} (hlt : inside.length < ts.length)
      (h : select o (depth + 1) inside = .ok (s, rest)) : Atom o depth ts [.select s]
  | group {inside : Tokens} {nodes : List Node} {rest : inside.After}
      (hlt : inside.length < ts.length)
      (h : operands o (depth + 1) true inside = .ok (nodes, rest)) :
      Atom o depth ts (.openParen :: nodes ++ [.closeParen])

theorem atom_cases {nodes : List Node} {rest : ts.After}
    (h : atom o depth nested ts = .ok (nodes, rest)) : Atom o depth ts nodes := by
  cases ts with
  | finish | broken => rw [atom] at h <;> first | cases h | simp
  | next l after =>
    have hlt : after.length < (Tokens.next l after).length := Nat.lt_succ_self _
    have alone {n : Node} {out last : (Tokens.next l after).After} (hn : n.isPlain = true)
        (h : (after.check >>= fun _ => Except.ok ([n], out)) = .ok (nodes, last)) :
        Atom o depth (.next l after) nodes := by
      simp only [bind_eq_ok_iff] at h
      obtain ⟨-, -, h⟩ := h
      obtain ⟨rfl, -⟩ := Prod.mk.inj (Except.ok.inj h)
      exact .plain hn
    have reference {last : (Tokens.next l after).After}
        (h : (column l after >>= fun p => Except.ok ([Node.column p.1], p.2)) = .ok (nodes, last)) :
        Atom o depth (.next l after) nodes := by
      simp only [bind_eq_ok_iff] at h
      obtain ⟨p, -, h⟩ := h
      obtain ⟨rfl, -⟩ := Prod.mk.inj (Except.ok.inj h)
      exact .plain rfl
    rw [atom.eq_def] at h
    simp only [] at h
    -- the cases of the token at the front, in the order of the reader
    split at h
    case h_1 =>
      simp only [bind_eq_ok_iff] at h
      obtain ⟨x, hx, h⟩ := h
      have hplain : (Node.number x).isPlain = true := by rw [Node.isPlain, numberValue_isNaN hx]; rfl
      exact alone hplain (bind_eq_ok_iff.2 h)
    case h_10 =>
      split at h
      · exact alone rfl h
      split at h
      · exact reference h
      · cases h
    case h_11 =>
      split at h
      · split at h
        · cases h
        · simp only [bind_eq_ok_iff] at h
          obtain ⟨-, -, -, -, ⟨s, last⟩, hs, close, -, h⟩ := h
          obtain ⟨rfl, -⟩ := Prod.mk.inj (Except.ok.inj h)
          exact .select hlt hs
      · simp only [bind_eq_ok_iff] at h
        obtain ⟨-, -, -, -, ⟨inner, last⟩, hinner, h⟩ := h
        obtain ⟨rfl, -⟩ := Prod.mk.inj (Except.ok.inj h)
        exact .group hlt hinner
    case h_13 =>
      split at h
      · split at h
        · simp only [bind_eq_ok_iff] at h
          obtain ⟨-, -, x, hx, -, -, h⟩ := h
          obtain ⟨rfl, -⟩ := Prod.mk.inj (Except.ok.inj h)
          exact .plain (by rw [Node.isPlain, Number.isNaN_neg (numberValue_isNaN hx)]; rfl)
        · cases h
      · cases h
    all_goals first
      | exact alone rfl h
      | exact reference h
      | cases h

/-- An operand is an atom, or the call of a function with the arguments that follow its name. -/
theorem operand_cases {nodes : List Node} {rest : ts.After}
    (h : operand o depth nested ts = .ok (nodes, rest)) :
    Atom o depth ts nodes ∨ ∃ r args, ∃ after : ts.After, ∃ last : after.1.After,
      arguments o depth after.1 = .ok (args, last) ∧ nodes = [callOf r args] := by
  rw [operand] at h
  simp only [bind_eq_ok_iff] at h
  obtain ⟨⟨atoms, afterAtom⟩, hatom, h⟩ := h
  split at h
  · split at h
    next r _ =>
      simp only [bind_eq_ok_iff] at h
      obtain ⟨⟨args, last⟩, hargs, h⟩ := h
      split at h
      · cases h
      · obtain ⟨rfl, -⟩ := Prod.mk.inj (Except.ok.inj h)
        exact .inr ⟨r, args, afterAtom, last, hargs, rfl⟩
    next => cases h
  · obtain ⟨rfl, -⟩ := Prod.mk.inj (Except.ok.inj h)
    exact .inl (atom_cases hatom)

theorem arguments_cases {args : List Expr} {rest : ts.After}
    (h : arguments o depth ts = .ok (args, rest)) :
    args = [] ∨ ∃ inside : ts.After, ∃ last : inside.1.After,
      expressions o (depth + 1) inside.1 = .ok (args, last) := by
  rw [arguments] at h
  simp only [bind_eq_ok_iff] at h
  obtain ⟨-, -, inside, -, close, -, h⟩ := h
  cases close with
  | some after =>
    obtain ⟨rfl, -⟩ := Prod.mk.inj (Except.ok.inj h)
    exact .inl rfl
  | none =>
    simp only at h
    split at h
    · simp only [bind_eq_ok_iff] at h
      obtain ⟨star, -, close, -, h⟩ := h
      obtain ⟨rfl, -⟩ := Prod.mk.inj (Except.ok.inj h)
      exact .inl rfl
    · simp only [bind_eq_ok_iff] at h
      obtain ⟨⟨list, last⟩, hlist, close, -, h⟩ := h
      obtain ⟨rfl, -⟩ := Prod.mk.inj (Except.ok.inj h)
      exact .inr ⟨inside, last, hlist⟩

/-! ### Expressions -/

/-- An expression has the nodes that were read; wildcards are alone in it. -/
theorem expression_cases {wildcard : Bool} {e : Expr} {rest : ts.After}
    (h : expression o depth wildcard ts = .ok (e, rest)) :
    ∃ nodes source offset, operands o depth false ts = .ok (nodes, rest) ∧
      e = .ofNodes nodes source offset := by
  rw [expression] at h
  simp only [bind_eq_ok_iff] at h
  obtain ⟨⟨nodes, last⟩, hnodes, h⟩ := h
  split at h
  · cases h
  · obtain ⟨rfl, rfl⟩ := Prod.mk.inj (Except.ok.inj h)
    exact ⟨nodes, _, _, hnodes, rfl⟩

theorem expressions_cases {es : List Expr} {rest : ts.After}
    (h : expressions o depth ts = .ok (es, rest)) :
    ∃ e, ∃ afterFirst : ts.After, expression o depth false ts = .ok (e, afterFirst) ∧
      (es = [e] ∨ ∃ more, ∃ afterComma : ts.After, ∃ last : afterComma.1.After,
        expressions o depth afterComma.1 = .ok (more, last) ∧ es = e :: more) := by
  rw [expressions] at h
  simp only [bind_eq_ok_iff] at h
  obtain ⟨⟨e, afterFirst⟩, he, comma, -, h⟩ := h
  refine ⟨e, afterFirst, he, ?_⟩
  cases comma with
  | none =>
    obtain ⟨rfl, -⟩ := Prod.mk.inj (Except.ok.inj h)
    exact .inl rfl
  | some afterComma =>
    simp only [bind_eq_ok_iff] at h
    obtain ⟨⟨more, last⟩, hmore, h⟩ := h
    obtain ⟨rfl, -⟩ := Prod.mk.inj (Except.ok.inj h)
    exact .inr ⟨more, afterComma.since afterFirst.2, last, hmore, rfl⟩

/-- An output is a lone wildcard or an expression, and a wildcard has no alias. -/
theorem output_cases {e : Expr} {rest : ts.After} (h : output o depth ts = .ok (e, rest)) :
    (e.isWildcard = true → e.aliasName = none) ∧
      ((∃ r, e.nodes = [.column r]) ∨ ∃ nodes, ∃ last : ts.After,
        operands o depth false ts = .ok (nodes, last) ∧ e.nodes = nodes) := by
  rw [output] at h
  simp only [bind_eq_ok_iff] at h
  obtain ⟨⟨e', afterExpr⟩, he', h⟩ := h
  have hshape : e'.aliasName = none ∧
      ((∃ r, e'.nodes = [.column r]) ∨ ∃ nodes, ∃ last : ts.After,
        operands o depth false ts = .ok (nodes, last) ∧ e'.nodes = nodes) := by
    obtain ⟨star, -, he'⟩ := he'
    cases star with
    | some after =>
      obtain ⟨rfl, -⟩ := Prod.mk.inj (Except.ok.inj he')
      exact ⟨rfl, .inl ⟨_, rfl⟩⟩
    | none =>
      obtain ⟨nodes, source, offset, hnodes, rfl⟩ := expression_cases he'
      exact ⟨rfl, .inr ⟨nodes, _, hnodes, rfl⟩⟩
  split at h
  · cases h
  next hplain =>
    simp only [bind_eq_ok_iff] at h
    obtain ⟨word, hword, h⟩ := h
    cases word with
    | none =>
      obtain ⟨rfl, -⟩ := Prod.mk.inj (Except.ok.inj h)
      exact ⟨fun _ => hshape.1, hshape.2⟩
    | some afterAs =>
      simp only [bind_eq_ok_iff] at h
      obtain ⟨⟨name, last⟩, -, h⟩ := h
      obtain ⟨rfl, -⟩ := Prod.mk.inj (Except.ok.inj h)
      refine ⟨fun hwildcard => absurd ?_ hplain, hshape.2⟩
      rw [Bool.and_eq_true]
      exact ⟨takeIf_some hword, hwildcard⟩

theorem outputs_cases {es : List Expr} {rest : ts.After}
    (h : outputs o depth ts = .ok (es, rest)) :
    ∃ e, ∃ afterFirst : ts.After, output o depth ts = .ok (e, afterFirst) ∧
      (es = [e] ∨ ∃ more, ∃ afterComma : ts.After, ∃ last : afterComma.1.After,
        outputs o depth afterComma.1 = .ok (more, last) ∧ es = e :: more) := by
  rw [outputs] at h
  simp only [bind_eq_ok_iff] at h
  obtain ⟨⟨e, afterFirst⟩, he, comma, -, h⟩ := h
  refine ⟨e, afterFirst, he, ?_⟩
  cases comma with
  | none =>
    obtain ⟨rfl, -⟩ := Prod.mk.inj (Except.ok.inj h)
    exact .inl rfl
  | some afterComma =>
    simp only [bind_eq_ok_iff] at h
    obtain ⟨⟨more, last⟩, hmore, h⟩ := h
    obtain ⟨rfl, -⟩ := Prod.mk.inj (Except.ok.inj h)
    exact .inr ⟨more, afterComma.since afterFirst.2, last, hmore, rfl⟩

theorem orderKeys_cases {keys : List OrderKey} {rest : ts.After}
    (h : orderKeys o depth ts = .ok (keys, rest)) :
    ∃ e ascending, ∃ afterFirst : ts.After, expression o depth false ts = .ok (e, afterFirst) ∧
      (keys = [⟨e, ascending⟩] ∨ ∃ more, ∃ afterComma : ts.After, ∃ last : afterComma.1.After,
        orderKeys o depth afterComma.1 = .ok (more, last) ∧ keys = ⟨e, ascending⟩ :: more) := by
  rw [orderKeys] at h
  simp only [bind_eq_ok_iff] at h
  obtain ⟨⟨e, afterFirst⟩, he, ⟨ascending, afterKey⟩, -, comma, -, h⟩ := h
  refine ⟨e, ascending, afterFirst, he, ?_⟩
  cases comma with
  | none =>
    obtain ⟨rfl, -⟩ := Prod.mk.inj (Except.ok.inj h)
    exact .inl rfl
  | some afterComma =>
    simp only [bind_eq_ok_iff] at h
    obtain ⟨⟨more, last⟩, hmore, h⟩ := h
    obtain ⟨rfl, -⟩ := Prod.mk.inj (Except.ok.inj h)
    have hlt : afterComma.1.length < ts.length :=
      Nat.lt_of_lt_of_le afterComma.2 (Nat.le_trans afterKey.2 (Nat.le_of_lt afterFirst.2))
    exact .inr ⟨more, ⟨afterComma.1, hlt⟩, last, hmore, rfl⟩

theorem clause_cases {word : Keyword} {filter : Option Expr} {rest : ts.UpTo}
    (h : clause o depth word ts = .ok (filter, rest)) :
    filter = none ∨ ∃ e, ∃ after : ts.After, ∃ last : after.1.After,
      expression o depth false after.1 = .ok (e, last) ∧ filter = some e := by
  rw [clause] at h
  simp only [bind_eq_ok_iff] at h
  obtain ⟨word, -, h⟩ := h
  cases word with
  | none =>
    obtain ⟨rfl, -⟩ := Prod.mk.inj (Except.ok.inj h)
    exact .inl rfl
  | some after =>
    simp only [bind_eq_ok_iff] at h
    obtain ⟨⟨e, last⟩, he, h⟩ := h
    obtain ⟨rfl, -⟩ := Prod.mk.inj (Except.ok.inj h)
    exact .inr ⟨e, after, last, he, rfl⟩

/-! ### Sources and SELECT -/

theorem source_cases {s : Source} {rest : ts.After} (h : source o depth ts = .ok (s, rest)) :
    (∃ name aliasName id offset, s = .table name aliasName id offset) ∨
      ∃ q aliasName offset, ∃ inside : ts.After, ∃ last : inside.1.After,
        select o (depth + 1) inside.1 = .ok (q, last) ∧ s = .select q aliasName offset := by
  rw [source] at h
  split at h
  · simp only [bind_eq_ok_iff] at h
    obtain ⟨-, -, inside, -, ⟨q, afterSelect⟩, hq, close, -, ⟨name, last⟩, -, h⟩ := h
    obtain ⟨rfl, -⟩ := Prod.mk.inj (Except.ok.inj h)
    exact .inr ⟨q, name, _, inside, afterSelect, hq, rfl⟩
  · simp only [bind_eq_ok_iff] at h
    obtain ⟨⟨table, afterName⟩, -, ⟨name, last⟩, -, h⟩ := h
    obtain ⟨rfl, -⟩ := Prod.mk.inj (Except.ok.inj h)
    exact .inl ⟨table, name, _, _, rfl⟩

theorem joins_cases {js : List Join} {rest : ts.UpTo} (h : joins o depth ts = .ok (js, rest)) :
    js = [] ∨ ∃ s kind condition more, ∃ afterKind : ts.After, ∃ afterSource : afterKind.1.After,
      ∃ afterOn : ts.After, ∃ last : afterOn.1.UpTo,
        source o depth afterKind.1 = .ok (s, afterSource) ∧
        (condition = none ∨ ∃ e, ∃ afterWord : ts.After, ∃ last : afterWord.1.After,
          expression o depth false afterWord.1 = .ok (e, last) ∧ condition = some e) ∧
        joins o depth afterOn.1 = .ok (more, last) ∧ js = ⟨s, kind, condition⟩ :: more := by
  rw [joins] at h
  simp only [bind_eq_ok_iff] at h
  obtain ⟨kind, -, h⟩ := h
  cases kind with
  | none =>
    obtain ⟨rfl, -⟩ := Prod.mk.inj (Except.ok.inj h)
    exact .inl rfl
  | some found =>
    obtain ⟨kind, afterKind⟩ := found
    simp only [bind_eq_ok_iff] at h
    obtain ⟨⟨s, afterSource⟩, hs, ⟨condition, afterOn⟩, hcondition, ⟨more, last⟩, hmore, h⟩ := h
    obtain ⟨rfl, -⟩ := Prod.mk.inj (Except.ok.inj h)
    have hsource : afterSource.1.length < ts.length := Nat.lt_trans afterSource.2 afterKind.2
    have hon : afterOn.1.length < ts.length := Nat.lt_of_le_of_lt afterOn.2 hsource
    refine .inr ⟨s, kind, condition, more, afterKind, afterSource, ⟨afterOn.1, hon⟩, last, hs, ?_,
      hmore, rfl⟩
    obtain ⟨word, -, hcondition⟩ := hcondition
    cases word with
    | none =>
      obtain ⟨rfl, -⟩ := Prod.mk.inj (Except.ok.inj hcondition)
      exact .inl rfl
    | some afterWord =>
      simp only [bind_eq_ok_iff] at hcondition
      obtain ⟨⟨e, lastExpr⟩, he, hcondition⟩ := hcondition
      obtain ⟨rfl, -⟩ := Prod.mk.inj (Except.ok.inj hcondition)
      exact .inr ⟨e, afterWord.since hsource, lastExpr, he, rfl⟩

/-- The parts of a SELECT, each with the reader that read it. -/
structure Clauses (o : ParserOptions) (depth : Nat) (ts : Tokens) (s : Select) : Prop where
  output : ∃ t : ts.After, ∃ last : t.1.After, outputs o depth t.1 = .ok (s.output, last)
  origin : (s.origin = none ∧ s.joins = []) ∨ ∃ q, s.origin = some q ∧
    (∃ t : ts.After, ∃ last : t.1.After, source o depth t.1 = .ok (q, last)) ∧
    ∃ t : ts.After, ∃ last : t.1.UpTo, Read.joins o depth t.1 = .ok (s.joins, last)
  filter : ∃ t : ts.After, ∃ last : t.1.UpTo, clause o depth .whereWord t.1 = .ok (s.filter, last)
  groupBy : s.groupBy = [] ∨ ∃ t : ts.After, ∃ last : t.1.After,
    expressions o depth t.1 = .ok (s.groupBy, last)
  orderBy : s.orderBy = [] ∨ ∃ t : ts.After, ∃ last : t.1.After,
    orderKeys o depth t.1 = .ok (s.orderBy, last)

theorem select_clauses {s : Select} {rest : ts.After} (h : select o depth ts = .ok (s, rest)) :
    Clauses o depth ts s := by
  rw [select] at h
  simp only [bind_eq_ok_iff] at h
  obtain ⟨t₁, -, ⟨distinct, t₂⟩, -, ⟨output, t₃⟩, houtput, ⟨⟨origin, joined⟩, t₄⟩, horigin,
    ⟨filter, t₅⟩, hfilter, ⟨groupBy, t₆⟩, hgroup, ⟨orderBy, t₇⟩, horder, ⟨limit, t₈⟩, -, h⟩ := h
  obtain ⟨rfl, -⟩ := Prod.mk.inj (Except.ok.inj h)
  have h₂ : t₂.1.length < ts.length := Nat.lt_of_le_of_lt t₂.2 t₁.2
  have h₃ : t₃.1.length < ts.length := Nat.lt_trans t₃.2 h₂
  have h₄ : t₄.1.length < ts.length := Nat.lt_of_le_of_lt t₄.2 h₃
  have h₅ : t₅.1.length < ts.length := Nat.lt_of_le_of_lt t₅.2 h₄
  have h₆ : t₆.1.length < ts.length := Nat.lt_of_le_of_lt t₆.2 h₅
  refine ⟨⟨⟨t₂.1, h₂⟩, t₃, houtput⟩, ?_, ⟨⟨t₄.1, h₄⟩, t₅, hfilter⟩, ?_, ?_⟩
  · obtain ⟨word, -, horigin⟩ := horigin
    cases word with
    | none =>
      obtain ⟨hjoin, -⟩ := Prod.mk.inj (Except.ok.inj horigin)
      obtain ⟨rfl, rfl⟩ := Prod.mk.inj hjoin
      exact .inl ⟨rfl, rfl⟩
    | some afterWord =>
      simp only [bind_eq_ok_iff] at horigin
      obtain ⟨⟨first, afterSource⟩, hfirst, ⟨more, last⟩, hmore, horigin⟩ := horigin
      obtain ⟨hjoin, -⟩ := Prod.mk.inj (Except.ok.inj horigin)
      obtain ⟨rfl, rfl⟩ := Prod.mk.inj hjoin
      have hword : afterWord.1.length < ts.length := Nat.lt_trans afterWord.2 h₃
      have hsource : afterSource.1.length < ts.length := Nat.lt_trans afterSource.2 hword
      exact .inr ⟨first, rfl, ⟨⟨afterWord.1, hword⟩, afterSource, hfirst⟩,
        ⟨afterSource.1, hsource⟩, last, hmore⟩
  · obtain ⟨word, -, hgroup⟩ := hgroup
    cases word with
    | none =>
      obtain ⟨rfl, -⟩ := Prod.mk.inj (Except.ok.inj hgroup)
      exact .inl rfl
    | some afterWord =>
      simp only [bind_eq_ok_iff] at hgroup
      obtain ⟨afterBy, -, ⟨list, last⟩, hlist, hgroup⟩ := hgroup
      obtain ⟨rfl, -⟩ := Prod.mk.inj (Except.ok.inj hgroup)
      exact .inr ⟨⟨afterBy.1, Nat.lt_trans afterBy.2 (Nat.lt_trans afterWord.2 h₅)⟩, last, hlist⟩
  · obtain ⟨word, -, horder⟩ := horder
    cases word with
    | none =>
      obtain ⟨rfl, -⟩ := Prod.mk.inj (Except.ok.inj horder)
      exact .inl rfl
    | some afterWord =>
      simp only [bind_eq_ok_iff] at horder
      obtain ⟨afterBy, -, ⟨list, last⟩, hlist, horder⟩ := horder
      obtain ⟨rfl, -⟩ := Prod.mk.inj (Except.ok.inj horder)
      exact .inr ⟨⟨afterBy.1, Nat.lt_trans afterBy.2 (Nat.lt_trans afterWord.2 h₆)⟩, last, hlist⟩

end Read

end SqlEngine

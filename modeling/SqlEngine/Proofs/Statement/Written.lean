import SqlEngine.Proofs.Statement.Layout
import SqlEngine.Proofs.Statement.Nesting
import SqlEngine.Proofs.Token.Spelling

/-!
# Statements — written expressions

Expressions as they can be written: operands with operators between them, where an operand is a
value, a column, a call or an expression in parentheses.  Each is written with spaces between its
tokens, and the parser reads it back from there.

* `Written.Formula`, with `Written.Formula.expr` and `Written.Formula.text`: the expressions, what
  they stand for and how they are written.
* `Written.Formula.derives`: the tokens of an expression are the phrase that stands for it.
* `Written.Formula.parse_text`: the parser reads what was written, all of it, if it is not nested
  too deep and no function has a star for its name.
-/

namespace SqlEngine

namespace Written

/-! ### Expressions -/

/-- The text of a number, without a sign. -/
structure Numeral where
  text : String
  isNumber : Token.NumberText text.toList

/-- A name that can stand in double quotes. -/
structure Name where
  text : String
  noQuote : '"' ∉ text.toList

/-- The name of a column, and not of all columns. -/
structure ColumnName extends Name where
  notStar : text ≠ "*"

/-- The name of a function, in capitals. -/
structure FunctionName extends Name where
  capitals : Text.upper text = text

mutual

/-- One operand.  A number may have a minus in front of it. -/
inductive Operand
  | number (negative : Bool) (numeral : Numeral)
  | text (content : String)
  | boolean (value : Bool)
  | null
  | column (qualifier : Option Name) (column : ColumnName)
  | call (function : FunctionName) (arguments : Arguments)
  | group (inner : Formula)

/-- Operands with an operator between each two of them. -/
inductive Formula
  | operand (only : Operand)
  | operator (first : Operand) (op : Operator) (more : Formula)

/-- The arguments of a call. -/
inductive Arguments
  | none
  | cons (first : Formula) (more : Arguments)

end

def Numeral.value (n : Numeral) : Float :=
  (Number.ofLiteral? n.text).getD 0

theorem Numeral.ofLiteral?_text (n : Numeral) : Number.ofLiteral? n.text = some n.value := by
  obtain ⟨x, hx⟩ := Number.exists_ofLiteral? n.isNumber
  rw [String.ofList_toList] at hx
  rw [value, hx, Option.getD_some]

/-! ### What an expression stands for -/

mutual

/-- The nodes of an operand, without places. -/
def Operand.nodes : Operand → List Node
  | .number negative n => [.number (if negative then -n.value else n.value)]
  | .text content      => [.text content]
  | .boolean value     => [.boolean value]
  | .null              => [.null]
  | .column q c        => [.column { qualifier := q.map Name.text, column := c.text, offset := 0 }]
  | .call f args       => [.call ⟨f.text, args.exprs, none, .null, false, 0⟩]
  | .group inner       => .openParen :: inner.nodes ++ [.closeParen]

def Formula.nodes : Formula → List Node
  | .operand x          => x.nodes
  | .operator x op more => x.nodes ++ .operator op :: more.nodes

def Arguments.exprs : Arguments → List Expr
  | .none        => []
  | .cons f more => .ofNodes f.nodes "" 0 :: more.exprs

end

/-- The expression, without places and texts. -/
def Formula.expr (f : Formula) : Expr :=
  .ofNodes f.nodes "" 0

mutual

/-- The names of the functions that are called. -/
def Operand.functions : Operand → List String
  | .call f args => f.text :: args.functions
  | .group inner => inner.functions
  | _            => []

def Formula.functions : Formula → List String
  | .operand x         => x.functions
  | .operator x _ more => x.functions ++ more.functions

def Arguments.functions : Arguments → List String
  | .none        => []
  | .cons f more => f.functions ++ more.functions

end

/-! ### How an expression is written -/

/-- The token that an operator is. -/
def operatorToken : Operator → Token
  | .plus         => .mark .plus
  | .minus        => .mark .minus
  | .times        => .mark .star
  | .divide       => .mark .slash
  | .power        => .mark .caret
  | .remainder    => .mark .percent
  | .concat       => .mark .bars
  | .equal        => .mark .equal
  | .notEqual     => .mark .lessGreater
  | .less         => .mark .less
  | .greater      => .mark .greater
  | .lessEqual    => .mark .lessEqual
  | .greaterEqual => .mark .greaterEqual
  | .and          => .keyword .and
  | .or           => .keyword .or

theorem spelled_operatorToken (op : Operator) : (operatorToken op).spelled = op.symbol := by
  cases op <;> rfl

mutual

def Operand.tokens : Operand → List Token
  | .number false n    => [.number n.text]
  | .number true n     => [.mark .minus, .number n.text]
  | .text content      => [.string content true]
  | .boolean true      => [.keyword .trueWord]
  | .boolean false     => [.keyword .falseWord]
  | .null              => [.keyword .null]
  | .column none c     => [.name c.text true]
  | .column (some q) c => [.name q.text true, .dot, .name c.text true]
  | .call f args       =>
    .name f.text true :: .mark .openParen :: args.tokens ++ [.mark .closeParen]
  | .group inner       => .mark .openParen :: inner.tokens ++ [.mark .closeParen]

def Formula.tokens : Formula → List Token
  | .operand x          => x.tokens
  | .operator x op more => x.tokens ++ operatorToken op :: more.tokens

def Arguments.tokens : Arguments → List Token
  | .none        => []
  | .cons f more => f.tokens ++ more.tokensBehind

/-- The tokens of further arguments, with a comma in front of each. -/
def Arguments.tokensBehind : Arguments → List Token
  | .none        => []
  | .cons f more => .comma :: f.tokens ++ more.tokensBehind

end

/-- The text of an expression. -/
def Formula.text (f : Formula) : String :=
  Token.spaced f.tokens

/-! ### The tokens -/

theorem writable_operatorToken (op : Operator) : (operatorToken op).Writable := by
  cases op <;> trivial

mutual

theorem Operand.writable : ∀ (x : Operand), ∀ t ∈ x.tokens, t.Writable
  | .number false n => List.forall_mem_singleton.2 n.isNumber
  | .number true n =>
    List.forall_mem_cons.2 ⟨trivial, List.forall_mem_singleton.2 n.isNumber⟩
  | .text _ => List.forall_mem_singleton.2 rfl
  | .boolean true | .boolean false | .null => List.forall_mem_singleton.2 trivial
  | .column none c => List.forall_mem_singleton.2 ⟨rfl, c.noQuote⟩
  | .column (some q) c => List.forall_mem_cons.2 ⟨⟨rfl, q.noQuote⟩,
      List.forall_mem_cons.2 ⟨trivial, List.forall_mem_singleton.2 ⟨rfl, c.noQuote⟩⟩⟩
  | .call f args => List.forall_mem_cons.2 ⟨⟨rfl, f.noQuote⟩, List.forall_mem_cons.2 ⟨trivial,
      List.forall_mem_append.2 ⟨args.writable, List.forall_mem_singleton.2 trivial⟩⟩⟩
  | .group inner => List.forall_mem_cons.2 ⟨trivial,
      List.forall_mem_append.2 ⟨inner.writable, List.forall_mem_singleton.2 trivial⟩⟩

theorem Formula.writable : ∀ (f : Formula), ∀ t ∈ f.tokens, t.Writable
  | .operand x => x.writable
  | .operator x op more => List.forall_mem_append.2 ⟨x.writable,
      List.forall_mem_cons.2 ⟨writable_operatorToken op, more.writable⟩⟩

theorem Arguments.writable : ∀ (args : Arguments), ∀ t ∈ args.tokens, t.Writable
  | .none => List.forall_mem_nil _
  | .cons f more => List.forall_mem_append.2 ⟨f.writable, more.writableBehind⟩

theorem Arguments.writableBehind : ∀ (args : Arguments), ∀ t ∈ args.tokensBehind, t.Writable
  | .none => List.forall_mem_nil _
  | .cons f more => List.forall_mem_cons.2 ⟨trivial,
      List.forall_mem_append.2 ⟨f.writable, more.writableBehind⟩⟩

end

/-- An expression starts with a token that no other phrase in parentheses starts with. -/
def startsOperand (t : Token) : Bool :=
  t != .mark .closeParen && t != .mark .star && t != .keyword .select

theorem Operand.exists_tokens (x : Operand) : ∃ t more, x.tokens = t :: more ∧
    startsOperand t = true := by
  match x with
  | .number false _ | .number true _ | .text _ | .boolean true | .boolean false | .null
  | .column none _ | .column (some _) _ | .call .. | .group _ => exact ⟨_, _, rfl, rfl⟩

theorem Formula.exists_tokens (f : Formula) : ∃ t more, f.tokens = t :: more ∧
    startsOperand t = true := by
  cases f with
  | operand x => exact x.exists_tokens
  | operator x op more =>
    obtain ⟨t, behind, ht, hstarts⟩ := x.exists_tokens
    exact ⟨t, behind ++ operatorToken op :: more.tokens, by rw [tokens, ht]; rfl, hstarts⟩

/-! ### The nodes -/

mutual

theorem Operand.balanced : ∀ x : Operand, Node.Balanced x.nodes
  | .number .. | .text _ | .boolean _ | .null | .column .. => Node.balanced_leaf rfl
  | .call .. => .single rfl
  | .group inner => inner.balanced.group

theorem Formula.balanced : ∀ f : Formula, Node.Balanced f.nodes
  | .operand x => x.balanced
  | .operator x _ more => x.balanced.append more.balanced.operator

end

theorem Formula.nesting_expr (f : Formula) : f.expr.nesting = Node.nestingFrom 0 f.nodes :=
  Expr.nesting_eq f.expr

theorem nesting_operator (x : Operand) (op : Operator) (more : Formula) :
    Node.nestingFrom 0 (Formula.operator x op more).nodes =
      max (Node.nestingFrom 0 x.nodes) (Node.nestingFrom 0 more.nodes) :=
  x.balanced.nesting_append

theorem nesting_group (inner : Formula) :
    Node.nestingFrom 0 (Operand.group inner).nodes = Node.nestingFrom 0 inner.nodes + 1 :=
  inner.balanced.nesting_group

theorem nesting_call (f : FunctionName) (args : Arguments) :
    Node.nestingFrom 0 (Operand.call f args).nodes = Expr.nestingAll args.exprs + 1 := by
  simp [Operand.nodes, Node.nestingFrom, Call.nesting]

mutual

theorem Operand.wildcard_nodes : ∀ x : Operand, x.nodes.any Node.isWildcard = false
  | .number .. | .text _ | .boolean _ | .null | .call .. => rfl
  | .column q c => by
    simp [Operand.nodes, Node.isWildcard, ColumnRef.isWildcard, c.notStar]
  | .group inner => by
    have ih := inner.wildcard_nodes
    rw [Operand.nodes, List.any_append, List.any_cons, ih]
    rfl

theorem Formula.wildcard_nodes : ∀ f : Formula, f.nodes.any Node.isWildcard = false
  | .operand x => x.wildcard_nodes
  | .operator x op more => by
    rw [Formula.nodes, List.any_append, List.any_cons, x.wildcard_nodes, more.wildcard_nodes]
    rfl

end

/-! ### Phrases -/

open Read (Gives)

section Phrases

variable {o : ParserOptions} {nested : Bool} {depth : Nat} {ts : Tokens} {tokens left : List Token}

/-- Neither arguments nor a dot come next, which would go on an operand. -/
structure EndsOperand (tokens : List Token) : Prop where
  notOpen : .mark .openParen ∉ tokens.head?
  notDot : .dot ∉ tokens.head?

/-- Behind an expression stand tokens that end it, and other tokens are left then. -/
structure Stops (o : ParserOptions) (nested : Bool) (depth : Nat) (tokens left : List Token) :
    Prop where
  ends : ∀ {ts : Tokens}, ts.Lists tokens →
    ∃ rest, Derives o (.following nested) depth ts [] rest ∧ rest.Lists left
  endsOperand : EndsOperand tokens

/-- The end of the text. -/
theorem Stops.finish (o : ParserOptions) (depth : Nat) : Stops o false depth [] [] where
  ends h := ⟨_, .ends (by rw [h.current_nil]; rfl), h⟩
  endsOperand := ⟨nofun, nofun⟩

/-- A token that ends an expression and is left. -/
theorem Stops.before {t : Token} (ht : t.ends = true) (hdot : t ≠ .dot) (tokens : List Token) :
    Stops o false depth (t :: tokens) (t :: tokens) where
  ends h := ⟨_, .ends (by rw [h.current]; exact ht), h⟩
  endsOperand := by
    constructor
    · rintro ⟨⟩
      cases ht
    · rintro ⟨⟩
      exact hdot rfl

/-- The closing parenthesis of a group. -/
theorem Stops.close (tokens : List Token) :
    Stops o true depth (.mark .closeParen :: tokens) tokens where
  ends h := by
    obtain ⟨rest, htake, hrest⟩ := h.takes (p := (· == .mark .closeParen)) (beq_self_eq_true _)
    exact ⟨rest, .closes htake, hrest⟩
  endsOperand := ⟨nofun, nofun⟩

/-- The tokens in front of others are an operand that stands for the nodes. -/
def IsOperand (o : ParserOptions) (nested : Bool) (depth : Nat) (ts : Tokens)
    (tokens : List Token) (nodes : List Node) : Prop :=
  ∃ (found : List Node) (rest : Tokens), Derives o (.operand nested) depth ts found rest ∧
    rest.Lists tokens ∧ Node.retoldAll .bare found = nodes

/-- An operand that no arguments follow. -/
theorem isOperand_of_atom {found nodes : List Node} {rest : Tokens}
    (h : Derives o (.atom nested) depth ts found rest) (hrest : rest.Lists tokens)
    (hends : EndsOperand tokens) (hfound : Node.retoldAll .bare found = nodes) :
    IsOperand o nested depth ts tokens nodes :=
  ⟨found, rest, .operand h (hrest.current_ne nofun hends.notOpen), hrest, hfound⟩

theorem isOperand_of_value {t : Token} {n : Node} (hvalue : t.value? = some n)
    (h : ts.Lists (t :: tokens)) (hends : EndsOperand tokens)
    (hn : n.retold .bare = n) : IsOperand o nested depth ts tokens [n] := by
  obtain ⟨rest, htake, hrest⟩ := h.takes (p := fun _ => true) rfl
  have hatom : Derives o (.atom nested) depth ts [n] rest :=
    .value (by rw [h.current]; exact hvalue) htake
  exact isOperand_of_atom hatom hrest hends (congrArg (· :: []) hn)

theorem isOperand_of_negative (n : Numeral)
    (h : ts.Lists (.mark .minus :: .number n.text :: tokens))
    (hends : EndsOperand tokens) :
    IsOperand o nested depth ts tokens [.number (-n.value)] := by
  obtain ⟨t, htake, ht⟩ := h.takes (p := (· == .mark .minus)) (beq_self_eq_true _)
  obtain ⟨rest, hnumber, hrest⟩ := ht.takes (p := fun _ => true) rfl
  exact isOperand_of_atom (.negative htake ht.current n.ofLiteral?_text hnumber) hrest hends rfl

/-- A name alone is a column. -/
theorem exists_column {name : String} (h : ts.Lists (.name name true :: tokens))
    (hdot : .dot ∉ tokens.head?) : ∃ offset rest,
      Derives o (.atom nested) depth ts
        [.column { qualifier := none, column := name, offset }] rest ∧ rest.Lists tokens := by
  generalize hall : Token.name name true :: tokens = all at h
  cases h with
  | finish => cases hall
  | @next l rest _ _ hrest =>
    obtain ⟨hl, rfl⟩ := List.cons.inj hall
    have hcolumn : Gives (Read.column l rest)
        { qualifier := none, column := name, offset := l.start } rest := by
      refine Read.gives_column.2 ⟨hrest.check, .inl ⟨hrest.lacks fun t ht => ?_, rfl, ?_⟩⟩
      · exact beq_eq_false_iff_ne.2 fun hdot' => hdot (hdot' ▸ ht)
      · rw [← hl]
        rfl
    refine ⟨l.start, rest, .reference (by rw [← hl]; rfl) ?_ hcolumn, hrest⟩
    rintro word hword
    cases hl.trans hword

theorem isOperand_of_qualified {qualifier name : String}
    (h : ts.Lists (.name qualifier true :: .dot :: .name name true :: tokens))
    (hends : EndsOperand tokens) : IsOperand o nested depth ts tokens
      [.column { qualifier := some qualifier, column := name, offset := 0 }] := by
  generalize hall : Token.name qualifier true :: .dot :: .name name true :: tokens = all at h
  cases h with
  | finish => cases hall
  | @next l t _ _ ht =>
    obtain ⟨hl, rfl⟩ := List.cons.inj hall
    obtain ⟨t', hdot, ht'⟩ := ht.takes (p := (· == .dot)) (beq_self_eq_true _)
    obtain ⟨rest, hname, hrest⟩ := ht'.takes (p := Token.isName) rfl
    have hstar : t'.Lacks (· == .mark .star) := ht'.lacks (by rintro _ ⟨⟩; rfl)
    have hcolumn : Gives (Read.column l t)
        { qualifier := some qualifier, column := name, offset := l.start } rest := by
      refine Read.gives_column.2 ⟨ht.check, .inr ⟨t', hdot, .inr ⟨hstar, hname, ?_⟩⟩⟩
      rw [ht'.current, ← hl]
      rfl
    have hatom : Derives o (.atom nested) depth (.next l t)
        [.column { qualifier := some qualifier, column := name, offset := l.start }] rest := by
      refine .reference (by rw [← hl]; rfl) ?_ hcolumn
      rintro word hword
      cases hl.trans hword
    exact isOperand_of_atom hatom hrest hends rfl

/-- The arguments of a call stand for the expressions. -/
def IsArguments (o : ParserOptions) (depth : Nat) (ts : Tokens) (tokens : List Token)
    (args : List Expr) : Prop :=
  ∃ (found : List Expr) (rest : Tokens), Derives o .arguments depth ts found rest ∧
    rest.Lists tokens ∧ Expr.retoldAll .bare found = args

theorem isOperand_of_call {f : FunctionName} {args : List Expr} {behind : List Token}
    (hf : f.text ≠ "*") (h : ts.Lists (.name f.text true :: .mark .openParen :: behind))
    (hargs : ∀ {ts : Tokens}, ts.Lists (.mark .openParen :: behind) →
      IsArguments o depth ts tokens args)
    (hends : EndsOperand tokens) :
    IsOperand o nested depth ts tokens [.call ⟨f.text, args, none, .null, false, 0⟩] := by
  obtain ⟨offset, t, hatom, ht⟩ : ∃ (offset : Nat) (t : Tokens),
      Derives o (.atom nested) depth ts
        [.column { qualifier := none, column := f.text, offset }] t ∧
          t.Lists (.mark .openParen :: behind) := exists_column h nofun
  obtain ⟨found, rest, hfound, hrest, rfl⟩ := hargs ht
  have hname : Read.functionName? [.column { qualifier := none, column := f.text, offset }] =
      some { qualifier := none, column := f.text, offset } := by
    simp [Read.functionName?, ColumnRef.isWildcard, hf]
  refine ⟨_, rest, .call hatom hname hfound (hrest.current_ne nofun hends.notOpen), hrest, ?_⟩
  simp only [Read.callOf, f.capitals, Node.retoldAll, Node.retold, Call.retold]
  rfl

/-- The tokens in front of others are an expression that stands for the nodes. -/
def IsFormula (o : ParserOptions) (nested : Bool) (depth : Nat) (ts : Tokens)
    (left : List Token) (nodes : List Node) : Prop :=
  ∃ (found : List Node) (rest : Tokens), Derives o (.operands nested) depth ts found rest ∧
    rest.Lists left ∧ Node.retoldAll .bare found = nodes

theorem IsFormula.of_operand {nodes : List Node} (h : IsOperand o nested depth ts tokens nodes)
    (hstops : Stops o nested depth tokens left) : IsFormula o nested depth ts left nodes := by
  obtain ⟨found, t, hoperand, ht, rfl⟩ := h
  obtain ⟨rest, hends, hrest⟩ := hstops.ends ht
  exact ⟨found ++ [], rest, .operands hoperand hends, hrest, by rw [List.append_nil]⟩

theorem operator?_operatorToken (op : Operator) : (operatorToken op).operator? = some op := by
  cases op <;> rfl

theorem endsOperand_operatorToken (op : Operator) (tokens : List Token) :
    EndsOperand (operatorToken op :: tokens) := by
  cases op <;> exact ⟨nofun, nofun⟩

theorem IsFormula.of_operator {first more : List Node} {op : Operator}
    (h : IsOperand o nested depth ts (operatorToken op :: tokens) first)
    (hmore : ∀ {ts : Tokens}, ts.Lists tokens → IsFormula o nested depth ts left more) :
    IsFormula o nested depth ts left (first ++ .operator op :: more) := by
  obtain ⟨found, t, hoperand, ht, rfl⟩ := h
  obtain ⟨t', htake, ht'⟩ := ht.takes (p := (·.operator? == some op))
    (beq_iff_eq.2 (operator?_operatorToken op))
  obtain ⟨found', rest, hoperands, hrest, rfl⟩ := hmore ht'
  refine ⟨_, rest, .operands hoperand (.operator htake hoperands), hrest, ?_⟩
  simp only [Node.retoldAll_eq_map, List.map_append, List.map_cons, Node.retold]

theorem isOperand_of_group {nodes : List Node} {behind : List Token} {t : Token}
    (hdepth : depth < o.maxDepth) (h : ts.Lists (.mark .openParen :: t :: behind))
    (ht : startsOperand t = true)
    (hinner : ∀ {ts : Tokens}, ts.Lists (t :: behind) →
      IsFormula o true (depth + 1) ts tokens nodes)
    (hends : EndsOperand tokens) :
    IsOperand o nested depth ts tokens (.openParen :: nodes ++ [.closeParen]) := by
  obtain ⟨inside, htake, hinside⟩ := h.takes (p := (· == .mark .openParen)) (beq_self_eq_true _)
  obtain ⟨found, rest, hoperands, hrest, rfl⟩ := hinner hinside
  have hplain : inside.current ≠ .keyword .select := by
    rw [hinside.current]
    rintro rfl
    cases ht
  have hnodes : Node.retoldAll .bare (.openParen :: found ++ [.closeParen]) =
      .openParen :: Node.retoldAll .bare found ++ [.closeParen] := by
    simp only [Node.retoldAll_eq_map, List.map_append, List.map_cons, Node.retold, List.map_nil]
  exact isOperand_of_atom (.group hdepth htake hplain hoperands) hrest hends hnodes

/-- Nodes without wildcards are an expression. -/
theorem IsFormula.exists_expression {f : Formula} (h : IsFormula o false depth ts left f.nodes)
    (wildcard : Bool) : ∃ (e : Expr) (rest : Tokens),
      Derives o (.expression wildcard) depth ts e rest ∧ rest.Lists left ∧
        e.retold .bare = f.expr := by
  obtain ⟨found, rest, hoperands, hrest, hfound⟩ := h
  have hretold : (Expr.ofNodes found (ts.textUntil rest) ts.start).retold .bare = f.expr :=
    congrArg (Expr.ofNodes · "" 0) hfound
  refine ⟨_, rest, .expression hoperands fun hwildcard => ?_, hrest, hretold⟩
  rw [← Expr.containsWildcard_retold .bare, hretold] at hwildcard
  exact absurd f.wildcard_nodes (by rw [show f.nodes.any _ = true from hwildcard]; nofun)

theorem isArguments_nil (hdepth : depth < o.maxDepth)
    (h : ts.Lists (.mark .openParen :: .mark .closeParen :: tokens)) :
    IsArguments o depth ts tokens [] := by
  obtain ⟨t, htake, ht⟩ := h.takes (p := (· == .mark .openParen)) (beq_self_eq_true _)
  obtain ⟨rest, hclose, hrest⟩ := ht.takes (p := (· == .mark .closeParen)) (beq_self_eq_true _)
  exact ⟨[], rest, .noArguments hdepth htake hclose, hrest, rfl⟩

/-- The tokens in front of a closing parenthesis are arguments with commas between them. -/
def IsList (o : ParserOptions) (depth : Nat) (ts : Tokens) (tokens : List Token)
    (args : List Expr) : Prop :=
  ∃ (found : List Expr) (rest : Tokens), Derives o (.items .plain) depth ts found rest ∧
    rest.Lists (.mark .closeParen :: tokens) ∧ Expr.retoldAll .bare found = args

theorem isArguments_of_list {args : List Expr} {behind : List Token} {t : Token}
    (hdepth : depth < o.maxDepth) (h : ts.Lists (.mark .openParen :: t :: behind))
    (ht : startsOperand t = true)
    (hlist : ∀ {ts : Tokens}, ts.Lists (t :: behind) → IsList o (depth + 1) ts tokens args) :
    IsArguments o depth ts tokens args := by
  obtain ⟨inside, htake, hinside⟩ := h.takes (p := (· == .mark .openParen)) (beq_self_eq_true _)
  obtain ⟨found, t', hitems, ht', hfound⟩ := hlist hinside
  obtain ⟨rest, hclose, hrest⟩ := ht'.takes (p := (· == .mark .closeParen)) (beq_self_eq_true _)
  refine ⟨found, rest, .arguments hdepth htake (hinside.lacks ?_) ?_ hitems hclose, hrest, hfound⟩
  · rintro _ ⟨⟩
    refine beq_eq_false_iff_ne.2 ?_
    rintro rfl
    cases ht
  · rintro ⟨hstar, -⟩
    rw [hinside.current] at hstar
    subst hstar
    cases ht

end Phrases

/-! ### Written expressions are phrases -/

section Derives

variable {o : ParserOptions}

mutual

theorem Operand.isOperand (x : Operand) (hstar : "*" ∉ x.functions) {nested : Bool} {depth : Nat}
    (hdepth : depth + Node.nestingFrom 0 x.nodes ≤ o.maxDepth) {ts : Tokens} {tokens : List Token}
    (h : ts.Lists (x.tokens ++ tokens)) (hends : EndsOperand tokens) :
    IsOperand o nested depth ts tokens x.nodes := by
  match x with
  | .number false n =>
    have hvalue : (Token.number n.text).value? = some (.number n.value) := by
      rw [Token.value?, n.ofLiteral?_text]
      rfl
    exact isOperand_of_value hvalue h hends rfl
  | .number true n => exact isOperand_of_negative n h hends
  | .text _ | .boolean true | .boolean false | .null => exact isOperand_of_value rfl h hends rfl
  | .column none c =>
    obtain ⟨offset, rest, hatom, hrest⟩ := exists_column (o := o) h hends.notDot
    exact isOperand_of_atom hatom hrest hends rfl
  | .column (some q) c => exact isOperand_of_qualified h hends
  | .call f args =>
    obtain ⟨hf, hargs⟩ := not_or.1 (mt List.mem_cons.2 hstar)
    rw [nesting_call] at hdepth
    rw [Operand.tokens, List.cons_append, List.cons_append, List.append_assoc] at h
    refine isOperand_of_call (Ne.symm hf) h (fun {ts} hts => ?_) hends
    have hlt : depth < o.maxDepth := by omega
    cases args with
    | none => exact isArguments_nil hlt hts
    | cons first more =>
      obtain ⟨t, behind, ht, hstarts⟩ := first.exists_tokens
      have hle : depth + 1 + Expr.nestingAll (Arguments.cons first more).exprs ≤ o.maxDepth := by
        omega
      have hlist {ts : Tokens} (hts : ts.Lists ((Arguments.cons first more).tokens ++
          .mark .closeParen :: tokens)) :
          IsList o (depth + 1) ts tokens (Arguments.cons first more).exprs :=
        (Arguments.cons first more).isList nofun hargs hle hts
      rw [Arguments.tokens, ht] at hts hlist
      exact isArguments_of_list hlt hts hstarts hlist
  | .group inner =>
    rw [nesting_group] at hdepth
    obtain ⟨t, behind, ht, hstarts⟩ := inner.exists_tokens
    have hlt : depth < o.maxDepth := by omega
    have hle : depth + 1 + Node.nestingFrom 0 inner.nodes ≤ o.maxDepth := by omega
    have hinner {ts : Tokens} (hts : ts.Lists (inner.tokens ++ .mark .closeParen :: tokens)) :
        IsFormula o true (depth + 1) ts tokens inner.nodes :=
      inner.isFormula hstar hle hts (.close tokens)
    rw [Operand.tokens, List.cons_append, List.cons_append, List.append_assoc, ht] at h
    rw [ht] at hinner
    exact isOperand_of_group hlt h hstarts hinner hends

theorem Formula.isFormula (f : Formula) (hstar : "*" ∉ f.functions) {nested : Bool} {depth : Nat}
    (hdepth : depth + Node.nestingFrom 0 f.nodes ≤ o.maxDepth) {ts : Tokens}
    {tokens left : List Token} (h : ts.Lists (f.tokens ++ tokens))
    (hstops : Stops o nested depth tokens left) : IsFormula o nested depth ts left f.nodes := by
  match f with
  | .operand x => exact .of_operand (x.isOperand hstar hdepth h hstops.endsOperand) hstops
  | .operator x op more =>
    obtain ⟨hx, hmore⟩ := not_or.1 (mt List.mem_append.2 hstar)
    rw [nesting_operator] at hdepth
    rw [Formula.tokens, List.append_assoc] at h
    have hfirst : IsOperand o nested depth ts (operatorToken op :: (more.tokens ++ tokens))
        x.nodes := x.isOperand hx (by omega) h (endsOperand_operatorToken op _)
    exact .of_operator hfirst fun ht => more.isFormula hmore (by omega) ht hstops

theorem Arguments.isList (args : Arguments) (hne : args ≠ .none) (hstar : "*" ∉ args.functions)
    {depth : Nat} (hdepth : depth + Expr.nestingAll args.exprs ≤ o.maxDepth) {ts : Tokens}
    {tokens : List Token} (h : ts.Lists (args.tokens ++ .mark .closeParen :: tokens)) :
    IsList o depth ts tokens args.exprs := by
  match args with
  | .none => exact absurd rfl hne
  | .cons f .none =>
    rw [Arguments.functions, Arguments.functions, List.append_nil] at hstar
    rw [Arguments.tokens, Arguments.tokensBehind, List.append_nil] at h
    have hnesting : Expr.nestingAll (Arguments.cons f .none).exprs =
        max (Node.nestingFrom 0 f.nodes) 0 := congrArg (max · 0) (Formula.nesting_expr f)
    rw [hnesting] at hdepth
    have hstops : Stops o false depth (.mark .closeParen :: tokens) (.mark .closeParen :: tokens) :=
      .before (t := .mark .closeParen) rfl nofun tokens
    obtain ⟨e, rest, hderives, hrest, he⟩ :=
      (f.isFormula hstar (by omega) h hstops).exists_expression false
    refine ⟨[e], rest, .last hderives (hrest.lacks ?_), hrest, congrArg (· :: []) he⟩
    rintro _ ⟨⟩
    rfl
  | .cons f (.cons g more) =>
    obtain ⟨hf, hmore⟩ := not_or.1 (mt List.mem_append.2 hstar)
    have hnesting : Expr.nestingAll (Arguments.cons f (.cons g more)).exprs =
        max (Node.nestingFrom 0 f.nodes) (Expr.nestingAll (Arguments.cons g more).exprs) :=
      congrArg (max · _) (Formula.nesting_expr f)
    rw [hnesting] at hdepth
    rw [Arguments.tokens, List.append_assoc] at h
    have hstops : Stops o false depth
        (.comma :: ((Arguments.cons g more).tokens ++ .mark .closeParen :: tokens))
        (.comma :: ((Arguments.cons g more).tokens ++ .mark .closeParen :: tokens)) :=
      .before (t := .comma) rfl nofun _
    obtain ⟨e, t, hderives, ht, he⟩ :=
      (f.isFormula hf (by omega) h hstops).exists_expression false
    obtain ⟨t', hcomma, ht'⟩ := ht.takes (p := (· == .comma)) rfl
    have hlist : IsList o depth t' tokens (Arguments.cons g more).exprs :=
      (Arguments.cons g more).isList nofun hmore (by omega) ht'
    obtain ⟨es, rest, hitems, hrest, hes⟩ := hlist
    refine ⟨e :: es, rest, .more hderives hcomma hitems, hrest, ?_⟩
    rw [Expr.retoldAll, he, hes]
    rfl

end

/-- **The tokens of an expression are the phrase that stands for it**, to the end of its text. -/
theorem Formula.derives (f : Formula) (wildcard : Bool) (hdepth : f.expr.nesting ≤ o.maxDepth)
    (hstar : "*" ∉ f.functions) : ∃ (e : Expr) (gap : List Char),
      Derives o (.expression wildcard) 0 (Tokens.ofText f.text) e
        (.finish gap f.text.utf8ByteSize) ∧ e.retold .bare = f.expr := by
  have hlists : (Tokens.ofText f.text).Lists (f.tokens ++ []) := by
    rw [List.append_nil]
    exact Tokens.lists_ofText f.writable
  have hle : 0 + Node.nestingFrom 0 f.nodes ≤ o.maxDepth := by
    rwa [Nat.zero_add, ← f.nesting_expr]
  obtain ⟨e, rest, hderives, hrest, he⟩ :=
    (f.isFormula hstar hle hlists (.finish o 0)).exists_expression wildcard
  cases hrest with
  | finish gap stop =>
    obtain ⟨hstop, -⟩ := (Tokens.tiles_ofChars 0 f.text.toList).finish_of_tail hderives.tail
    rw [Nat.zero_add, Text.byteLength_toList] at hstop
    exact ⟨e, gap, hstop ▸ hderives, he⟩

end Derives

/-- **The parser reads what was written.**  An expression that nests within the limit, and that
calls no function whose name is a star, is read from its text as it is, but for the places and texts
that the parser adds; and all of the text is read. -/
theorem Formula.parse_text (o : ParserOptions) (wildcard : Bool) (f : Formula)
    (hdepth : f.expr.nesting ≤ o.maxDepth) (hstar : "*" ∉ f.functions) :
    ∃ (e : Expr) (gap : List Char), Expr.parse o wildcard f.text = .ok e ∧
      e.retold .bare = f.expr ∧
        Gives (Read.expression o 0 wildcard (Tokens.ofText f.text)) e
          (.finish gap f.text.utf8ByteSize) := by
  obtain ⟨e, gap, hderives, he⟩ := f.derives wildcard hdepth hstar
  have hgives : Gives (Read.expression o 0 wildcard (Tokens.ofText f.text)) e
      (.finish gap f.text.utf8ByteSize) := hderives.reads
  obtain ⟨_, hread⟩ := Read.gives_iff.1 hgives
  have hcheck : (Tokens.ofText f.text).check = .ok () := (Tokens.lists_ofText f.writable).check
  refine ⟨e, gap, ?_, he, hgives⟩
  rw [Expr.parse]
  simp only [hcheck, hread, ok_bind]

/-- A call, a group and a negative number, with names and strings that need their quotes. -/
def mixed : Formula :=
  let size : Numeral := ⟨"1.5E+3",
    .intro (List.cons_ne_nil '1' []) (by decide) (.some (by decide : Token.Digits ['5']))
      (@Token.Exponent.some 'E' ['+'] ['3'] rfl .plus (by decide) (by decide))⟩
  let name : ColumnName := ⟨⟨"a b", by decide⟩, by decide⟩
  let count : FunctionName := ⟨⟨"COUNT", by decide⟩, by decide⟩
  .operator (.number true size) .minus <|
    .operator (.group (.operator (.column (some ⟨"t", by decide⟩) name) .concat
      (.operand (.text "it's \\")))) .notEqual <|
        .operand (.call count (.cons (.operand .null) (.cons (.operand (.boolean true)) .none)))

theorem mixed_parse_text :
    mixed.text = "- 1.5E+3 - ( \"t\" . \"a b\" || 'it\\'s \\\\' ) <> \"COUNT\" ( NULL , TRUE )" ∧
      mixed.expr.nesting ≤ ({} : ParserOptions).maxDepth ∧ "*" ∉ mixed.functions ∧
        ∃ (e : Expr) (gap : List Char), Expr.parse {} false mixed.text = .ok e ∧
          e.retold .bare = mixed.expr ∧
            Gives (Read.expression {} 0 false (Tokens.ofText mixed.text)) e
              (.finish gap mixed.text.utf8ByteSize) :=
  have hdepth : mixed.expr.nesting ≤ ({} : ParserOptions).maxDepth := by decide
  have hstar : "*" ∉ mixed.functions := by decide
  ⟨by decide, hdepth, hstar, mixed.parse_text {} false hdepth hstar⟩

/-- The call of a function whose name is a star. -/
def starCall : Formula :=
  .operand (.call ⟨⟨"*", by decide⟩, by decide⟩ .none)

/-- A star is no name of a function, also where it is quoted. -/
theorem starCall_not_parsed :
    starCall.text = "\"*\" ( )" ∧ starCall.expr.nesting ≤ ({} : ParserOptions).maxDepth ∧
      Expr.parse {} false starCall.text = .error (.parse .strayParen "(" 4) := by
  refine ⟨by decide, by decide, ?_⟩
  have htokens : Tokens.ofText starCall.text = .next ⟨0, [], "\"*\"".toList, .name "*" true⟩
      (.next ⟨4, [' '], ['('], .mark .openParen⟩
        (.next ⟨6, [' '], [')'], .mark .closeParen⟩ (.finish [] 7))) := by
    cbv
  rw [Expr.parse]
  generalize Tokens.ofText starCall.text = ts at htokens ⊢
  subst htokens
  cbv

end Written

end SqlEngine

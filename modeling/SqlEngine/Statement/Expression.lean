import SqlEngine.Statement.Reader

/-!
# Statements — expressions and SELECT

The readers of expressions and of SELECT, which call each other: a SELECT is made of expressions,
and a parenthesized SELECT is a value.  `depth` counts the parentheses, calls and sub-selects around
the place that is read.  Each reader takes a token before it comes back to itself.
-/

namespace SqlEngine.Read

/-- The error of an expression that ends where an operand is due; `nested` says that it stands in
parentheses. -/
def endsEarly (nested : Bool) (ts : Tokens) : Error :=
  ts.fault (if nested then .expectedMark .closeParen else .expectedExpression)

/-- A column that may be the name of a function: one without qualifier that is no wildcard. -/
def functionName? : List Node → Option ColumnRef
  | [.column r] => if r.qualifier.isNone && !r.isWildcard then some r else none
  | _           => none

/-- A call as the parser reads it: the function's name is in capitals. -/
def callOf (r : ColumnRef) (arguments : List Expr) : Node :=
  .call ⟨Text.upper r.column, arguments, none, .null, false, r.offset⟩

mutual

/-- Operands with operators between them, up to a token that belongs to neither; in parentheses, to
the closing one, which is taken. -/
def operands (o : ParserOptions) (depth : Nat) (nested : Bool) (ts : Tokens) :
    Parsed (List Node) ts := do
  let (first, ⟨afterFirst, hFirst⟩) ← operand o depth nested ts
  let (more, ⟨rest, hRest⟩) ← following o depth nested afterFirst
  .ok (first ++ more, ⟨rest, by omega⟩)
termination_by (ts.length, 3)

/-- The operators and operands after an operand. -/
def following (o : ParserOptions) (depth : Nat) (nested : Bool) (ts : Tokens) :
    ParsedUpTo (List Node) ts :=
  match ts with
  | .next l rest =>
    let ts := Tokens.next l rest
    let operatorThen (op : Operator) : ParsedUpTo (List Node) ts := do
      rest.check
      let (more, ⟨after, h⟩) ← operands o depth nested rest
      .ok (.operator op :: more, ⟨after, by simp [ts]; omega⟩)
    let ends : ParsedUpTo (List Node) ts :=
      if nested then .error (ts.fault (.expectedMark .closeParen))
      else .ok ([], ⟨ts, Nat.le_refl _⟩)
    match l.token with
    | .keyword .and    => operatorThen .and
    | .keyword .or     => operatorThen .or
    | .keyword .select => .error (ts.fault .bareSelect)
    | .mark .openParen => .error (ts.fault .strayParen)
    | .mark .closeParen =>
      if nested then do
        rest.check
        .ok ([], ⟨rest, Nat.le_succ _⟩)
      else ends
    | .mark m =>
      match m.operator? with
      | some op => operatorThen op
      | none    => ends
    | .number _ | .string .. | .name .. | .keyword .null | .keyword .trueWord
    | .keyword .falseWord => .error (ts.fault .expectedOperator)
    | .keyword word =>
      if word.isType then .error (ts.fault .expectedOperator) else ends
    | _ => ends
  | ts =>
    if nested then .error (ts.fault (.expectedMark .closeParen)) else .ok ([], ⟨ts, Nat.le_refl _⟩)
termination_by (ts.length, 0)

/-- One operand: a value, a column, a call, a group or a sub-select. -/
def operand (o : ParserOptions) (depth : Nat) (nested : Bool) (ts : Tokens) :
    Parsed (List Node) ts := do
  let (nodes, ⟨rest, hRest⟩) ← atom o depth nested ts
  match rest.current with
  | .mark .openParen =>
    match functionName? nodes with
    | some r =>
      let (arguments, after) ← arguments o depth rest
      match after.1.current with
      | .mark .openParen => .error (after.1.fault .strayParen)
      | _                => .ok ([callOf r arguments], after.since hRest)
    | none => .error (rest.fault .strayParen)
  | _ => .ok (nodes, ⟨rest, hRest⟩)
termination_by (ts.length, 2)

/-- An operand without the arguments that may follow it. -/
def atom (o : ParserOptions) (depth : Nat) (nested : Bool) (ts : Tokens) : Parsed (List Node) ts :=
  match ts with
  | .next l rest =>
    let ts := Tokens.next l rest
    let alone (n : Node) : Parsed (List Node) ts := do
      rest.check
      .ok ([n], ⟨rest, Nat.lt_succ_self _⟩)
    let reference : Parsed (List Node) ts := do
      let (r, after) ← column l rest
      .ok ([.column r], after)
    match l.token with
    | .number literal     => do alone (.number (← numberValue literal ts))
    | .string content _   => alone (.text content)
    | .name ..            => reference
    | .keyword .null      => alone .null
    | .keyword .trueWord  => alone (.boolean true)
    | .keyword .falseWord => alone (.boolean false)
    | .keyword .and       => .error (ts.fault .expectedExpression)
    | .keyword .or        => .error (ts.fault .expectedExpression)
    | .keyword .select    => .error (ts.fault .bareSelect)
    | .keyword word       =>
      if rest.current == .mark .openParen then
        alone (.column { qualifier := none, column := word.text, offset := l.start })
      else if word.isType then reference
      else .error (endsEarly nested ts)
    | .mark .openParen    => do
      if rest.current == .keyword .select then
        if !o.subSelectValues then .error (ts.fault .subSelectForbidden) else
        enter o depth ts
        rest.check
        let (s, ⟨afterSelect, hSelect⟩) ← select o (depth + 1) rest
        let ⟨after, hAfter⟩ ← expectMark .closeParen afterSelect
        .ok ([.select s], ⟨after, by simp only [Tokens.length_next]; omega⟩)
      else
        enter o depth ts
        rest.check
        let (inner, ⟨after, hAfter⟩) ← operands o (depth + 1) true rest
        .ok (.openParen :: inner ++ [.closeParen],
          ⟨after, by simp only [Tokens.length_next]; omega⟩)
    | .mark .closeParen   =>
      .error (ts.fault (if nested then .emptyParens else .expectedExpression))
    | .mark .minus        =>
      match rest with
      | .next number after =>
        match number.token with
        | .number literal => do
          Tokens.check (.next number after)
          let x ← numberValue literal (.next number after)
          after.check
          .ok ([.number (-x)], ⟨after, by simp only [Tokens.length_next]; omega⟩)
        | _ => .error (ts.fault .expectedExpression)
      | _ => .error (ts.fault .expectedExpression)
    | .mark .star         => .error (ts.fault .strayStar)
    | .mark _             => .error (ts.fault .expectedExpression)
    | _                   => .error (endsEarly nested ts)
  | ts => .error (endsEarly nested ts)
termination_by (ts.length, 1)

/-- The arguments of a call, from the opening parenthesis on; `*` alone stands for none. -/
def arguments (o : ParserOptions) (depth : Nat) (ts : Tokens) : Parsed (List Expr) ts := do
  enter o depth ts
  let ⟨inside, hInside⟩ ← expectMark .openParen ts
  match ← takeIf (· == .mark .closeParen) inside with
  | some after => .ok ([], after.since hInside)
  | none =>
    if inside.current == .mark .star && inside.second == .mark .closeParen then
      let ⟨afterStar, hStar⟩ ← expectMark .star inside
      let after ← expectMark .closeParen afterStar
      .ok ([], (after.since hStar).since hInside)
    else
      let (list, ⟨afterList, hList⟩) ← expressions o (depth + 1) inside
      let after ← expectMark .closeParen afterList
      .ok (list, (after.since hList).since hInside)
termination_by (ts.length, 0)

/-- An expression with its text; a wildcard is allowed only alone, and only where `wildcard` says
so. -/
def expression (o : ParserOptions) (depth : Nat) (wildcard : Bool) (ts : Tokens) :
    Parsed Expr ts := do
  let (nodes, ⟨rest, hRest⟩) ← operands o depth false ts
  let e := Expr.ofNodes nodes (ts.textUntil rest) ts.start
  if e.containsWildcard && !(wildcard && e.isWildcard) then
    .error (.parse .wildcardInside e.source ts.start)
  else .ok (e, ⟨rest, hRest⟩)
termination_by (ts.length, 4)

/-- Expressions with commas between them. -/
def expressions (o : ParserOptions) (depth : Nat) (ts : Tokens) : Parsed (List Expr) ts := do
  let (e, ⟨afterFirst, hFirst⟩) ← expression o depth false ts
  match ← takeComma afterFirst with
  | none => .ok ([e], ⟨afterFirst, hFirst⟩)
  | some ⟨afterComma, hComma⟩ =>
    let (more, rest) ← expressions o depth afterComma
    .ok (e :: more, (rest.since hComma).since hFirst)
termination_by (ts.length, 5)

/-- An output: an expression, which may have an alias, or a wildcard. -/
def output (o : ParserOptions) (depth : Nat) (ts : Tokens) : Parsed Expr ts := do
  let (e, ⟨afterExpr, hExpr⟩) ← show Parsed Expr ts from do
    match ← takeIf (· == .mark .star) ts with
    | some rest =>
      .ok (.ofColumn { qualifier := none, column := "*", offset := ts.start }, rest)
    | none => expression o depth true ts
  if afterExpr.current == .keyword .asWord && e.isWildcard then
    .error (afterExpr.fault .wildcardAlias)
  else
    match ← takeKeyword .asWord afterExpr with
    | none => .ok (e, ⟨afterExpr, hExpr⟩)
    | some ⟨afterAs, hAs⟩ =>
      let (name, rest) ← expectName afterAs
      .ok ({ e with aliasName := some name }, (rest.since hAs).since hExpr)
termination_by (ts.length, 5)

/-- Outputs with commas between them. -/
def outputs (o : ParserOptions) (depth : Nat) (ts : Tokens) : Parsed (List Expr) ts := do
  let (e, ⟨afterFirst, hFirst⟩) ← output o depth ts
  match ← takeComma afterFirst with
  | none => .ok ([e], ⟨afterFirst, hFirst⟩)
  | some ⟨afterComma, hComma⟩ =>
    let (more, rest) ← outputs o depth afterComma
    .ok (e :: more, (rest.since hComma).since hFirst)
termination_by (ts.length, 6)

/-- A table or a parenthesized SELECT, with or without an alias. -/
def source (o : ParserOptions) (depth : Nat) (ts : Tokens) : Parsed Source ts := do
  if ts.current == .mark .openParen && ts.second == .keyword .select then
    enter o depth ts
    let ⟨inside, hInside⟩ ← expectMark .openParen ts
    let (s, ⟨afterSelect, hSelect⟩) ← select o (depth + 1) inside
    let ⟨afterParen, hParen⟩ ← expectMark .closeParen afterSelect
    let (name, ⟨after, hAfter⟩) ← sourceAlias afterParen
    .ok (.select s name ts.start, ⟨after, by omega⟩)
  else
    let (table, ⟨afterName, hName⟩) ← expectName ts
    let (name, ⟨after, hAfter⟩) ← sourceAlias afterName
    .ok (.table table name none ts.start, ⟨after, by omega⟩)
termination_by (ts.length, 0)

/-- The joins after the first source. -/
def joins (o : ParserOptions) (depth : Nat) (ts : Tokens) : ParsedUpTo (List Join) ts := do
  match ← joinKind ts with
  | none => .ok ([], ⟨ts, Nat.le_refl _⟩)
  | some (kind, ⟨afterKind, hKind⟩) =>
    let (joined, ⟨afterSource, hSource⟩) ← source o depth afterKind
    let (condition, ⟨afterOn, hOn⟩) ← show ParsedUpTo (Option Expr) afterSource from do
      match ← takeKeyword .onWord afterSource with
      | none => .ok (none, ⟨afterSource, Nat.le_refl _⟩)
      | some ⟨afterWord, hWord⟩ =>
        let (e, rest) ← expression o depth false afterWord
        .ok (some e, (rest.since hWord).upTo)
    let (more, ⟨rest, hRest⟩) ← joins o depth afterOn
    .ok (⟨joined, kind, condition⟩ :: more, ⟨rest, by omega⟩)
termination_by (ts.length, 0)

/-- The keys of ORDER BY. -/
def orderKeys (o : ParserOptions) (depth : Nat) (ts : Tokens) : Parsed (List OrderKey) ts := do
  let (e, ⟨afterExpr, hExpr⟩) ← expression o depth false ts
  let (ascending, ⟨afterKey, hKey⟩) ← show ParsedUpTo Bool afterExpr from do
    match ← takeKeyword .desc afterExpr with
    | some rest => .ok (false, rest.upTo)
    | none      => .ok (true, ← skipKeyword .asc afterExpr)
  match ← takeComma afterKey with
  | none => .ok ([⟨e, ascending⟩], ⟨afterKey, by omega⟩)
  | some ⟨afterComma, hComma⟩ =>
    let (more, ⟨rest, hRest⟩) ← orderKeys o depth afterComma
    .ok (⟨e, ascending⟩ :: more, ⟨rest, by omega⟩)
termination_by (ts.length, 5)

/-- An expression after a keyword, if the keyword is there. -/
def clause (o : ParserOptions) (depth : Nat) (word : Keyword) (ts : Tokens) :
    ParsedUpTo (Option Expr) ts := do
  match ← takeKeyword word ts with
  | none => .ok (none, ⟨ts, Nat.le_refl _⟩)
  | some ⟨afterWord, hWord⟩ =>
    let (e, rest) ← expression o depth false afterWord
    .ok (some e, (rest.since hWord).upTo)
termination_by (ts.length, 0)

/-- A SELECT, from its first word to the end of its last clause. -/
def select (o : ParserOptions) (depth : Nat) (ts : Tokens) : Parsed Select ts := do
  let ⟨t₁, h₁⟩ ← expectKeyword .select ts
  let (distinct, ⟨t₂, h₂⟩) ← show ParsedUpTo Bool t₁ from do
    match ← takeKeyword .distinct t₁ with
    | some rest => .ok (true, rest.upTo)
    | none      => .ok (false, ⟨t₁, Nat.le_refl _⟩)
  let (output, ⟨t₃, h₃⟩) ← outputs o depth t₂
  let ((origin, joined), ⟨t₄, h₄⟩) ← show ParsedUpTo (Option Source × List Join) t₃ from do
    match ← takeKeyword .fromWord t₃ with
    | none => .ok ((none, []), ⟨t₃, Nat.le_refl _⟩)
    | some ⟨afterWord, hWord⟩ =>
      let (first, ⟨afterSource, hSource⟩) ← source o depth afterWord
      let (more, ⟨rest, hRest⟩) ← joins o depth afterSource
      .ok ((some first, more), ⟨rest, by omega⟩)
  let (filter, ⟨t₅, h₅⟩) ← clause o depth .whereWord t₄
  let (groupBy, ⟨t₆, h₆⟩) ← show ParsedUpTo (List Expr) t₅ from do
    match ← takeKeyword .group t₅ with
    | none => .ok ([], ⟨t₅, Nat.le_refl _⟩)
    | some ⟨afterWord, hWord⟩ =>
      let ⟨afterBy, hBy⟩ ← expectKeyword .byWord afterWord
      let (list, rest) ← expressions o depth afterBy
      .ok (list, ((rest.since hBy).since hWord).upTo)
  let (orderBy, ⟨t₇, h₇⟩) ← show ParsedUpTo (List OrderKey) t₆ from do
    match ← takeKeyword .order t₆ with
    | none => .ok ([], ⟨t₆, Nat.le_refl _⟩)
    | some ⟨afterWord, hWord⟩ =>
      let ⟨afterBy, hBy⟩ ← expectKeyword .byWord afterWord
      let (list, rest) ← orderKeys o depth afterBy
      .ok (list, ((rest.since hBy).since hWord).upTo)
  let (limit, ⟨t₈, h₈⟩) ← show ParsedUpTo (Option Nat) t₇ from do
    match ← takeKeyword .limit t₇ with
    | none => .ok (none, ⟨t₇, Nat.le_refl _⟩)
    | some ⟨afterWord, hWord⟩ =>
      let (n, rest) ← rowCount afterWord
      .ok (some n, (rest.since hWord).upTo)
  .ok (⟨ts.textUntil t₈, distinct, output, origin, joined, filter, groupBy, orderBy, limit,
    ts.start⟩, ⟨t₈, by omega⟩)
termination_by (ts.length, 0)

end

end SqlEngine.Read

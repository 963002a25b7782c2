import SqlEngine.Number.Text
import SqlEngine.Statement.Basic
import SqlEngine.Token.Lexer

/-!
# Statements — reading tokens

The small readers the parser is made of.  A reader gets the tokens that are left and gives what it
read with what is left then; `Parsed` records that a reader took at least one token, so that reading
ends.
-/

namespace SqlEngine

/-- What is left after at least one token of `ts` was taken. -/
abbrev Tokens.After (ts : Tokens) := { rest : Tokens // rest.length < ts.length }

/-- What is left of `ts`, which may be all of it. -/
abbrev Tokens.UpTo (ts : Tokens) := { rest : Tokens // rest.length ≤ ts.length }

/-- What is left of `t` is left of any tokens that `t` itself was left of. -/
def Tokens.After.since {t ts : Tokens} (rest : t.After) (h : t.length < ts.length) : ts.After :=
  ⟨rest.1, Nat.lt_trans rest.2 h⟩

/-- A reader that took a token is one that may take nothing. -/
def Tokens.After.upTo {ts : Tokens} (rest : ts.After) : ts.UpTo :=
  ⟨rest.1, Nat.le_of_lt rest.2⟩

/-- The outcome of a reader that takes at least one token. -/
abbrev Parsed (α : Type) (ts : Tokens) := Except Error (α × ts.After)

/-- The outcome of a reader that may take nothing. -/
abbrev ParsedUpTo (α : Type) (ts : Tokens) := Except Error (α × ts.UpTo)

/-- Switches of the parser. -/
structure ParserOptions where
  subSelectValues : Bool := true
  maxDepth : Nat := 32

namespace Read

/-- Takes the token at the front if it has the property. -/
def takeIf (p : Token → Bool) : (ts : Tokens) → Except Error (Option ts.After)
  | .next l rest =>
    if p l.token then do
      rest.check
      .ok (some ⟨rest, Nat.lt_succ_self _⟩)
    else .ok none
  | _ => .ok none

/-- Takes a keyword if it is at the front. -/
def takeKeyword (word : Keyword) (ts : Tokens) : Except Error (Option ts.After) :=
  takeIf (· == .keyword word) ts

/-- Takes a comma if it is at the front. -/
def takeComma (ts : Tokens) : Except Error (Option ts.After) :=
  takeIf (· == .comma) ts

/-- Takes a keyword that has to be at the front. -/
def expectKeyword (word : Keyword) (ts : Tokens) : Except Error ts.After := do
  match ← takeKeyword word ts with
  | some rest => .ok rest
  | none      => .error (ts.fault (.expectedKeyword word))

/-- Takes a mark that has to be at the front. -/
def expectMark (mark : Mark) (ts : Tokens) : Except Error ts.After := do
  match ← takeIf (· == .mark mark) ts with
  | some rest => .ok rest
  | none      => .error (ts.fault (.expectedMark mark))

/-- Takes the name of a table, a column or an alias. -/
def expectName (ts : Tokens) : Parsed String ts := do
  match ← takeIf Token.isName ts with
  | some rest => .ok (ts.current.asName, rest)
  | none      => .error (ts.fault .expectedName)

/-- One more level of parentheses is within the limit. -/
def enter (o : ParserOptions) (depth : Nat) (ts : Tokens) : Except Error Unit :=
  if o.maxDepth < depth + 1 then .error (ts.fault (.nesting o.maxDepth)) else .ok ()

/-- The value of a number literal that stands at the front of `ts`. -/
def numberValue (literal : String) (ts : Tokens) : Except Error Float :=
  match Number.ofLiteral? literal with
  | some x => .ok x
  | none   => .error (.lex (.unreadable literal) ts.start)

/-- A column, written `column`, `source.column` or `source.*`, whose first token is `l`. -/
def column (l : Lexeme) (rest : Tokens) : Parsed ColumnRef (.next l rest) := do
  rest.check
  let name (qualifier : Option String) (column : String) : ColumnRef :=
    { qualifier, column, offset := l.start }
  match ← takeIf (· == .dot) rest with
  | none => .ok (name none l.token.asName, ⟨rest, Nat.lt_succ_self _⟩)
  | some ⟨afterDot, hDot⟩ =>
    match ← takeIf (· == .mark .star) afterDot with
    | some ⟨afterStar, hStar⟩ =>
      .ok (name (some l.token.asName) "*", ⟨afterStar, by simp only [Tokens.length_next]; omega⟩)
    | none =>
      let (column, ⟨afterName, hName⟩) ← expectName afterDot
      .ok (name (some l.token.asName) column, ⟨afterName, by simp only [Tokens.length_next]; omega⟩)

/-- Takes a keyword if it is at the front, and goes on in either case. -/
def skipKeyword (word : Keyword) (ts : Tokens) : Except Error ts.UpTo := do
  match ← takeKeyword word ts with
  | some rest => .ok rest.upTo
  | none      => .ok ⟨ts, Nat.le_refl _⟩

/-- The kind of join that a word other than `JOIN` starts, and whether `OUTER` may follow it. -/
def joinWord? : Token → Option (JoinKind × Bool)
  | .keyword .inner => some (.inner, false)
  | .keyword .left  => some (.left, true)
  | .keyword .right => some (.right, true)
  | .keyword .full  => some (.full, true)
  | .keyword .outer => some (.full, false)
  | _               => none

/-- The kind of the join that starts here, if one does: `JOIN` alone or after `INNER`, or after
`LEFT`, `RIGHT` or `FULL` with or without `OUTER`, or after `OUTER`. -/
def joinKind : (ts : Tokens) → Except Error (Option (JoinKind × ts.After))
  | .next l rest =>
    if l.token == .keyword .join then do
      rest.check
      .ok (some (.inner, ⟨rest, Nat.lt_succ_self _⟩))
    else
      match joinWord? l.token with
      | none => .ok none
      | some (kind, mayHaveOuter) => do
        rest.check
        let ⟨afterOuter, hOuter⟩ ←
          if mayHaveOuter then skipKeyword .outer rest else .ok ⟨rest, Nat.le_refl _⟩
        let ⟨afterJoin, hJoin⟩ ← expectKeyword .join afterOuter
        .ok (some (kind, ⟨afterJoin, by simp only [Tokens.length_next]; omega⟩))
  | _ => .ok none

/-- The name given to a source: after `AS`, or a plain name. -/
def sourceAlias (ts : Tokens) : ParsedUpTo (Option String) ts := do
  match ← takeKeyword .asWord ts with
  | some ⟨afterAs, hAs⟩ =>
    let (name, rest) ← expectName afterAs
    .ok (some name, (rest.since hAs).upTo)
  | none =>
    match ts.current with
    | .name .. =>
      let (name, rest) ← expectName ts
      .ok (some name, rest.upTo)
    | _ => .ok (none, ⟨ts, Nat.le_refl _⟩)

/-- Items with commas between them. -/
def separated {α : Type} (item : (ts : Tokens) → Parsed α ts) (ts : Tokens) :
    Parsed (List α) ts := do
  let (first, ⟨afterFirst, hFirst⟩) ← item ts
  match ← takeComma afterFirst with
  | none => .ok ([first], ⟨afterFirst, hFirst⟩)
  | some ⟨afterComma, hComma⟩ =>
    let (more, rest) ← separated item afterComma
    .ok (first :: more, (rest.since hComma).since hFirst)
termination_by ts.length

/-- A row count: a literal of digits alone, of 64 bits. -/
def rowCount : (ts : Tokens) → Parsed Nat ts
  | ts@(.next l rest) =>
    match l.token with
    | .number literal =>
      let n := Nat.ofDigitChars 10 literal.toList 0
      if literal.toList.all Char.isDigit && n < Nat.pow 2 64 then do
        rest.check
        .ok (n, ⟨rest, Nat.lt_succ_self _⟩)
      else .error (ts.fault .limitNotNatural)
    | _ => .error (ts.fault .limitMissing)
  | ts => .error (ts.fault .limitMissing)

end Read

end SqlEngine

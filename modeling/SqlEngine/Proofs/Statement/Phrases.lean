import SqlEngine.Proofs.Statement.Retelling
import SqlEngine.Proofs.Token.Fronts

/-!
# Statements — phrases

What the readers read, said without them.  `Derives o k depth ts a rest` says that the tokens `ts`
start with a phrase of the kind `k` that stands for `a`, and that `rest` comes after it; `depth`
counts the parentheses, calls and sub-selects around it.

* `Read.Gives`: a reader gives a value, and how the steps of a reader give theirs.
* `Derives`, with `Derives.tail`: what is left after a phrase is left of its tokens.
-/

namespace SqlEngine

variable {α β : Type}

/-! ### One token -/

namespace Token

/-- The operator that the token is. -/
def operator? : Token → Option Operator
  | .keyword .and => some .and
  | .keyword .or  => some .or
  | .mark m       => m.operator?
  | _             => none

/-- The value that the token is. -/
def value? : Token → Option Node
  | .number literal     => (Number.ofLiteral? literal).map .number
  | .string content _   => some (.text content)
  | .keyword .null      => some .null
  | .keyword .trueWord  => some (.boolean true)
  | .keyword .falseWord => some (.boolean false)
  | _                   => none

/-- The token is a keyword that expressions have a use for. -/
def isExpressionWord : Token → Bool
  | .keyword .and | .keyword .or | .keyword .select | .keyword .null | .keyword .trueWord
  | .keyword .falseWord => true
  | _                   => false

/-- The token goes on an expression neither well nor badly: an expression ends before it. -/
def ends : Token → Bool
  | .number _ | .string .. | .name .. => false
  | .keyword word => !word.isType && !(keyword word).isExpressionWord
  | .mark m       => m.operator?.isNone && m != .openParen
  | _             => true

end Token

namespace Tokens

theorem length_le_self (ts : Tokens) : ts.length ≤ ts.length := Nat.le_refl _

theorem length_lt_next {t middle rest : Tokens} (l : Lexeme) (hle : middle.length ≤ t.length)
    (hlt : rest.length < middle.length) : rest.length < (next l t).length :=
  Nat.lt_succ_of_lt (Nat.lt_of_lt_of_le hlt hle)

theorem length_lt_of_upTo {ts middle rest : Tokens} (hlt : middle.length < ts.length)
    (hle : rest.length ≤ middle.length) : rest.length < ts.length :=
  Nat.lt_of_le_of_lt hle hlt

end Tokens

namespace Read

/-! ### What a reader gives -/

/-- A reader gives a value and the tokens that are left. -/
def Gives {P : Tokens → Prop} (x : Except Error (α × { rest // P rest })) (a : α)
    (rest : Tokens) : Prop :=
  x.map (fun p => (p.1, p.2.1)) = .ok (a, rest)

section Gives

variable {P Q : Tokens → Prop} {a : α} {b : β} {t rest ts : Tokens} {p : Token → Bool}
  {o : ParserOptions} {depth : Nat}

theorem gives_iff {x : Except Error (α × { rest // P rest })} :
    Gives x a rest ↔ ∃ h : P rest, x = .ok (a, ⟨rest, h⟩) := by
  rw [Gives, map_eq_ok_iff]
  constructor
  · rintro ⟨⟨a', rest', h⟩, hx, ⟨⟩⟩
    exact ⟨h, hx⟩
  · rintro ⟨h, hx⟩
    exact ⟨_, hx, rfl⟩

/-- What is left has the property that the reader says. -/
theorem Gives.prop {x : Except Error (α × { rest // P rest })} (h : Gives x a rest) : P rest :=
  (gives_iff.1 h).1

theorem gives_ok {a' : α} {r : { rest // P rest }} :
    Gives (.ok (a, r)) a' t ↔ a' = a ∧ t = r.1 := by
  rw [gives_iff]
  constructor
  · rintro ⟨_, ⟨⟩⟩
    exact ⟨rfl, rfl⟩
  · rintro ⟨rfl, rfl⟩
    exact ⟨r.2, rfl⟩

theorem gives_error {e : Error} :
    Gives (.error e : Except Error (α × { rest // P rest })) a rest ↔ False :=
  ⟨nofun, nofun⟩

theorem gives_ite {c : Prop} [Decidable c] {x y : Except Error (α × { rest // P rest })} :
    Gives (if c then x else y) a rest ↔ c ∧ Gives x a rest ∨ ¬ c ∧ Gives y a rest := by
  split <;> simp_all

/-- A reader, and then what goes on with the value. -/
theorem gives_bind {x : Except Error (α × { rest // P rest })}
    {f : α × { rest // P rest } → Except Error (β × { rest // Q rest })} :
    Gives (x >>= f) b rest ↔ ∃ a t, ∃ h : P t, Gives x a t ∧ Gives (f (a, ⟨t, h⟩)) b rest := by
  simp only [gives_iff, bind_eq_ok_iff, Prod.exists, Subtype.exists]
  constructor
  · rintro ⟨hrest, a, t, ht, hx, hf⟩
    exact ⟨a, t, ht, ⟨ht, hx⟩, hrest, hf⟩
  · rintro ⟨a, t, ht, ⟨_, hx⟩, hrest, hf⟩
    exact ⟨hrest, a, t, ht, hx, hf⟩

/-- A reader that gives tokens only, and then what goes on with them. -/
theorem gives_take {x : Except Error { rest // P rest }}
    {f : { rest // P rest } → Except Error (β × { rest // Q rest })} :
    Gives (x >>= f) b rest ↔ ∃ t, ∃ h : P t, x = .ok ⟨t, h⟩ ∧ Gives (f ⟨t, h⟩) b rest := by
  simp only [gives_iff, bind_eq_ok_iff, Subtype.exists]
  constructor
  · rintro ⟨hrest, t, ht, hx, hf⟩
    exact ⟨t, ht, hx, hrest, hf⟩
  · rintro ⟨t, ht, hx, hrest, hf⟩
    exact ⟨hrest, t, ht, hx, hf⟩

/-- A check or another step, and then what goes on with its result. -/
theorem gives_step {γ : Type} {x : Except Error γ}
    {f : γ → Except Error (β × { rest // Q rest })} :
    Gives (x >>= f) b rest ↔ ∃ c, x = .ok c ∧ Gives (f c) b rest := by
  simp only [gives_iff, bind_eq_ok_iff]
  constructor
  · rintro ⟨hrest, c, hx, hf⟩
    exact ⟨c, hx, hrest, hf⟩
  · rintro ⟨c, hx, hrest, hf⟩
    exact ⟨hrest, c, hx, hf⟩

theorem gives_unit {x : Except Error Unit} {f : Unit → Except Error (β × { rest // Q rest })} :
    Gives (x >>= f) b rest ↔ x = .ok () ∧ Gives (f ()) b rest := by
  simp only [gives_step, Unique.exists_iff, PUnit.default_eq_unit]

theorem takeIf_eq_none : takeIf p ts = .ok none ↔ ts.Lacks p := by
  cases ts with
  | finish | broken => exact ⟨fun _ => nofun, fun _ => rfl⟩
  | next l after =>
    simp only [takeIf]
    constructor
    · intro h
      split at h
      · simp only [bind_eq_ok_iff] at h
        obtain ⟨_, _, ⟨⟩⟩ := h
      next hp =>
        rintro _ _ ⟨⟩
        simpa using hp
    · intro h
      rw [if_neg (by simp [h l after rfl])]

theorem takeIf_eq_some {h : rest.length < ts.length} :
    takeIf p ts = .ok (some ⟨rest, h⟩) ↔ ts.Takes p rest := by
  cases ts with
  | finish | broken => exact absurd h (Nat.not_lt_zero _)
  | next l after =>
    simp only [takeIf]
    constructor
    · intro h
      split at h
      next hp =>
        simp only [bind_eq_ok_iff] at h
        obtain ⟨_, hcheck, ⟨⟩⟩ := h
        exact ⟨l, rfl, hp, hcheck⟩
      · cases h
    · rintro ⟨_, ⟨⟩, hp, hcheck⟩
      rw [if_pos hp, hcheck]
      rfl

/-- A token is taken if it is there, and what comes then depends on that. -/
theorem gives_takeIf {f : Option ts.After → Except Error (β × { rest // Q rest })} :
    Gives (takeIf p ts >>= f) b rest ↔ (ts.Lacks p ∧ Gives (f none) b rest) ∨
      ∃ t, ∃ h : t.length < ts.length, ts.Takes p t ∧ Gives (f (some ⟨t, h⟩)) b rest := by
  simp only [gives_step, Option.exists, Subtype.exists, takeIf_eq_none, takeIf_eq_some]

theorem expectKeyword_eq_ok {word : Keyword} {h : rest.length < ts.length} :
    expectKeyword word ts = .ok ⟨rest, h⟩ ↔ ts.Takes (· == .keyword word) rest := by
  rw [expectKeyword, bind_eq_ok_iff, takeKeyword, ← takeIf_eq_some (h := h)]
  constructor
  · rintro ⟨_ | after, htake, h⟩
    · cases h
    · obtain rfl := Except.ok.inj h
      exact htake
  · exact fun htake => ⟨_, htake, rfl⟩

theorem expectMark_eq_ok {mark : Mark} {h : rest.length < ts.length} :
    expectMark mark ts = .ok ⟨rest, h⟩ ↔ ts.Takes (· == .mark mark) rest := by
  rw [expectMark, bind_eq_ok_iff, ← takeIf_eq_some (h := h)]
  constructor
  · rintro ⟨_ | after, htake, h⟩
    · cases h
    · obtain rfl := Except.ok.inj h
      exact htake
  · exact fun htake => ⟨_, htake, rfl⟩

theorem enter_eq_ok {u : Unit} : enter o depth ts = .ok u ↔ depth < o.maxDepth := by
  rw [enter]
  split
  · simp only [reduceCtorEq, false_iff]
    omega
  · simp only [true_iff]
    omega

end Gives

end Read

/-! ### Phrases -/

/-- The kinds of phrases.  `nested` says that an expression stands in parentheses, `wildcard` that
a wildcard may stand for it. -/
inductive Phrase
  | operands (nested : Bool)
  | following (nested : Bool)
  | operand (nested : Bool)
  | atom (nested : Bool)
  | arguments
  | expression (wildcard : Bool)
  | bare
  | output
  | source
  | joins
  | origin
  | orderKey
  | rowCount
  | select
  | row
  | assignment
  | name
  | column
  | columns
  | items (item : Phrase)
  | optional (word : Keyword) (phrase : Phrase)
  | after (word : Keyword) (phrase : Phrase)

namespace Phrase

/-- What a phrase stands for. -/
def Value : Phrase → Type
  | operands _ | following _ | operand _ | atom _ => List Node
  | arguments | row                               => List Expr
  | expression _ | bare | output                  => Expr
  | source                                        => Source
  | joins                                         => List Join
  | origin                                        => Source × List Join
  | orderKey                                      => OrderKey
  | rowCount                                      => Nat
  | select                                        => Select
  | assignment                                    => Assignment
  | name                                          => String
  | column                                        => ColumnClause
  | columns                                       => List String
  | items item                                    => List item.Value
  | optional _ phrase                             => Option phrase.Value
  | after _ phrase                                => phrase.Value

/-- An expression that is no part of an output list. -/
abbrev plain : Phrase :=
  expression false

end Phrase

open Read (Gives)

/-- The tokens `ts` start with a phrase of the kind `k`, at a depth, and `rest` comes after it. -/
inductive Derives (o : ParserOptions) : (k : Phrase) → Nat → Tokens → k.Value → Tokens → Prop
  | operands {nested : Bool} {depth : Nat} {ts t rest : Tokens} {first more : List Node}
      (hfirst : Derives o (.operand nested) depth ts first t)
      (hmore : Derives o (.following nested) depth t more rest) :
      Derives o (.operands nested) depth ts (first ++ more) rest
  | ends {depth : Nat} {ts : Tokens} (h : ts.current.ends = true) :
      Derives o (.following false) depth ts [] ts
  | closes {depth : Nat} {ts rest : Tokens} (h : ts.Takes (· == .mark .closeParen) rest) :
      Derives o (.following true) depth ts [] rest
  | operator {nested : Bool} {depth : Nat} {ts t rest : Tokens} {op : Operator} {more : List Node}
      (h : ts.Takes (·.operator? == some op) t)
      (hmore : Derives o (.operands nested) depth t more rest) :
      Derives o (.following nested) depth ts (.operator op :: more) rest
  | operand {nested : Bool} {depth : Nat} {ts rest : Tokens} {nodes : List Node}
      (h : Derives o (.atom nested) depth ts nodes rest)
      (hrest : rest.current ≠ .mark .openParen) :
      Derives o (.operand nested) depth ts nodes rest
  | call {nested : Bool} {depth : Nat} {ts t rest : Tokens} {nodes : List Node} {r : ColumnRef}
      {args : List Expr} (h : Derives o (.atom nested) depth ts nodes t)
      (hname : Read.functionName? nodes = some r) (hargs : Derives o .arguments depth t args rest)
      (hrest : rest.current ≠ .mark .openParen) :
      Derives o (.operand nested) depth ts [Read.callOf r args] rest
  | value {nested : Bool} {depth : Nat} {ts rest : Tokens} {n : Node}
      (hvalue : ts.current.value? = some n) (h : ts.Takes (fun _ => true) rest) :
      Derives o (.atom nested) depth ts [n] rest
  | reference {nested : Bool} {depth : Nat} {l : Lexeme} {t rest : Tokens} {r : ColumnRef}
      (hname : l.token.isName = true)
      (hplain : ∀ word, l.token = .keyword word → t.current ≠ .mark .openParen)
      (h : Gives (Read.column l t) r rest) :
      Derives o (.atom nested) depth (.next l t) [.column r] rest
  | word {nested : Bool} {depth : Nat} {l : Lexeme} {rest : Tokens} {word : Keyword}
      (hword : l.token = .keyword word) (hother : l.token.isExpressionWord = false)
      (hopen : rest.current = .mark .openParen) (h : rest.check = .ok ()) :
      Derives o (.atom nested) depth (.next l rest)
        [.column { qualifier := none, column := word.text, offset := l.start }] rest
  | negative {nested : Bool} {depth : Nat} {ts t rest : Tokens} {literal : String} {x : Float}
      (h : ts.Takes (· == .mark .minus) t) (hnumber : t.current = .number literal)
      (hvalue : Number.ofLiteral? literal = some x) (hrest : t.Takes (fun _ => true) rest) :
      Derives o (.atom nested) depth ts [.number (-x)] rest
  | group {nested : Bool} {depth : Nat} {ts t rest : Tokens} {nodes : List Node}
      (hdepth : depth < o.maxDepth) (h : ts.Takes (· == .mark .openParen) t)
      (hplain : t.current ≠ .keyword .select)
      (hnodes : Derives o (.operands true) (depth + 1) t nodes rest) :
      Derives o (.atom nested) depth ts (.openParen :: nodes ++ [.closeParen]) rest
  | valueSelect {nested : Bool} {depth : Nat} {ts t t' rest : Tokens} {s : Select}
      (hvalues : o.subSelectValues = true) (hdepth : depth < o.maxDepth)
      (h : ts.Takes (· == .mark .openParen) t) (hword : t.current = .keyword .select)
      (hs : Derives o .select (depth + 1) t s t')
      (hclose : t'.Takes (· == .mark .closeParen) rest) :
      Derives o (.atom nested) depth ts [.select s] rest
  | noArguments {depth : Nat} {ts t rest : Tokens} (hdepth : depth < o.maxDepth)
      (h : ts.Takes (· == .mark .openParen) t) (hclose : t.Takes (· == .mark .closeParen) rest) :
      Derives o .arguments depth ts [] rest
  | allRows {depth : Nat} {ts t t' rest : Tokens} (hdepth : depth < o.maxDepth)
      (h : ts.Takes (· == .mark .openParen) t) (hstar : t.Takes (· == .mark .star) t')
      (hclose : t'.Takes (· == .mark .closeParen) rest) :
      Derives o .arguments depth ts [] rest
  | arguments {depth : Nat} {ts t t' rest : Tokens} {args : List Expr}
      (hdepth : depth < o.maxDepth) (h : ts.Takes (· == .mark .openParen) t)
      (hsome : t.Lacks (· == .mark .closeParen))
      (hplain : ¬ (t.current = .mark .star ∧ t.second = .mark .closeParen))
      (hargs : Derives o (.items .plain) (depth + 1) t args t')
      (hclose : t'.Takes (· == .mark .closeParen) rest) :
      Derives o .arguments depth ts args rest
  | expression {wildcard : Bool} {depth : Nat} {ts rest : Tokens} {nodes : List Node}
      (h : Derives o (.operands false) depth ts nodes rest)
      (hwildcard : (Expr.ofNodes nodes (ts.textUntil rest) ts.start).containsWildcard = true →
        wildcard = true ∧ (Expr.ofNodes nodes (ts.textUntil rest) ts.start).isWildcard = true) :
      Derives o (.expression wildcard) depth ts (.ofNodes nodes (ts.textUntil rest) ts.start) rest
  | star {depth : Nat} {ts rest : Tokens} (h : ts.Takes (· == .mark .star) rest) :
      Derives o .bare depth ts
        (.ofColumn { qualifier := none, column := "*", offset := ts.start }) rest
  | bare {depth : Nat} {ts rest : Tokens} {e : Expr} (hplain : ts.Lacks (· == .mark .star))
      (h : Derives o (.expression true) depth ts e rest) : Derives o .bare depth ts e rest
  | output {depth : Nat} {ts rest : Tokens} {e : Expr} (h : Derives o .bare depth ts e rest)
      (hrest : rest.Lacks (· == .keyword .asWord)) : Derives o .output depth ts e rest
  | named {depth : Nat} {ts t t' rest : Tokens} {e : Expr} {name : String}
      (h : Derives o .bare depth ts e t) (hplain : e.isWildcard = false)
      (has : t.Takes (· == .keyword .asWord) t') (hname : Gives (Read.expectName t') name rest) :
      Derives o .output depth ts { e with aliasName := some name } rest
  | table {depth : Nat} {ts t rest : Tokens} {table : String} {aliasName : Option String}
      (h : Gives (Read.expectName ts) table t)
      (halias : Gives (Read.sourceAlias t) aliasName rest) :
      Derives o .source depth ts (.table table aliasName none ts.start) rest
  | subSelect {depth : Nat} {ts t t' t'' rest : Tokens} {s : Select} {aliasName : Option String}
      (hdepth : depth < o.maxDepth) (h : ts.Takes (· == .mark .openParen) t)
      (hword : t.current = .keyword .select) (hs : Derives o .select (depth + 1) t s t')
      (hclose : t'.Takes (· == .mark .closeParen) t'')
      (halias : Gives (Read.sourceAlias t'') aliasName rest) :
      Derives o .source depth ts (.select s aliasName ts.start) rest
  | noJoin {depth : Nat} {ts : Tokens} (h : Read.joinKind ts = .ok none) :
      Derives o .joins depth ts [] ts
  | join {depth : Nat} {ts t t' t'' rest : Tokens} {kind : JoinKind} {s : Source}
      {condition : Option Expr} {more : List Join} {hlt : t.length < ts.length}
      (h : Read.joinKind ts = .ok (some (kind, ⟨t, hlt⟩))) (hs : Derives o .source depth t s t')
      (hcondition : Derives o (.optional .onWord .plain) depth t' condition t'')
      (hmore : Derives o .joins depth t'' more rest) :
      Derives o .joins depth ts (⟨s, kind, condition⟩ :: more) rest
  | origin {depth : Nat} {ts t rest : Tokens} {s : Source} {joins : List Join}
      (h : Derives o .source depth ts s t) (hjoins : Derives o .joins depth t joins rest) :
      Derives o .origin depth ts (s, joins) rest
  | descending {depth : Nat} {ts t rest : Tokens} {e : Expr}
      (h : Derives o .plain depth ts e t) (hdesc : t.Takes (· == .keyword .desc) rest) :
      Derives o .orderKey depth ts ⟨e, false⟩ rest
  | ascending {depth : Nat} {ts t rest : Tokens} {e : Expr} {b : Bool}
      (h : Derives o .plain depth ts e t) (hdesc : t.Lacks (· == .keyword .desc))
      (hasc : t.Maybe (· == .keyword .asc) b rest) : Derives o .orderKey depth ts ⟨e, true⟩ rest
  | rowCount {depth : Nat} {ts rest : Tokens} {n : Nat} (h : Gives (Read.rowCount ts) n rest) :
      Derives o .rowCount depth ts n rest
  | select {depth : Nat} {ts t₁ t₂ t₃ t₄ t₅ t₆ t₇ rest : Tokens} {distinct : Bool}
      {output : List Expr} {origin : Option (Source × List Join)} {filter : Option Expr}
      {groupBy : Option (List Expr)} {orderBy : Option (List OrderKey)} {limit : Option Nat}
      (h : ts.Takes (· == .keyword .select) t₁)
      (hdistinct : t₁.Maybe (· == .keyword .distinct) distinct t₂)
      (houtput : Derives o (.items .output) depth t₂ output t₃)
      (horigin : Derives o (.optional .fromWord .origin) depth t₃ origin t₄)
      (hfilter : Derives o (.optional .whereWord .plain) depth t₄ filter t₅)
      (hgroup : Derives o (.optional .group (.after .byWord (.items .plain))) depth t₅ groupBy t₆)
      (horder : Derives o (.optional .order (.after .byWord (.items .orderKey))) depth t₆ orderBy
        t₇)
      (hlimit : Derives o (.optional .limit .rowCount) depth t₇ limit rest) :
      Derives o .select depth ts
        ⟨ts.textUntil rest, distinct, output, origin.map Prod.fst, (origin.map Prod.snd).getD [],
          filter, groupBy.getD [], orderBy.getD [], limit, ts.start⟩ rest
  | row {depth : Nat} {ts t t' rest : Tokens} {row : List Expr}
      (h : ts.Takes (· == .mark .openParen) t) (hrow : Derives o (.items .plain) depth t row t')
      (hclose : t'.Takes (· == .mark .closeParen) rest) : Derives o .row depth ts row rest
  | assignment {depth : Nat} {ts t t' rest : Tokens} {column : String} {value : Expr}
      (h : Gives (Read.expectName ts) column t) (hsign : t.Takes (· == .mark .equal) t')
      (hvalue : Derives o .plain depth t' value rest) :
      Derives o .assignment depth ts ⟨column, 0, value, ts.start⟩ rest
  | name {depth : Nat} {ts rest : Tokens} {name : String}
      (h : Gives (Read.expectName ts) name rest) : Derives o .name depth ts name rest
  | column {depth : Nat} {ts rest : Tokens} {c : ColumnClause}
      (h : Gives (Read.columnClause ts) c rest) : Derives o .column depth ts c rest
  | noColumns {depth : Nat} {ts : Tokens} (h : ts.Lacks (· == .mark .openParen)) :
      Derives o .columns depth ts [] ts
  | columns {depth : Nat} {ts t t' rest : Tokens} {columns : List String}
      (h : ts.Takes (· == .mark .openParen) t)
      (hcolumns : Derives o (.items .name) depth t columns t')
      (hclose : t'.Takes (· == .mark .closeParen) rest) : Derives o .columns depth ts columns rest
  | last {item : Phrase} {depth : Nat} {ts rest : Tokens} {a : item.Value}
      (h : Derives o item depth ts a rest) (hrest : rest.Lacks (· == .comma)) :
      Derives o (.items item) depth ts [a] rest
  | more {item : Phrase} {depth : Nat} {ts t t' rest : Tokens} {a : item.Value}
      {as : List item.Value} (h : Derives o item depth ts a t) (hcomma : t.Takes (· == .comma) t')
      (hmore : Derives o (.items item) depth t' as rest) :
      Derives o (.items item) depth ts (a :: as) rest
  | absent {word : Keyword} {phrase : Phrase} {depth : Nat} {ts : Tokens}
      (h : ts.Lacks (· == .keyword word)) : Derives o (.optional word phrase) depth ts none ts
  | present {word : Keyword} {phrase : Phrase} {depth : Nat} {ts t rest : Tokens}
      {a : phrase.Value} (h : ts.Takes (· == .keyword word) t)
      (ha : Derives o phrase depth t a rest) :
      Derives o (.optional word phrase) depth ts (some a) rest
  | after {word : Keyword} {phrase : Phrase} {depth : Nat} {ts t rest : Tokens}
      {a : phrase.Value} (h : ts.Takes (· == .keyword word) t)
      (ha : Derives o phrase depth t a rest) : Derives o (.after word phrase) depth ts a rest

/-! ### Readers of single tokens -/

namespace Read

variable {ts rest : Tokens}

theorem skipKeyword_eq_ok {word : Keyword} {h : rest.length ≤ ts.length} :
    skipKeyword word ts = .ok ⟨rest, h⟩ ↔ ∃ b, ts.Maybe (· == .keyword word) b rest := by
  rw [skipKeyword, bind_eq_ok_iff, takeKeyword]
  constructor
  · rintro ⟨_ | ⟨after, hafter⟩, htake, h⟩
    · obtain rfl := congrArg Subtype.val (Except.ok.inj h)
      exact ⟨false, .absent (takeIf_eq_none.1 htake)⟩
    · obtain rfl := congrArg Subtype.val (Except.ok.inj h)
      exact ⟨true, .taken (takeIf_eq_some.1 htake)⟩
  · rintro ⟨_, htake | hlacks⟩
    · exact ⟨some ⟨rest, htake.length⟩, takeIf_eq_some.2 htake, rfl⟩
    · exact ⟨none, takeIf_eq_none.2 hlacks, rfl⟩

theorem numberValue_eq_ok {literal : String} {x : Float} :
    numberValue literal ts = .ok x ↔ Number.ofLiteral? literal = some x := by
  rw [numberValue]
  cases Number.ofLiteral? literal <;> simp

theorem gives_expectName {name : String} :
    Gives (expectName ts) name rest ↔ ts.Takes Token.isName rest ∧ name = ts.current.asName := by
  rw [expectName]
  simp only [gives_takeIf, gives_error, gives_ok, and_false, false_or]
  constructor
  · rintro ⟨_, _, h, rfl, rfl⟩
    exact ⟨h, rfl⟩
  · rintro ⟨h, rfl⟩
    exact ⟨rest, h.length, h, rfl, rfl⟩

/-- A column alone, with a source, or all columns of a source. -/
theorem gives_column {l : Lexeme} {t : Tokens} {r : ColumnRef} :
    Gives (column l t) r rest ↔ t.check = .ok () ∧
      (t.Lacks (· == .dot) ∧ rest = t ∧
          r = { qualifier := none, column := l.token.asName, offset := l.start } ∨
        ∃ t', t.Takes (· == .dot) t' ∧
          (t'.Takes (· == .mark .star) rest ∧
              r = { qualifier := some l.token.asName, column := "*", offset := l.start } ∨
            t'.Lacks (· == .mark .star) ∧ t'.Takes Token.isName rest ∧
              r = { qualifier := some l.token.asName, column := t'.current.asName,
                    offset := l.start })) := by
  rw [column]
  simp only [gives_unit, gives_takeIf, gives_bind, gives_expectName, gives_ok]
  constructor
  · rintro ⟨hcheck, ⟨hdot, rfl, rfl⟩ | ⟨t', _, hdot, ⟨hstar, name, _, _, ⟨hname, rfl⟩, rfl, rfl⟩ |
      ⟨_, _, hstar, rfl, rfl⟩⟩⟩
    · exact ⟨hcheck, .inl ⟨hdot, rfl, rfl⟩⟩
    · exact ⟨hcheck, .inr ⟨t', hdot, .inr ⟨hstar, hname, rfl⟩⟩⟩
    · exact ⟨hcheck, .inr ⟨t', hdot, .inl ⟨hstar, rfl⟩⟩⟩
  · rintro ⟨hcheck, ⟨hdot, rfl, rfl⟩ | ⟨t', hdot, ⟨hstar, rfl⟩ | ⟨hstar, hname, rfl⟩⟩⟩
    · exact ⟨hcheck, .inl ⟨hdot, rfl, rfl⟩⟩
    · exact ⟨hcheck, .inr ⟨t', hdot.length, hdot, .inr ⟨rest, hstar.length, hstar, rfl, rfl⟩⟩⟩
    · exact ⟨hcheck, .inr ⟨t', hdot.length, hdot, .inl ⟨hstar, _, rest, hname.length, ⟨hname, rfl⟩,
        rfl, rfl⟩⟩⟩

/-- The token is a name and no keyword. -/
def isPlainName : Token → Bool
  | .name .. => true
  | _        => false

theorem gives_sourceAlias {aliasName : Option String} :
    Gives (sourceAlias ts) aliasName rest ↔
      (∃ t, ts.Takes (· == .keyword .asWord) t ∧ t.Takes Token.isName rest ∧
        aliasName = some t.current.asName) ∨
      ts.Lacks (· == .keyword .asWord) ∧ (ts.Takes isPlainName rest ∧
          aliasName = some ts.current.asName ∨
        isPlainName ts.current = false ∧ aliasName = none ∧ rest = ts) := by
  have hplain : Gives (match ts.current with
      | .name .. => expectName ts >>= fun p => .ok (some p.1, p.2.upTo)
      | _        => (.ok (none, ⟨ts, Nat.le_refl _⟩) : ParsedUpTo (Option String) ts))
      aliasName rest ↔
      ts.Takes isPlainName rest ∧ aliasName = some ts.current.asName ∨
        isPlainName ts.current = false ∧ aliasName = none ∧ rest = ts := by
    split
    next hcurrent =>
      simp only [gives_bind, gives_expectName, gives_ok, Tokens.After.upTo, hcurrent, isPlainName]
      constructor
      · rintro ⟨_, _, _, ⟨h, rfl⟩, rfl, rfl⟩
        exact .inl ⟨h.of_current (by rw [hcurrent]; rfl), rfl⟩
      · rintro (⟨h, rfl⟩ | ⟨⟨⟩, -⟩)
        exact ⟨_, rest, h.length, ⟨h.of_current (by rw [hcurrent]; rfl), rfl⟩, rfl, rfl⟩
    next hcurrent =>
      have hnot : isPlainName ts.current = false := by
        unfold isPlainName
        split
        next h => exact absurd h (hcurrent _ _)
        next => rfl
      simp only [gives_ok, hnot, true_and]
      exact ⟨.inr, fun h => h.resolve_left fun h => by cases hnot.symm.trans h.1.current⟩
  rw [sourceAlias]
  simp only [takeKeyword, gives_takeIf]
  rw [or_comm]
  refine or_congr ?_ (and_congr_right' hplain)
  simp only [gives_bind, gives_expectName, gives_ok, Tokens.After.since, Tokens.After.upTo]
  constructor
  · rintro ⟨t, _, h, _, _, _, ⟨hname, rfl⟩, rfl, rfl⟩
    exact ⟨t, h, hname, rfl⟩
  · rintro ⟨t, h, hname, rfl⟩
    exact ⟨t, h.length, h, _, rest, hname.length, ⟨hname, rfl⟩, rfl, rfl⟩

/-- The row count that the token is. -/
def rowCount? : Token → Option Nat
  | .number literal =>
    let n := Nat.ofDigitChars 10 literal.toList 0
    if literal.toList.all Char.isDigit && n < Nat.pow 2 64 then some n else none
  | _ => none

theorem gives_rowCount {n : Nat} :
    Gives (rowCount ts) n rest ↔ ts.Takes (rowCount? · == some n) rest := by
  cases ts with
  | finish | broken => exact ⟨nofun, nofun⟩
  | next l after =>
    rw [rowCount]
    have hnone (hl : ∀ n, rowCount? l.token ≠ some n) {e : Error} :
        Gives (.error e : Parsed Nat (.next l after)) n rest ↔
          (Tokens.next l after).Takes (rowCount? · == some n) rest :=
      ⟨fun h => (gives_error.1 h).elim, fun h => absurd (beq_iff_eq.1 h.current) (hl n)⟩
    split
    next literal hl =>
      dsimp only
      split
      next hsome =>
        have hcount : rowCount? l.token = some (Nat.ofDigitChars 10 literal.toList 0) := by
          rw [hl]
          exact if_pos hsome
        simp only [gives_unit, gives_ok]
        rw [Tokens.takes_next, hcount, beq_iff_eq, Option.some.injEq]
        tauto
      next hsome =>
        refine hnone fun n hn => ?_
        rw [hl] at hn
        cases (if_neg hsome).symm.trans hn
    next hl =>
      refine hnone fun n hn => ?_
      unfold rowCount? at hn
      split at hn
      next literal hnumber => exact absurd hnumber (hl literal)
      next => cases hn

theorem gives_columnType {type : DataType} :
    Gives (columnType ts) type rest ↔ ts.Takes (·.type? == some type) rest := by
  rw [columnType_eq]
  cases htype : ts.current.type? with
  | none =>
    simp only [gives_takeIf, gives_error, and_false, exists_false, or_self]
    exact ⟨nofun, fun h => by simpa [htype] using h.current⟩
  | some found =>
    simp only [gives_takeIf, gives_error, gives_ok, and_false, false_or]
    constructor
    · rintro ⟨_, _, h, rfl, rfl⟩
      exact h.of_current (by simp [htype])
    · intro h
      have hfound : found = type := by simpa [htype] using h.current
      exact ⟨rest, h.length, h.of_current rfl, hfound.symm, rfl⟩

theorem gives_columnClause {c : ColumnClause} :
    Gives (columnClause ts) c rest ↔ ∃ t, ts.Takes Token.isName t ∧
      t.Takes (·.type? == some c.type) rest ∧ c = ⟨ts.current.asName, c.type, ts.start⟩ := by
  rw [columnClause]
  simp only [gives_bind, gives_expectName, gives_columnType, gives_ok, Tokens.After.since]
  constructor
  · rintro ⟨_, t, _, ⟨hname, rfl⟩, type, _, _, htype, rfl, rfl⟩
    exact ⟨t, hname, htype, rfl⟩
  · rintro ⟨t, hname, htype, hc⟩
    exact ⟨_, t, hname.length, ⟨hname, rfl⟩, c.type, rest, htype.length, htype, hc, rfl⟩

/-- A join starts with the token. -/
def startsJoin (t : Token) : Bool :=
  t == .keyword .join || (joinWord? t).isSome

/-- What goes on a join after its first word. -/
def joinRest (kind : JoinKind) (outer : Bool) (l : Lexeme) (t : Tokens) :
    Except Error (Option (JoinKind × (Tokens.next l t).After)) := do
  let ⟨afterOuter, hOuter⟩ ← if outer then skipKeyword .outer t else .ok ⟨t, t.length_le_self⟩
  let ⟨afterJoin, hJoin⟩ ← expectKeyword .join afterOuter
  .ok (some (kind, ⟨afterJoin, Tokens.length_lt_next l hOuter hJoin⟩))

theorem joinRest_eq_ok {kind : JoinKind} {outer : Bool} {l : Lexeme} {t : Tokens}
    {found : Option (JoinKind × (Tokens.next l t).After)} :
    joinRest kind outer l t = .ok found ↔ ∃ t' last, ∃ h,
      (if outer then ∃ b, t.Maybe (· == .keyword .outer) b t' else t' = t) ∧
      t'.Takes (· == .keyword .join) last ∧ found = some (kind, ⟨last, h⟩) := by
  cases outer with
  | true =>
    simp only [joinRest, if_true, bind_eq_ok_iff, Subtype.exists, skipKeyword_eq_ok,
      expectKeyword_eq_ok]
    constructor
    · rintro ⟨t', hle, hskip, last, _, hjoin, ⟨⟩⟩
      exact ⟨t', last, Tokens.length_lt_next l hle hjoin.length, hskip, hjoin, rfl⟩
    · rintro ⟨t', last, _, ⟨b, hskip⟩, hjoin, rfl⟩
      exact ⟨t', hskip.tail.length, ⟨b, hskip⟩, last, hjoin.length, hjoin, rfl⟩
  | false =>
    simp only [joinRest, Bool.false_eq_true, if_false, ok_bind, bind_eq_ok_iff, Subtype.exists,
      expectKeyword_eq_ok]
    constructor
    · rintro ⟨last, _, hjoin, ⟨⟩⟩
      exact ⟨t, last, Tokens.length_lt_next l t.length_le_self hjoin.length, rfl, hjoin, rfl⟩
    · rintro ⟨_, last, _, rfl, hjoin, rfl⟩
      exact ⟨last, hjoin.length, hjoin, rfl⟩

theorem joinKind_eq_none : joinKind ts = .ok none ↔ ts.Lacks startsJoin := by
  cases ts with
  | finish | broken => exact ⟨fun _ => nofun, fun _ => rfl⟩
  | next l after =>
    rw [joinKind, Tokens.lacks_next, startsJoin]
    split
    next hjoin => simp [hjoin, bind_eq_ok_iff]
    next hjoin =>
      cases hword : joinWord? l.token with
      | none => simp [hjoin]
      | some found =>
        obtain ⟨kind, outer⟩ := found
        change (after.check >>= fun _ => joinRest kind outer l after) = _ ↔ _
        simp [bind_eq_ok_iff, joinRest_eq_ok]

theorem joinKind_eq_some {kind : JoinKind} {h : rest.length < ts.length} :
    joinKind ts = .ok (some (kind, ⟨rest, h⟩)) ↔
      ts.Takes (· == .keyword .join) rest ∧ kind = .inner ∨
      ∃ outer t t', ts.Takes (joinWord? · == some (kind, outer)) t ∧
        (if outer then ∃ b, t.Maybe (· == .keyword .outer) b t' else t' = t) ∧
        t'.Takes (· == .keyword .join) rest := by
  cases ts with
  | finish | broken => exact absurd h (Nat.not_lt_zero _)
  | next l after =>
    simp only [Tokens.takes_next]
    rw [joinKind]
    split
    next hjoin =>
      have hword : joinWord? l.token = none := by rw [beq_iff_eq.1 hjoin]; rfl
      simp only [bind_eq_ok_iff, hjoin, hword]
      constructor
      · rintro ⟨_, hcheck, ⟨⟩⟩
        exact .inl ⟨⟨trivial, rfl, hcheck⟩, rfl⟩
      · rintro (⟨⟨-, rfl, hcheck⟩, rfl⟩ | ⟨_, _, _, ⟨⟨⟩, -⟩, -⟩)
        exact ⟨(), hcheck, rfl⟩
    next hjoin =>
      cases hword : joinWord? l.token with
      | none => simp [hjoin]
      | some found =>
        obtain ⟨kind', outer'⟩ := found
        change (after.check >>= fun _ => joinRest kind' outer' l after) = _ ↔ _
        simp only [bind_eq_ok_iff, joinRest_eq_ok, hjoin, beq_iff_eq, Option.some.injEq,
          Prod.mk.injEq]
        constructor
        · rintro ⟨_, hcheck, t', last, _, hskip, htake, rfl, ⟨⟩⟩
          exact .inr ⟨outer', after, t', ⟨⟨rfl, rfl⟩, rfl, hcheck⟩, hskip, htake⟩
        · rintro (⟨⟨⟨⟩, -⟩, -⟩ | ⟨outer, _, t', ⟨⟨rfl, rfl⟩, rfl, hcheck⟩, hskip, htake⟩)
          exact ⟨(), hcheck, t', rest, h, hskip, htake, rfl, rfl⟩

end Read

/-! ### What is left -/

namespace Read

variable {ts t rest : Tokens}

theorem tail_of_expectName {name : String} (h : Gives (expectName ts) name rest) : ts.Tail rest :=
  (gives_expectName.1 h).1.tail

theorem tail_of_column {l : Lexeme} {r : ColumnRef} (h : Gives (column l t) r rest) :
    t.Tail rest := by
  obtain ⟨-, ⟨-, rfl, -⟩ | ⟨t', hdot, ⟨hstar, -⟩ | ⟨-, hname, -⟩⟩⟩ := gives_column.1 h
  · exact .refl _
  · exact hdot.tail.trans hstar.tail
  · exact hdot.tail.trans hname.tail

theorem tail_of_sourceAlias {aliasName : Option String}
    (h : Gives (sourceAlias ts) aliasName rest) : ts.Tail rest := by
  obtain ⟨t, has, hname, -⟩ | ⟨-, ⟨hname, -⟩ | ⟨-, -, rfl⟩⟩ := gives_sourceAlias.1 h
  · exact has.tail.trans hname.tail
  · exact hname.tail
  · exact .refl _

theorem tail_of_joinKind {kind : JoinKind} {hlt : rest.length < ts.length}
    (h : joinKind ts = .ok (some (kind, ⟨rest, hlt⟩))) : ts.Tail rest := by
  obtain ⟨hjoin, -⟩ | ⟨outer, t, t', hword, hskip, hjoin⟩ := joinKind_eq_some.1 h
  · exact hjoin.tail
  · refine hword.tail.trans (.trans ?_ hjoin.tail)
    cases outer with
    | true =>
      obtain ⟨b, hskip⟩ := hskip
      exact hskip.tail
    | false =>
      obtain rfl : t' = t := hskip
      exact .refl _

end Read

open Read in
/-- What is left after a phrase is left of its tokens. -/
theorem Derives.tail {o : ParserOptions} {k : Phrase} {depth : Nat} {ts rest : Tokens} {a : k.Value}
    (h : Derives o k depth ts a rest) : ts.Tail rest := by
  induction h with
  | operands _ _ ih ih' => exact ih.trans ih'
  | ends | noColumns | absent | noJoin => exact .refl _
  | closes h => exact h.tail
  | operator h _ ih => exact h.tail.trans ih
  | operand _ _ ih => exact ih
  | call _ _ _ _ ih ih' => exact ih.trans ih'
  | value _ h => exact h.tail
  | reference _ _ h => exact .next (tail_of_column h)
  | word => exact .next (.refl _)
  | negative h _ _ h' => exact h.tail.trans h'.tail
  | group _ h _ _ ih => exact h.tail.trans ih
  | valueSelect _ _ h _ _ hclose ih => exact h.tail.trans (ih.trans hclose.tail)
  | noArguments _ h hclose => exact h.tail.trans hclose.tail
  | allRows _ h hstar hclose => exact h.tail.trans (hstar.tail.trans hclose.tail)
  | arguments _ h _ _ _ hclose ih => exact h.tail.trans (ih.trans hclose.tail)
  | expression _ _ ih => exact ih
  | star h => exact h.tail
  | bare _ _ ih => exact ih
  | output _ _ ih => exact ih
  | named _ _ has hname ih => exact ih.trans (has.tail.trans (tail_of_expectName hname))
  | table h halias => exact (tail_of_expectName h).trans (tail_of_sourceAlias halias)
  | subSelect _ h _ _ hclose halias ih =>
    exact h.tail.trans (ih.trans (hclose.tail.trans (tail_of_sourceAlias halias)))
  | join h _ _ _ ih ih' ih'' => exact (tail_of_joinKind h).trans (ih.trans (ih'.trans ih''))
  | origin _ _ ih ih' => exact ih.trans ih'
  | descending _ hdesc ih => exact ih.trans hdesc.tail
  | ascending _ _ hasc ih => exact ih.trans hasc.tail
  | rowCount h => exact (gives_rowCount.1 h).tail
  | select h hdistinct _ _ _ _ _ _ ih ih₁ ih₂ ih₃ ih₄ ih₅ =>
    exact h.tail.trans (hdistinct.tail.trans (ih.trans (ih₁.trans (ih₂.trans (ih₃.trans
      (ih₄.trans ih₅))))))
  | row h _ hclose ih => exact h.tail.trans (ih.trans hclose.tail)
  | assignment h hsign _ ih => exact (tail_of_expectName h).trans (hsign.tail.trans ih)
  | name h => exact tail_of_expectName h
  | column h =>
    obtain ⟨t, hname, htype, -⟩ := gives_columnClause.1 h
    exact hname.tail.trans htype.tail
  | columns h _ hclose ih => exact h.tail.trans (ih.trans hclose.tail)
  | last _ _ ih => exact ih
  | more _ hcomma _ ih ih' => exact ih.trans (hcomma.tail.trans ih')
  | present h _ ih | after h _ ih => exact h.tail.trans ih

end SqlEngine

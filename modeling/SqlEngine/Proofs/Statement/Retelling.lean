import SqlEngine.Proofs.Result
import SqlEngine.Statement.Parser

/-!
# Statements — texts told in another way

Two texts may have the same tokens at different places and in different spellings.  A `Retelling`
says how much of the places and of the texts that a statement records is told, and two texts may be
told alike (`Tokens.Tell`).  Every reader then reads the same from both, as far as it is told, or
fails on both with one error.

* `Read.statement_alike`: the reader of statements on two texts, and with it all that it calls.
* `Statement.ofTokens_alike`: the whole parser on two texts.
-/

namespace SqlEngine

/-- How the places in a text are told, and the parts of it. -/
structure Retelling where
  place : Nat → Nat
  text : String → String

variable {α β γ δ : Type} {ρ ρ' : Retelling} {hard : NumberFault → Prop}

/-! ### A statement as it is told -/

def ColumnRef.retold (ρ : Retelling) (r : ColumnRef) : ColumnRef :=
  { r with offset := ρ.place r.offset }

mutual

/-- The expression as it is told. -/
def Expr.retold (ρ : Retelling) : Expr → Expr
  | ⟨nodes, type, isBoolean, hasAggregate, source, aliasName, offset⟩ =>
    ⟨Node.retoldAll ρ nodes, type, isBoolean, hasAggregate, ρ.text source, aliasName,
      ρ.place offset⟩

def Node.retold (ρ : Retelling) : Node → Node
  | .column r => .column (r.retold ρ)
  | .call f   => .call (f.retold ρ)
  | .select s => .select (s.retold ρ)
  | n         => n

def Node.retoldAll (ρ : Retelling) : List Node → List Node
  | []      => []
  | n :: ns => n.retold ρ :: Node.retoldAll ρ ns

def Call.retold (ρ : Retelling) : Call → Call
  | ⟨function, arguments, target, type, isAggregate, offset⟩ =>
    ⟨function, Expr.retoldAll ρ arguments, target, type, isAggregate, ρ.place offset⟩

def Expr.retoldAll (ρ : Retelling) : List Expr → List Expr
  | []      => []
  | e :: es => e.retold ρ :: Expr.retoldAll ρ es

def Expr.retoldOption (ρ : Retelling) : Option Expr → Option Expr
  | none   => none
  | some e => some (e.retold ρ)

def Source.retold (ρ : Retelling) : Source → Source
  | .table name aliasName id offset => .table name aliasName id (ρ.place offset)
  | .select s aliasName offset      => .select (s.retold ρ) aliasName (ρ.place offset)

def Source.retoldOption (ρ : Retelling) : Option Source → Option Source
  | none   => none
  | some s => some (s.retold ρ)

def Join.retoldAll (ρ : Retelling) : List Join → List Join
  | []                             => []
  | ⟨source, kind, condition⟩ :: js =>
    ⟨source.retold ρ, kind, Expr.retoldOption ρ condition⟩ :: Join.retoldAll ρ js

def OrderKey.retoldAll (ρ : Retelling) : List OrderKey → List OrderKey
  | []                   => []
  | ⟨e, ascending⟩ :: ks => ⟨e.retold ρ, ascending⟩ :: OrderKey.retoldAll ρ ks

/-- The SELECT as it is told. -/
def Select.retold (ρ : Retelling) : Select → Select
  | ⟨text, distinct, output, origin, joins, filter, groupBy, orderBy, limit, offset⟩ =>
    ⟨ρ.text text, distinct, Expr.retoldAll ρ output, Source.retoldOption ρ origin,
      Join.retoldAll ρ joins, Expr.retoldOption ρ filter, Expr.retoldAll ρ groupBy,
      OrderKey.retoldAll ρ orderBy, limit, ρ.place offset⟩

end

def Insert.retold (ρ : Retelling) (s : Insert) : Insert :=
  { s with
    text := ρ.text s.text
    rows := s.rows.map (Expr.retoldAll ρ)
    offset := ρ.place s.offset }

def Assignment.retold (ρ : Retelling) (a : Assignment) : Assignment :=
  { a with value := a.value.retold ρ, offset := ρ.place a.offset }

def Update.retold (ρ : Retelling) (s : Update) : Update :=
  { s with
    text := ρ.text s.text
    assignments := s.assignments.map (Assignment.retold ρ)
    filter := Expr.retoldOption ρ s.filter
    offset := ρ.place s.offset }

def Delete.retold (ρ : Retelling) (s : Delete) : Delete :=
  { s with
    text := ρ.text s.text
    filter := Expr.retoldOption ρ s.filter
    offset := ρ.place s.offset }

def ColumnClause.retold (ρ : Retelling) (c : ColumnClause) : ColumnClause :=
  { c with offset := ρ.place c.offset }

def Create.retold (ρ : Retelling) (s : Create) : Create :=
  { s with
    text := ρ.text s.text
    columns := s.columns.map (ColumnClause.retold ρ)
    offset := ρ.place s.offset }

/-- The statement as it is told. -/
def Statement.retold (ρ : Retelling) : Statement → Statement
  | .select s => .select (s.retold ρ)
  | .insert s => .insert (s.retold ρ)
  | .update s => .update (s.retold ρ)
  | .delete s => .delete (s.retold ρ)
  | .create s => .create (s.retold ρ)

section Fields

variable (ρ : Retelling)

theorem Node.retoldAll_eq_map (ns : List Node) :
    Node.retoldAll ρ ns = ns.map (Node.retold ρ) := by
  induction ns with
  | nil => rfl
  | cons n ns ih => rw [Node.retoldAll, ih, List.map_cons]

@[simp] theorem Expr.retold_nodes (e : Expr) :
    (e.retold ρ).nodes = e.nodes.map (Node.retold ρ) := by
  obtain ⟨nodes, _, _, _, _, _, _⟩ := e
  exact Node.retoldAll_eq_map ρ nodes

@[simp] theorem Node.isWildcard_retold (n : Node) :
    (n.retold ρ).isWildcard = n.isWildcard := by
  cases n <;> rfl

@[simp] theorem Expr.containsWildcard_retold (e : Expr) :
    (e.retold ρ).containsWildcard = e.containsWildcard := by
  simp only [Expr.containsWildcard, retold_nodes, List.any_map, Function.comp_def,
    Node.isWildcard_retold]

theorem Expr.column?_retold (e : Expr) :
    (e.retold ρ).column? = e.column?.map (ColumnRef.retold ρ) := by
  simp only [Expr.column?, retold_nodes]
  match e.nodes with
  | []            => rfl
  | [n]           => cases n <;> rfl
  | n :: m :: ns  => cases n <;> rfl

@[simp] theorem Expr.isWildcard_retold (e : Expr) :
    (e.retold ρ).isWildcard = e.isWildcard := by
  simp only [Expr.isWildcard, column?_retold]
  cases e.column? <;> rfl

end Fields

theorem Expr.containsWildcard_of_retold {e e' : Expr} (h : e'.retold ρ' = e.retold ρ) :
    e'.containsWildcard = e.containsWildcard := by
  rw [← containsWildcard_retold ρ', h, containsWildcard_retold]

theorem Expr.isWildcard_of_retold {e e' : Expr} (h : e'.retold ρ' = e.retold ρ) :
    e'.isWildcard = e.isWildcard := by
  rw [← isWildcard_retold ρ', h, isWildcard_retold]

/-! ### Results -/

/-- One error in two texts.  What it is near is one token, or a part of each text. -/
inductive Error.Told (ρ ρ' : Retelling) (hard : NumberFault → Prop) : Error → Error → Prop
  | lex {fault : NumberFault} (hhard : hard fault) {offset offset' : Nat}
      (hplace : ρ'.place offset' = ρ.place offset) :
      Told ρ ρ' hard (.lex fault offset) (.lex fault offset')
  | parse (fault : ParseFault) {near near' : String} {offset offset' : Nat}
      (hnear : near' = near ∨ ρ'.text near' = ρ.text near)
      (hplace : ρ'.place offset' = ρ.place offset) :
      Told ρ ρ' hard (.parse fault near offset) (.parse fault near' offset')

/-- Two results: related values, or one error in two texts. -/
inductive Told (ρ ρ' : Retelling) (hard : NumberFault → Prop) (R : α → β → Prop) :
    Except Error α → Except Error β → Prop
  | ok {a : α} {b : β} (h : R a b) : Told ρ ρ' hard R (.ok a) (.ok b)
  | error {e e' : Error} (h : e.Told ρ ρ' hard e') : Told ρ ρ' hard R (.error e) (.error e')

namespace Told

variable {R : α → β → Prop} {S : γ → δ → Prop} {x : Except Error α} {y : Except Error β}

theorem bind {f : α → Except Error γ} {g : β → Except Error δ} (h : Told ρ ρ' hard R x y)
    (hf : ∀ a b, R a b → Told ρ ρ' hard S (f a) (g b)) : Told ρ ρ' hard S (x >>= f) (y >>= g) := by
  cases h with
  | ok h => exact hf _ _ h
  | error h => exact .error h

theorem map {f : α → γ} {g : β → δ} (h : Told ρ ρ' hard R x y)
    (hf : ∀ a b, R a b → S (f a) (g b)) : Told ρ ρ' hard S (x.map f) (y.map g) := by
  cases h with
  | ok h => exact .ok (hf _ _ h)
  | error h => exact .error h

end Told

/-! ### Tokens that are told alike -/

/-- The same token at the front of two texts, what follows being told alike by `T`.  A malformed
number has a fault for which `hard` holds. -/
inductive Tokens.Fronts (ρ ρ' : Retelling) (hard : NumberFault → Prop)
    (T : Tokens → Tokens → Prop) : Tokens → Tokens → Prop
  | finish (gap gap' : List Char) {start start' : Nat} (hstart : ρ'.place start' = ρ.place start) :
      Fronts ρ ρ' hard T (finish gap start) (finish gap' start')
  | broken {fault : NumberFault} (hhard : hard fault) {offset offset' : Nat}
      (hplace : ρ'.place offset' = ρ.place offset) :
      Fronts ρ ρ' hard T (broken fault offset) (broken fault offset')
  | next (gap gap' spelling spelling' : List Char) (token : Token) {start start' : Nat}
      {rest rest' : Tokens} (hstart : ρ'.place start' = ρ.place start) (hrest : T rest rest')
      (hnumber : ∀ literal, token = .number literal → Number.ofLiteral? literal = none →
        hard (.unreadable literal)) :
      Fronts ρ ρ' hard T (next ⟨start, gap, spelling, token⟩ rest)
        (next ⟨start', gap', spelling', token⟩ rest')

/-- The relation is between tokens that are told alike. -/
structure Tokens.Tell (ρ ρ' : Retelling) (hard : NumberFault → Prop)
    (T : Tokens → Tokens → Prop) : Prop where
  fronts : ∀ {ts ts'}, T ts ts' → Tokens.Fronts ρ ρ' hard T ts ts'
  text : ∀ {ts ts' rest rest'}, T ts ts' → T rest rest' →
    ρ'.text (ts'.textUntil rest') = ρ.text (ts.textUntil rest)
  star : ρ'.text "*" = ρ.text "*"

variable {T : Tokens → Tokens → Prop} {ts ts' : Tokens}

namespace Tokens.Tell

variable (hT : Tokens.Tell ρ ρ' hard T) (h : T ts ts')

include hT h

theorem current : ts'.current = ts.current := by
  cases hT.fronts h <;> rfl

theorem second : ts'.second = ts.second := by
  cases hT.fronts h with
  | finish | broken => rfl
  | next _ _ _ _ _ _ hrest => exact current hT hrest

theorem start : ρ'.place ts'.start = ρ.place ts.start := by
  cases hT.fronts h <;> assumption

theorem fault {R : α → β → Prop} (f : ParseFault) :
    Told ρ ρ' hard R (.error (ts.fault f)) (.error (ts'.fault f)) :=
  .error (.parse f (.inl (congrArg Token.display (current hT h))) (start hT h))

theorem check : Told ρ ρ' hard (fun _ _ => True) ts.check ts'.check := by
  cases hT.fronts h with
  | finish => exact .ok trivial
  | broken hhard hplace => exact .error (.lex hhard hplace)
  | next gap gap' spelling spelling' token hstart hrest =>
    cases hT.fronts hrest with
    | broken hhard hplace => exact .error (.lex hhard hplace)
    | finish | next =>
      cases token with
      | string content closed | name text closed =>
        cases closed with
        | true => exact .ok trivial
        | false => exact .error (.parse _ (.inl rfl) hstart)
      | stray c => exact .error (.parse _ (.inl rfl) hstart)
      | number | keyword | mark | comma | semicolon | dot | finish => exact .ok trivial

end Tokens.Tell

/-! ### Readers of tokens -/

section Readers

variable {P P' : Tokens → Prop} {R : β → γ → Prop}

/-- A reader takes tokens and then goes on. -/
theorem Told.take {x : Except Error { rest // P rest }} {x' : Except Error { rest // P' rest }}
    {f : { rest // P rest } → Except Error β} {f' : { rest // P' rest } → Except Error γ}
    (h : Told ρ ρ' hard (fun a a' => T a.1 a'.1) x x')
    (hf : ∀ rest hrest rest' hrest', T rest rest' →
      Told ρ ρ' hard R (f ⟨rest, hrest⟩) (f' ⟨rest', hrest'⟩)) :
    Told ρ ρ' hard R (x >>= f) (x' >>= f') :=
  h.bind fun a a' => hf a.1 a.2 a'.1 a'.2

/-- A reader takes tokens if they are there, and then goes on. -/
theorem Told.takeOption {x : Except Error (Option { rest // P rest })}
    {x' : Except Error (Option { rest // P' rest })}
    {f : Option { rest // P rest } → Except Error β}
    {f' : Option { rest // P' rest } → Except Error γ}
    (h : Told ρ ρ' hard (Option.Rel fun a a' => T a.1 a'.1) x x')
    (hsome : ∀ rest hrest rest' hrest', T rest rest' →
      Told ρ ρ' hard R (f (some ⟨rest, hrest⟩)) (f' (some ⟨rest', hrest'⟩)))
    (hnone : Told ρ ρ' hard R (f none) (f' none)) :
    Told ρ ρ' hard R (x >>= f) (x' >>= f') := by
  refine h.bind ?_
  rintro _ _ (hrest | _)
  · exact hsome _ _ _ _ hrest
  · exact hnone

namespace Read

/-- Two readers read what is told alike, and leave tokens that are told alike. -/
abbrev Alike (ρ ρ' : Retelling) (hard : NumberFault → Prop) (T : Tokens → Tokens → Prop)
    (tell : Retelling → α → β) (x : Except Error (α × { rest // P rest }))
    (x' : Except Error (α × { rest // P' rest })) : Prop :=
  Told ρ ρ' hard (fun a a' => tell ρ' a'.1 = tell ρ a.1 ∧ T a.2.1 a'.2.1) x x'

/-- A reader reads something and then goes on. -/
theorem Alike.read {δ : Type} {tell : Retelling → α → δ}
    {x : Except Error (α × { rest // P rest })} {x' : Except Error (α × { rest // P' rest })}
    {f : α × { rest // P rest } → Except Error β} {f' : α × { rest // P' rest } → Except Error γ}
    (h : Alike ρ ρ' hard T tell x x')
    (hf : ∀ a a' rest hrest rest' hrest', tell ρ' a' = tell ρ a → T rest rest' →
      Told ρ ρ' hard R (f (a, ⟨rest, hrest⟩)) (f' (a', ⟨rest', hrest'⟩))) :
    Told ρ ρ' hard R (x >>= f) (x' >>= f') :=
  h.bind fun a a' ha => hf a.1 a'.1 a.2.1 a.2.2 a'.2.1 a'.2.2 ha.1 ha.2

/-- What is told of a value that has no places: all of it. -/
abbrev all (_ : Retelling) (a : α) : α := a

/-- A reader reads a value without places and then goes on. -/
theorem Alike.readSame {x : Except Error (α × { rest // P rest })}
    {x' : Except Error (α × { rest // P' rest })}
    {f : α × { rest // P rest } → Except Error β} {f' : α × { rest // P' rest } → Except Error γ}
    (h : Alike ρ ρ' hard T all x x')
    (hf : ∀ a rest hrest rest' hrest', T rest rest' →
      Told ρ ρ' hard R (f (a, ⟨rest, hrest⟩)) (f' (a, ⟨rest', hrest'⟩))) :
    Told ρ ρ' hard R (x >>= f) (x' >>= f') := by
  refine h.read fun a a' rest hrest rest' hrest' ha => ?_
  obtain rfl : a' = a := ha
  exact hf a' rest hrest rest' hrest'

end Read

end Readers

/-- The type that a token names. -/
def Token.type? : Token → Option DataType
  | .keyword word => DataType.ofName? word.text
  | .name text _  => DataType.ofName? text
  | _             => none

namespace Read

variable {o : ParserOptions} {depth : Nat}

section Tokens

variable (hT : Tokens.Tell ρ ρ' hard T)

include hT

theorem takeIf_alike (p : Token → Bool) (h : T ts ts') :
    Told ρ ρ' hard (Option.Rel fun a a' => T a.1 a'.1) (takeIf p ts) (takeIf p ts') := by
  cases hT.fronts h with
  | finish | broken => exact .ok .none
  | next gap gap' spelling spelling' token hstart hrest =>
    simp only [takeIf]
    split
    · exact (hT.check hrest).bind fun _ _ _ => .ok (.some hrest)
    · exact .ok .none

theorem expectKeyword_alike (word : Keyword) (h : T ts ts') :
    Told ρ ρ' hard (fun a a' => T a.1 a'.1) (expectKeyword word ts) (expectKeyword word ts') := by
  refine (takeIf_alike hT _ h).takeOption (fun _ _ _ _ hrest => .ok hrest) ?_
  exact hT.fault h _

theorem expectMark_alike (mark : Mark) (h : T ts ts') :
    Told ρ ρ' hard (fun a a' => T a.1 a'.1) (expectMark mark ts) (expectMark mark ts') := by
  refine (takeIf_alike hT _ h).takeOption (fun _ _ _ _ hrest => .ok hrest) ?_
  exact hT.fault h _

theorem expectName_alike (h : T ts ts') :
    Alike ρ ρ' hard T all (expectName ts) (expectName ts') := by
  refine (takeIf_alike hT _ h).takeOption
    (fun _ _ _ _ hrest => .ok ⟨congrArg Token.asName (hT.current h), hrest⟩) ?_
  exact hT.fault h _

theorem enter_alike (h : T ts ts') :
    Told ρ ρ' hard (fun _ _ => True) (enter o depth ts) (enter o depth ts') := by
  simp only [enter]
  split
  · exact hT.fault h _
  · exact .ok trivial

theorem numberValue_alike {literal : String} (h : T ts ts')
    (hnumber : Number.ofLiteral? literal = none → hard (.unreadable literal)) :
    Told ρ ρ' hard Eq (numberValue literal ts) (numberValue literal ts') := by
  simp only [numberValue]
  split
  · exact .ok rfl
  next hnone => exact .error (.lex (hnumber hnone) (hT.start h))

theorem column_alike (gap gap' spelling spelling' : List Char) (token : Token) {start start' : Nat}
    {rest rest' : Tokens} (hstart : ρ'.place start' = ρ.place start) (h : T rest rest') :
    Alike ρ ρ' hard T ColumnRef.retold (column ⟨start, gap, spelling, token⟩ rest)
      (column ⟨start', gap', spelling', token⟩ rest') := by
  have hname (qualifier : Option String) (column : String) :
      ColumnRef.retold ρ' { qualifier, column, offset := start' } =
        ColumnRef.retold ρ { qualifier, column, offset := start } := by
    simp only [ColumnRef.retold, hstart]
  refine (hT.check h).bind fun _ _ _ => (takeIf_alike hT _ h).takeOption ?_ (.ok ⟨hname _ _, h⟩)
  intro afterDot _ afterDot' _ hafter
  refine (takeIf_alike hT _ hafter).takeOption (fun _ _ _ _ hstar => .ok ⟨hname _ _, hstar⟩) ?_
  exact (expectName_alike hT hafter).readSame fun _ _ _ _ _ hlast => .ok ⟨hname _ _, hlast⟩

theorem skipKeyword_alike (word : Keyword) (h : T ts ts') :
    Told ρ ρ' hard (fun a a' => T a.1 a'.1) (skipKeyword word ts) (skipKeyword word ts') :=
  (takeIf_alike hT _ h).takeOption (fun _ _ _ _ hrest => .ok hrest) (.ok h)

theorem joinKind_alike (h : T ts ts') :
    Told ρ ρ' hard (Option.Rel fun a a' => a'.1 = a.1 ∧ T a.2.1 a'.2.1) (joinKind ts)
      (joinKind ts') := by
  cases hT.fronts h with
  | finish | broken => exact .ok .none
  | next gap gap' spelling spelling' token hstart hrest =>
    simp only [joinKind]
    split
    · exact (hT.check hrest).bind fun _ _ _ => .ok (.some ⟨rfl, hrest⟩)
    split
    · exact .ok .none
    · refine (hT.check hrest).bind fun _ _ _ => ?_
      split
      · refine (skipKeyword_alike hT .outer hrest).take fun _ _ _ _ hafter => ?_
        exact (expectKeyword_alike hT .join hafter).take fun _ _ _ _ hjoin =>
          .ok (.some ⟨rfl, hjoin⟩)
      · exact (expectKeyword_alike hT .join hrest).take fun _ _ _ _ hjoin =>
          .ok (.some ⟨rfl, hjoin⟩)

theorem sourceAlias_alike (h : T ts ts') :
    Alike ρ ρ' hard T all (sourceAlias ts) (sourceAlias ts') := by
  refine (takeIf_alike hT _ h).takeOption (fun afterAs _ afterAs' _ hafter => ?_) ?_
  · exact (expectName_alike hT hafter).readSame fun _ _ _ _ _ hrest => .ok ⟨rfl, hrest⟩
  · simp only [hT.current h]
    split
    · exact (expectName_alike hT h).readSame fun _ _ _ _ _ hrest => .ok ⟨rfl, hrest⟩
    · exact .ok ⟨rfl, h⟩

/-- Items that are read alike make lists that are read alike. -/
theorem separated_alike {tell : Retelling → α → α} {item : (ts : Tokens) → Parsed α ts}
    (hitem : ∀ {ts ts'}, T ts ts' → Alike ρ ρ' hard T tell (item ts) (item ts'))
    {ts ts' : Tokens} (h : T ts ts') :
    Alike ρ ρ' hard T (fun ρ => List.map (tell ρ)) (separated item ts) (separated item ts') := by
  rw [separated, separated]
  refine (hitem h).read fun first first' afterFirst hfirst afterFirst' _ ha hafter => ?_
  refine (takeIf_alike hT _ hafter).takeOption ?_ (.ok ⟨congrArg ([·]) ha, hafter⟩)
  intro afterComma hcomma afterComma' _ hafter
  have hlt := Nat.lt_trans hcomma hfirst
  exact (separated_alike hitem hafter).read fun _ _ _ _ _ _ has hrest =>
    .ok ⟨congrArg₂ List.cons ha has, hrest⟩
termination_by ts.length

theorem rowCount_alike (h : T ts ts') : Alike ρ ρ' hard T all (rowCount ts) (rowCount ts') := by
  cases hT.fronts h with
  | finish | broken => exact hT.fault h _
  | next gap gap' spelling spelling' token hstart hrest =>
    simp only [rowCount]
    split
    · split
      · exact (hT.check hrest).bind fun _ _ _ => .ok ⟨rfl, hrest⟩
      · exact hT.fault h _
    · exact hT.fault h _

end Tokens

theorem columnType_eq (ts : Tokens) : columnType ts = (do
    match ts.current.type?, ← takeIf (fun _ => ts.current.type?.isSome) ts with
    | some type, some rest => .ok (type, rest)
    | _,         _         => .error (ts.fault .expectedType)) := rfl

/-! ### Expressions and SELECT -/

theorem functionName?_retold (ρ : Retelling) (nodes : List Node) :
    functionName? (Node.retoldAll ρ nodes) = (functionName? nodes).map (ColumnRef.retold ρ) := by
  cases nodes with
  | nil => rfl
  | cons n nodes =>
    cases nodes with
    | cons => cases n <;> rfl
    | nil =>
      cases n with
      | column r =>
        show (if r.qualifier.isNone && !r.isWildcard then some (r.retold ρ) else none) =
          (if r.qualifier.isNone && !r.isWildcard then some r else none).map (ColumnRef.retold ρ)
        split <;> rfl
      | _ => rfl

/-- Nodes that are told alike are functions' names alike. -/
theorem functionName?_alike {nodes nodes' : List Node}
    (h : Node.retoldAll ρ' nodes' = Node.retoldAll ρ nodes) :
    Option.Rel (fun r r' => ColumnRef.retold ρ' r' = ColumnRef.retold ρ r) (functionName? nodes)
      (functionName? nodes') := by
  have hname := functionName?_retold ρ' nodes'
  rw [h, functionName?_retold] at hname
  cases hnodes : functionName? nodes with
  | none =>
    rw [hnodes, Option.map_none, eq_comm, Option.map_eq_none_iff] at hname
    rw [hname]
    exact .none
  | some r =>
    rw [hnodes, Option.map_some, eq_comm, Option.map_eq_some_iff] at hname
    obtain ⟨r', hr', heq⟩ := hname
    rw [hr']
    exact .some heq

/-- Where no operand and no operator follows, an expression ends, but not in parentheses. -/
theorem ends_alike (hT : Tokens.Tell ρ ρ' hard T) (nested : Bool) {f : ParseFault} (h : T ts ts')
    {hle : ts.length ≤ ts.length} {hle' : ts'.length ≤ ts'.length} :
    Alike ρ ρ' hard T Node.retoldAll
      (if nested = true then .error (ts.fault f) else .ok ([], (⟨ts, hle⟩ : ts.UpTo)))
      (if nested = true then .error (ts'.fault f) else .ok ([], (⟨ts', hle'⟩ : ts'.UpTo))) := by
  cases nested with
  | true => exact hT.fault h f
  | false => exact .ok ⟨rfl, h⟩

mutual

theorem operands_alike (hT : Tokens.Tell ρ ρ' hard T) (depth : Nat) (nested : Bool)
    {ts ts' : Tokens} (h : T ts ts') :
    Alike ρ ρ' hard T Node.retoldAll (operands o depth nested ts)
      (operands o depth nested ts') := by
  rw [operands, operands]
  refine (operand_alike hT depth nested h).read fun first _ afterFirst hfirst _ _ ha hafter => ?_
  refine (following_alike hT depth nested hafter).read fun more _ _ _ _ _ has hrest =>
    .ok ⟨?_, hrest⟩
  simp only [Node.retoldAll_eq_map, List.map_append] at ha has ⊢
  rw [ha, has]
termination_by (ts.length, 3)

theorem following_alike (hT : Tokens.Tell ρ ρ' hard T) (depth : Nat) (nested : Bool)
    {ts ts' : Tokens} (h : T ts ts') :
    Alike ρ ρ' hard T Node.retoldAll (following o depth nested ts)
      (following o depth nested ts') := by
  cases hT.fronts h with
  | finish | broken =>
    rw [following, following]
    · exact ends_alike hT nested h
    all_goals simp
  | next gap gap' spelling spelling' token hstart hrest =>
    rw [following.eq_def, following.eq_def]
    simp only []
    -- the cases of the token at the front, in the order of the reader
    split
    case h_1 | h_2 =>
      refine (hT.check hrest).bind fun _ _ _ => (operands_alike hT depth nested hrest).read ?_
      exact fun _ _ _ _ _ _ has hlast => .ok ⟨congrArg (List.cons _) has, hlast⟩
    case h_5 =>
      split
      · exact (hT.check hrest).bind fun _ _ _ => .ok ⟨rfl, hrest⟩
      · exact .ok ⟨rfl, h⟩
    case h_6 =>
      split
      · refine (hT.check hrest).bind fun _ _ _ => (operands_alike hT depth nested hrest).read ?_
        exact fun _ _ _ _ _ _ has hlast => .ok ⟨congrArg (List.cons _) has, hlast⟩
      · exact ends_alike hT nested h
    case h_13 =>
      split
      · exact hT.fault h _
      · exact ends_alike hT nested h
    all_goals first
      | exact hT.fault h _
      | exact ends_alike hT nested h
termination_by (ts.length, 0)

theorem operand_alike (hT : Tokens.Tell ρ ρ' hard T) (depth : Nat) (nested : Bool)
    {ts ts' : Tokens} (h : T ts ts') :
    Alike ρ ρ' hard T Node.retoldAll (operand o depth nested ts) (operand o depth nested ts') := by
  rw [operand, operand]
  refine (atom_alike hT depth nested h).read fun nodes nodes' rest hlt rest' _ ha hrest => ?_
  simp only [hT.current hrest]
  split
  · have hname := functionName?_alike ha
    generalize functionName? nodes = name at hname ⊢
    generalize functionName? nodes' = name' at hname ⊢
    cases hname with
    | none => exact hT.fault hrest _
    | @some r r' hr =>
      refine (arguments_alike hT depth hrest).read fun _ _ after _ after' _ hargs hafter => ?_
      simp only [hT.current hafter]
      split
      · exact hT.fault hafter _
      · refine .ok ⟨?_, hafter⟩
        obtain ⟨-, hcolumn, -, -, -, hoffset⟩ := ColumnRef.mk.inj hr
        simp only [callOf, Node.retoldAll, Node.retold, Call.retold, hargs, hoffset,
          show r'.column = r.column from hcolumn]
  · exact .ok ⟨ha, hrest⟩
termination_by (ts.length, 2)

theorem atom_alike (hT : Tokens.Tell ρ ρ' hard T) (depth : Nat) (nested : Bool)
    {ts ts' : Tokens} (h : T ts ts') :
    Alike ρ ρ' hard T Node.retoldAll (atom o depth nested ts) (atom o depth nested ts') := by
  cases hT.fronts h with
  | finish | broken =>
    rw [atom, atom]
    · exact hT.fault h _
    all_goals simp
  | @next gap gap' spelling spelling' token start start' rest rest' hstart hrest hnumber =>
    have hcolumn : Alike ρ ρ' hard T Node.retoldAll
        (column ⟨start, gap, spelling, token⟩ rest >>= fun p => Except.ok ([Node.column p.1], p.2))
        (column ⟨start', gap', spelling', token⟩ rest' >>= fun p =>
          Except.ok ([Node.column p.1], p.2)) :=
      (column_alike hT gap gap' spelling spelling' token hstart hrest).read
        fun _ _ _ _ _ _ hr hlast => .ok ⟨congrArg (fun r => [Node.column r]) hr, hlast⟩
    rw [atom.eq_def, atom.eq_def]
    simp only [hT.current hrest]
    -- the cases of the token at the front, in the order of the reader
    split
    case h_1 literal =>
      refine (numberValue_alike hT h (hnumber literal rfl)).bind ?_
      rintro x _ rfl
      exact (hT.check hrest).bind fun _ _ _ => .ok ⟨rfl, hrest⟩
    case h_3 => exact hcolumn
    case h_10 =>
      split
      · refine (hT.check hrest).bind fun _ _ _ => .ok ⟨?_, hrest⟩
        simp only [Node.retoldAll, Node.retold, ColumnRef.retold, hstart]
      split
      · exact hcolumn
      · exact hT.fault h _
    case h_11 =>
      split
      · split
        · exact hT.fault h _
        · refine (enter_alike hT h).bind fun _ _ _ => (hT.check hrest).bind fun _ _ _ => ?_
          refine (select_alike hT (depth + 1) hrest).read fun _ _ _ _ _ _ hs hselect => ?_
          exact (expectMark_alike hT .closeParen hselect).take fun _ _ _ _ hlast =>
            .ok ⟨congrArg (fun s => [Node.select s]) hs, hlast⟩
      · refine (enter_alike hT h).bind fun _ _ _ => (hT.check hrest).bind fun _ _ _ => ?_
        refine (operands_alike hT (depth + 1) true hrest).read fun _ _ _ _ _ _ hinner hlast => ?_
        refine .ok ⟨?_, hlast⟩
        simp only [Node.retoldAll_eq_map, List.cons_append, List.map_cons, List.map_append]
          at hinner ⊢
        rw [hinner]
        rfl
    case h_13 =>
      cases hT.fronts hrest with
      | finish | broken => exact hT.fault h _
      | next gap gap' spelling spelling' token hstart hafter hnumber =>
        simp only []
        split
        next literal =>
          refine (hT.check hrest).bind fun _ _ _ =>
            (numberValue_alike hT hrest (hnumber literal rfl)).bind ?_
          rintro x _ rfl
          exact (hT.check hafter).bind fun _ _ _ => .ok ⟨rfl, hafter⟩
        next => exact hT.fault h _
    all_goals first
      | exact hT.fault h _
      | exact (hT.check hrest).bind fun _ _ _ => .ok ⟨rfl, hrest⟩
termination_by (ts.length, 1)

theorem arguments_alike (hT : Tokens.Tell ρ ρ' hard T) (depth : Nat)
    {ts ts' : Tokens} (h : T ts ts') :
    Alike ρ ρ' hard T Expr.retoldAll (arguments o depth ts) (arguments o depth ts') := by
  rw [arguments, arguments]
  refine (enter_alike hT h).bind fun _ _ _ => (expectMark_alike hT .openParen h).take ?_
  intro inside hinside inside' _ hafter
  refine (takeIf_alike hT _ hafter).takeOption (fun _ _ _ _ hclose => .ok ⟨rfl, hclose⟩) ?_
  simp only [hT.current hafter, hT.second hafter]
  split
  · refine (expectMark_alike hT .star hafter).take fun _ _ _ _ hstar => ?_
    exact (expectMark_alike hT .closeParen hstar).take fun _ _ _ _ hclose => .ok ⟨rfl, hclose⟩
  · refine (expressions_alike hT (depth + 1) hafter).read fun _ _ _ _ _ _ hes hlist => ?_
    exact (expectMark_alike hT .closeParen hlist).take fun _ _ _ _ hclose => .ok ⟨hes, hclose⟩
termination_by (ts.length, 0)

theorem expression_alike (hT : Tokens.Tell ρ ρ' hard T) (depth : Nat) (wildcard : Bool)
    {ts ts' : Tokens} (h : T ts ts') :
    Alike ρ ρ' hard T Expr.retold (expression o depth wildcard ts)
      (expression o depth wildcard ts') := by
  rw [expression, expression]
  refine (operands_alike hT depth false h).read fun nodes nodes' rest _ rest' _ hnodes hrest => ?_
  have he : (Expr.ofNodes nodes' (ts'.textUntil rest') ts'.start).retold ρ' =
      (Expr.ofNodes nodes (ts.textUntil rest) ts.start).retold ρ := by
    simp only [Expr.ofNodes, Expr.retold, hnodes, hT.text h hrest, hT.start h]
  simp only [Expr.containsWildcard_of_retold he, Expr.isWildcard_of_retold he]
  split
  · exact .error (.parse _ (.inr (hT.text h hrest)) (hT.start h))
  · exact .ok ⟨he, hrest⟩
termination_by (ts.length, 4)

theorem expressions_alike (hT : Tokens.Tell ρ ρ' hard T) (depth : Nat)
    {ts ts' : Tokens} (h : T ts ts') :
    Alike ρ ρ' hard T Expr.retoldAll (expressions o depth ts) (expressions o depth ts') := by
  rw [expressions, expressions]
  refine (expression_alike hT depth false h).read fun e _ afterFirst hfirst _ _ he hafter => ?_
  refine (takeIf_alike hT _ hafter).takeOption ?_ (.ok ⟨congrArg ([·]) he, hafter⟩)
  intro afterComma hcomma _ _ hafter
  exact (expressions_alike hT depth hafter).read fun _ _ _ _ _ _ hes hrest =>
    .ok ⟨congrArg₂ List.cons he hes, hrest⟩
termination_by (ts.length, 5)

theorem output_alike (hT : Tokens.Tell ρ ρ' hard T) (depth : Nat) {ts ts' : Tokens} (h : T ts ts') :
    Alike ρ ρ' hard T Expr.retold (output o depth ts) (output o depth ts') := by
  rw [output, output]
  refine (?_ : Alike ρ ρ' hard T Expr.retold _ _).read fun e e' afterExpr hexpr _ _ he hafter => ?_
  · refine (takeIf_alike hT _ h).takeOption (fun _ _ _ _ hrest => .ok ⟨?_, hrest⟩)
      (expression_alike hT depth true h)
    simp only [Expr.ofColumn, Expr.retold, Node.retoldAll, Node.retold, ColumnRef.retold,
      ColumnRef.text, hT.start h, hT.star]
  · simp only [hT.current hafter, Expr.isWildcard_of_retold he]
    split
    · exact hT.fault hafter _
    · refine (takeIf_alike hT _ hafter).takeOption (fun _ _ _ _ hafter => ?_) (.ok ⟨he, hafter⟩)
      refine (expectName_alike hT hafter).readSame fun _ _ _ _ _ hrest => .ok ⟨?_, hrest⟩
      obtain ⟨nodes, _, _, _, _, _, _⟩ := e
      obtain ⟨nodes', _, _, _, _, _, _⟩ := e'
      simp only [Expr.retold, Expr.mk.injEq] at he ⊢
      tauto
termination_by (ts.length, 5)

theorem outputs_alike (hT : Tokens.Tell ρ ρ' hard T) (depth : Nat)
    {ts ts' : Tokens} (h : T ts ts') :
    Alike ρ ρ' hard T Expr.retoldAll (outputs o depth ts) (outputs o depth ts') := by
  rw [outputs, outputs]
  refine (output_alike hT depth h).read fun e _ afterFirst hfirst _ _ he hafter => ?_
  refine (takeIf_alike hT _ hafter).takeOption ?_ (.ok ⟨congrArg ([·]) he, hafter⟩)
  intro afterComma hcomma _ _ hafter
  exact (outputs_alike hT depth hafter).read fun _ _ _ _ _ _ hes hrest =>
    .ok ⟨congrArg₂ List.cons he hes, hrest⟩
termination_by (ts.length, 6)

theorem source_alike (hT : Tokens.Tell ρ ρ' hard T) (depth : Nat) {ts ts' : Tokens} (h : T ts ts') :
    Alike ρ ρ' hard T Source.retold (source o depth ts) (source o depth ts') := by
  rw [source, source]
  simp only [hT.current h, hT.second h]
  split
  · refine (enter_alike hT h).bind fun _ _ _ => (expectMark_alike hT .openParen h).take ?_
    intro inside hinside inside' _ hafter
    refine (select_alike hT (depth + 1) hafter).read fun s _ _ _ _ _ hs hselect => ?_
    refine (expectMark_alike hT .closeParen hselect).take fun _ _ _ _ hparen => ?_
    refine (sourceAlias_alike hT hparen).readSame fun name _ _ _ _ hlast => .ok ⟨?_, hlast⟩
    simp only [Source.retold, hs, hT.start h]
  · refine (expectName_alike hT h).readSame fun table _ _ _ _ hafter => ?_
    refine (sourceAlias_alike hT hafter).readSame fun name _ _ _ _ hlast => .ok ⟨?_, hlast⟩
    simp only [Source.retold, hT.start h]
termination_by (ts.length, 0)

theorem joins_alike (hT : Tokens.Tell ρ ρ' hard T) (depth : Nat) {ts ts' : Tokens} (h : T ts ts') :
    Alike ρ ρ' hard T Join.retoldAll (joins o depth ts) (joins o depth ts') := by
  rw [joins, joins]
  refine (joinKind_alike hT h).bind ?_
  rintro _ _ (@⟨⟨kind, afterKind, hkind⟩, ⟨_, afterKind', _⟩, ⟨rfl, hafter⟩⟩ | _)
  · dsimp only at hafter ⊢
    refine (source_alike hT depth hafter).read fun joined _ afterSource hsource _ _ hs hafter => ?_
    refine (?_ : Alike ρ ρ' hard T Expr.retoldOption _ _).read
      fun condition _ afterOn hon _ _ hcondition hafter => ?_
    · refine (takeIf_alike hT _ hafter).takeOption ?_ (.ok ⟨rfl, hafter⟩)
      intro afterWord hword _ _ hafter
      exact (expression_alike hT depth false hafter).read fun _ _ _ _ _ _ he hrest =>
        .ok ⟨congrArg some he, hrest⟩
    · have hlt := Nat.lt_of_le_of_lt hon (Nat.lt_trans hsource hkind)
      refine (joins_alike hT depth hafter).read fun _ _ _ _ _ _ hjs hrest => .ok ⟨?_, hrest⟩
      simp only [Join.retoldAll, hs, hcondition, hjs]
  · exact .ok ⟨rfl, h⟩
termination_by (ts.length, 0)

theorem orderKeys_alike (hT : Tokens.Tell ρ ρ' hard T) (depth : Nat)
    {ts ts' : Tokens} (h : T ts ts') :
    Alike ρ ρ' hard T OrderKey.retoldAll (orderKeys o depth ts) (orderKeys o depth ts') := by
  rw [orderKeys, orderKeys]
  refine (expression_alike hT depth false h).read fun e e' afterExpr hexpr _ _ he hafter => ?_
  refine (?_ : Alike ρ ρ' hard T all _ _).readSame fun ascending afterKey hkey _ _ hafter => ?_
  · refine (takeIf_alike hT _ hafter).takeOption (fun _ _ _ _ hrest => .ok ⟨rfl, hrest⟩) ?_
    exact (skipKeyword_alike hT .asc hafter).take fun _ _ _ _ hrest => .ok ⟨rfl, hrest⟩
  · have hkeys {more more' : List OrderKey}
        (hmore : OrderKey.retoldAll ρ' more' = OrderKey.retoldAll ρ more) :
        OrderKey.retoldAll ρ' (⟨e', ascending⟩ :: more') =
          OrderKey.retoldAll ρ (⟨e, ascending⟩ :: more) := by
      simp only [OrderKey.retoldAll, he, hmore]
    refine (takeIf_alike hT _ hafter).takeOption ?_ (.ok ⟨hkeys rfl, hafter⟩)
    intro afterComma hcomma _ _ hafter
    exact (orderKeys_alike hT depth hafter).read fun _ _ _ _ _ _ hks hrest => .ok ⟨hkeys hks, hrest⟩
termination_by (ts.length, 5)

theorem clause_alike (hT : Tokens.Tell ρ ρ' hard T) (depth : Nat) (word : Keyword)
    {ts ts' : Tokens} (h : T ts ts') :
    Alike ρ ρ' hard T Expr.retoldOption (clause o depth word ts) (clause o depth word ts') := by
  rw [clause, clause]
  refine (takeIf_alike hT _ h).takeOption ?_ (.ok ⟨rfl, h⟩)
  intro afterWord hword _ _ hafter
  exact (expression_alike hT depth false hafter).read fun _ _ _ _ _ _ he hrest =>
    .ok ⟨congrArg some he, hrest⟩
termination_by (ts.length, 0)

theorem select_alike (hT : Tokens.Tell ρ ρ' hard T) (depth : Nat) {ts ts' : Tokens} (h : T ts ts') :
    Alike ρ ρ' hard T Select.retold (select o depth ts) (select o depth ts') := by
  rw [select, select]
  refine (expectKeyword_alike hT .select h).take fun t₁ h₁ _ _ m₁ => ?_
  refine (?_ : Alike ρ ρ' hard T all _ _).readSame fun distinct t₂ h₂ _ _ m₂ => ?_
  · exact (takeIf_alike hT _ m₁).takeOption (fun _ _ _ _ hrest => .ok ⟨rfl, hrest⟩) (.ok ⟨rfl, m₁⟩)
  refine (outputs_alike hT depth m₂).read fun output _ t₃ h₃ _ _ houtput m₃ => ?_
  refine (?_ : Alike ρ ρ' hard T
    (fun ρ (p : Option Source × List Join) => (Source.retoldOption ρ p.1, Join.retoldAll ρ p.2))
    _ _).read fun origin _ t₄ h₄ _ _ horigin m₄ => ?_
  · refine (takeIf_alike hT _ m₃).takeOption ?_ (.ok ⟨rfl, m₃⟩)
    intro afterWord hword _ _ hafter
    refine (source_alike hT depth hafter).read fun first _ afterSource hsource _ _ hs hafter => ?_
    refine (joins_alike hT depth hafter).read fun _ _ _ _ _ _ hjs hrest => .ok ⟨?_, hrest⟩
    simp only [Source.retoldOption, hs, hjs]
  refine (clause_alike hT depth .whereWord m₄).read fun filter _ t₅ h₅ _ _ hfilter m₅ => ?_
  refine (?_ : Alike ρ ρ' hard T Expr.retoldAll _ _).read fun groupBy _ t₆ h₆ _ _ hgroup m₆ => ?_
  · refine (takeIf_alike hT _ m₅).takeOption ?_ (.ok ⟨rfl, m₅⟩)
    intro afterWord hword _ _ hafter
    refine (expectKeyword_alike hT .byWord hafter).take fun afterBy hby _ _ hafter => ?_
    exact (expressions_alike hT depth hafter).read fun _ _ _ _ _ _ hes hrest => .ok ⟨hes, hrest⟩
  refine (?_ : Alike ρ ρ' hard T OrderKey.retoldAll _ _).read
    fun orderBy _ t₇ h₇ _ _ horder m₇ => ?_
  · refine (takeIf_alike hT _ m₆).takeOption ?_ (.ok ⟨rfl, m₆⟩)
    intro afterWord hword _ _ hafter
    refine (expectKeyword_alike hT .byWord hafter).take fun afterBy hby _ _ hafter => ?_
    exact (orderKeys_alike hT depth hafter).read fun _ _ _ _ _ _ hks hrest => .ok ⟨hks, hrest⟩
  refine (?_ : Alike ρ ρ' hard T all _ _).readSame fun limit t₈ h₈ _ _ m₈ => .ok ⟨?_, m₈⟩
  · refine (takeIf_alike hT _ m₇).takeOption (fun _ _ _ _ hafter => ?_) (.ok ⟨rfl, m₇⟩)
    exact (rowCount_alike hT hafter).readSame fun _ _ _ _ _ hrest => .ok ⟨rfl, hrest⟩
  obtain ⟨horigin, hjoins⟩ := Prod.mk.inj horigin
  simp only [Select.retold, houtput, horigin, hjoins, hfilter, hgroup, horder, hT.text h m₈,
    hT.start h]
termination_by (ts.length, 0)

end

/-! ### Statements -/

section Statements

variable (hT : Tokens.Tell ρ ρ' hard T)

include hT

theorem assignment_alike (h : T ts ts') :
    Alike ρ ρ' hard T Assignment.retold (assignment o ts) (assignment o ts') := by
  refine (expectName_alike hT h).readSame fun column _ _ _ _ hafter => ?_
  refine (expectMark_alike hT .equal hafter).take fun _ _ _ _ hafter => ?_
  refine (expression_alike hT 0 false hafter).read fun value _ _ _ _ _ he hrest => .ok ⟨?_, hrest⟩
  simp only [Assignment.retold, he, hT.start h]

theorem valueRow_alike (h : T ts ts') :
    Alike ρ ρ' hard T Expr.retoldAll (valueRow o ts) (valueRow o ts') := by
  refine (expectMark_alike hT .openParen h).take fun _ _ _ _ hinside => ?_
  refine (expressions_alike hT 0 hinside).read fun _ _ _ _ _ _ hes hrow => ?_
  exact (expectMark_alike hT .closeParen hrow).take fun _ _ _ _ hrest => .ok ⟨hes, hrest⟩

theorem columnType_alike (h : T ts ts') :
    Alike ρ ρ' hard T all (columnType ts) (columnType ts') := by
  rw [columnType_eq, columnType_eq, hT.current h]
  cases ts.current.type? with
  | none => exact (takeIf_alike hT _ h).bind fun _ _ _ => hT.fault h _
  | some type =>
    refine (takeIf_alike hT _ h).takeOption (fun _ _ _ _ hrest => .ok ⟨rfl, hrest⟩) ?_
    exact hT.fault h _

theorem columnClause_alike (h : T ts ts') :
    Alike ρ ρ' hard T ColumnClause.retold (columnClause ts) (columnClause ts') := by
  refine (expectName_alike hT h).readSame fun name _ _ _ _ hafter => ?_
  refine (columnType_alike hT hafter).readSame fun type _ _ _ _ hrest => .ok ⟨?_, hrest⟩
  simp only [ColumnClause.retold, hT.start h]

/-- What two readers of a statement read and leave. -/
abbrev Pair (ρ ρ' : Retelling) (T : Tokens → Tokens → Prop) (tell : Retelling → α → β)
    (p p' : α × Tokens) : Prop :=
  tell ρ' p'.1 = tell ρ p.1 ∧ T p.2 p'.2

theorem insert_alike (h : T ts ts') :
    Told ρ ρ' hard (Pair ρ ρ' T Insert.retold) (insert o ts) (insert o ts') := by
  refine (expectKeyword_alike hT .insert h).take fun _ _ _ _ hinto => ?_
  refine (expectKeyword_alike hT .into hinto).take fun _ _ _ _ htable => ?_
  refine (expectName_alike hT htable).readSame fun table _ _ _ _ hafter => ?_
  refine (?_ : Told ρ ρ' hard (Pair ρ ρ' T all) _ _).bind ?_
  · refine (takeIf_alike hT _ hafter).takeOption (fun _ _ _ _ hinside => ?_) (.ok ⟨rfl, hafter⟩)
    refine (separated_alike hT (expectName_alike hT) hinside).read
      fun list list' _ _ _ _ hnames hlist => ?_
    refine (expectMark_alike hT .closeParen hlist).take fun _ _ _ _ hclose => .ok ⟨?_, hclose⟩
    simpa using hnames
  · rintro ⟨columns, afterColumns⟩ ⟨_, afterColumns'⟩ ⟨rfl, hcolumns⟩
    refine (expectKeyword_alike hT .values hcolumns).take fun _ _ _ _ hvalues => ?_
    refine (separated_alike hT (valueRow_alike hT) hvalues).read fun rows _ _ _ _ _ hrows hrest =>
      .ok ⟨?_, hrest⟩
    simp only [Insert.retold, hrows, hT.text h hrest, hT.start h]

theorem update_alike (h : T ts ts') :
    Told ρ ρ' hard (Pair ρ ρ' T Update.retold) (update o ts) (update o ts') := by
  refine (expectKeyword_alike hT .update h).take fun _ _ _ _ htable => ?_
  refine (expectName_alike hT htable).readSame fun table _ _ _ _ hset => ?_
  refine (expectKeyword_alike hT .set hset).take fun _ _ _ _ hlist => ?_
  refine (separated_alike hT (assignment_alike hT) hlist).read
    fun list _ _ _ _ _ hassignments hwhere => ?_
  refine (clause_alike hT 0 .whereWord hwhere).read fun filter _ _ _ _ _ hfilter hrest =>
    .ok ⟨?_, hrest⟩
  simp only [Update.retold, hassignments, hfilter, hT.text h hrest, hT.start h]

theorem delete_alike (h : T ts ts') :
    Told ρ ρ' hard (Pair ρ ρ' T Delete.retold) (delete o ts) (delete o ts') := by
  refine (expectKeyword_alike hT .delete h).take fun _ _ _ _ hfrom => ?_
  refine (expectKeyword_alike hT .fromWord hfrom).take fun _ _ _ _ htable => ?_
  refine (expectName_alike hT htable).readSame fun table _ _ _ _ hwhere => ?_
  refine (clause_alike hT 0 .whereWord hwhere).read fun filter _ _ _ _ _ hfilter hrest =>
    .ok ⟨?_, hrest⟩
  simp only [Delete.retold, hfilter, hT.text h hrest, hT.start h]

theorem create_alike (h : T ts ts') :
    Told ρ ρ' hard (Pair ρ ρ' T Create.retold) (create ts) (create ts') := by
  refine (expectKeyword_alike hT .create h).take fun _ _ _ _ hword => ?_
  refine (expectKeyword_alike hT .table hword).take fun _ _ _ _ htable => ?_
  refine (expectName_alike hT htable).readSame fun table _ _ _ _ hparen => ?_
  refine (expectMark_alike hT .openParen hparen).take fun _ _ _ _ hinside => ?_
  refine (separated_alike hT (columnClause_alike hT) hinside).read
    fun columns _ _ _ _ _ hcolumns hlist => ?_
  refine (expectMark_alike hT .closeParen hlist).take fun _ _ _ _ hrest => .ok ⟨?_, hrest⟩
  simp only [Create.retold, hcolumns, hT.text h hrest, hT.start h]

/-- **Any statement is read alike** from tokens that are told alike. -/
theorem statement_alike (h : T ts ts') :
    Told ρ ρ' hard (Pair ρ ρ' T Statement.retold) (statement o ts) (statement o ts') := by
  have hmap {σ : Type} {tell : Retelling → σ → σ} {wrap : σ → Statement}
      {x x' : Except Error (σ × Tokens)}
      (htell : ∀ (ρ : Retelling) (s : σ), (wrap s).retold ρ = wrap (tell ρ s))
      (hread : Told ρ ρ' hard (Pair ρ ρ' T tell) x x') :
      Told ρ ρ' hard (Pair ρ ρ' T Statement.retold) (x.map fun p => (wrap p.1, p.2))
        (x'.map fun p => (wrap p.1, p.2)) := by
    refine hread.map fun p p' hp => ⟨?_, hp.2⟩
    rw [htell, htell, hp.1]
  simp only [statement, hT.current h]
  split
  · exact (select_alike hT 0 h).read fun _ _ _ _ _ _ hs hrest =>
      .ok ⟨congrArg Statement.select hs, hrest⟩
  · exact hmap (fun _ _ => rfl) (insert_alike hT h)
  · exact hmap (fun _ _ => rfl) (update_alike hT h)
  · exact hmap (fun _ _ => rfl) (delete_alike hT h)
  · exact hmap (fun _ _ => rfl) (create_alike hT h)
  · exact hT.fault h _

end Statements

end Read

/-! ### Texts -/

namespace Statement

/-- Reads tokens as one statement, which a semicolon may end. -/
def ofTokens (o : ParserOptions) (ts : Tokens) : Except Error Statement := do
  ts.check
  let (s, rest) ← Read.statement o ts
  let rest ← match ← Read.takeIf (· == .semicolon) rest with
    | some after => .ok after.1
    | none       => .ok rest
  if rest.current == .finish then .ok s else .error (rest.fault .expectedEnd)

theorem parse_eq_ofTokens (o : ParserOptions) (text : String) :
    parse o text = ofTokens o (Tokens.ofText text) := rfl

/-- **Tokens that are told alike are one statement** as far as it is told, or one error. -/
theorem ofTokens_alike (hT : Tokens.Tell ρ ρ' hard T) {o : ParserOptions} (h : T ts ts') :
    Told ρ ρ' hard (fun s s' => s'.retold ρ' = s.retold ρ) (ofTokens o ts) (ofTokens o ts') := by
  have hend {s s' : Statement} {rest rest' : Tokens} (hs : s'.retold ρ' = s.retold ρ)
      (hrest : T rest rest') : Told ρ ρ' hard (fun s s' => s'.retold ρ' = s.retold ρ)
        (if rest.current == .finish then .ok s else .error (rest.fault .expectedEnd))
        (if rest'.current == .finish then .ok s' else .error (rest'.fault .expectedEnd)) := by
    rw [hT.current hrest]
    split
    · exact .ok hs
    · exact hT.fault hrest _
  refine (hT.check h).bind fun _ _ _ => (Read.statement_alike hT h).bind ?_
  rintro ⟨s, rest⟩ ⟨s', rest'⟩ ⟨hs, hrest⟩
  exact (Read.takeIf_alike hT _ hrest).takeOption (fun _ _ _ _ hafter => hend hs hafter)
    (hend hs hrest)

end Statement

end SqlEngine

import Mathlib.Logic.Embedding.Basic
import SqlEngine.Proofs.Statement.Places

/-!
# Statements — other places

The same words may stand elsewhere in another text: behind a longer text, or with other words
between them.  `Expr.placed φ` is an expression with its parts where `φ` puts them.  Different places
stay different, since two sub-selects are the same only at one place.

* `UpTo`, `UpToPlaces`: results that are the same up to the places in their errors, which are those
  that `φ` says, or any.
* `Expr.placed_shift`: a text that stands further on is a special case.
-/

namespace SqlEngine

/-- Where the places of one text are in another one. -/
abbrev Placing := Nat ↪ Nat

variable {α β γ δ : Type} {φ : Placing}

namespace Placing

/-- Further on by a number of bytes. -/
def shift (d : Nat) : Placing :=
  ⟨(· + d), fun _ _ => Nat.add_right_cancel⟩

/-- Further on by a number of bytes from a place on, as when that many bytes are put in there. -/
def gap (start d : Nat) : Placing :=
  ⟨fun n => if n < start then n else n + d, fun m n h => by
    dsimp only at h
    split at h <;> split at h <;> omega⟩

theorem beq (φ : Placing) (m n : Nat) : (φ m == φ n) = (m == n) := by
  rw [Bool.eq_iff_iff, beq_iff_eq, beq_iff_eq, φ.apply_eq_iff_eq]

end Placing

/-! ### Results -/

/-- The error with its place in the other text. -/
def Error.placed (f : Nat → Nat) : Error → Error
  | .lex fault offset        => .lex fault (f offset)
  | .parse fault near offset => .parse fault near (f offset)
  | .unresolved name offset  => .unresolved name (f offset)
  | .ambiguous name offset   => .ambiguous name (f offset)
  | e                        => e

/-- The error as it is wherever it lies. -/
def Error.unplaced : Error → Error :=
  Error.placed fun _ => 0

theorem Error.unplaced_placed (f : Nat → Nat) (e : Error) : (e.placed f).unplaced = e.unplaced := by
  cases e <;> rfl

/-- Two results: related values, or one error at its places in two texts. -/
inductive UpTo (φ : Placing) (R : α → β → Prop) : Except Error α → Except Error β → Prop
  | ok {a : α} {b : β} (h : R a b) : UpTo φ R (.ok a) (.ok b)
  | error (e : Error) : UpTo φ R (.error e) (.error (e.placed φ))

/-- The second result is the first one with its parts at other places. -/
abbrev PlacedBy (φ : Placing) (move : α → β) (x : Except Error α) (y : Except Error β) : Prop :=
  UpTo φ (fun a b => b = move a) x y

theorem UpTo.bind {R : α → β → Prop} {S : γ → δ → Prop} {x : Except Error α} {y : Except Error β}
    {f : α → Except Error γ} {g : β → Except Error δ} (h : UpTo φ R x y)
    (hf : ∀ a b, R a b → UpTo φ S (f a) (g b)) : UpTo φ S (x >>= f) (y >>= g) := by
  cases h with
  | ok h => exact hf _ _ h
  | error e => exact .error e

theorem UpTo.map {R : α → β → Prop} {S : γ → δ → Prop} {x : Except Error α} {y : Except Error β}
    {f : α → γ} {g : β → δ} (h : UpTo φ R x y) (hf : ∀ a b, R a b → S (f a) (g b)) :
    UpTo φ S (x.map f) (y.map g) := by
  cases h with
  | ok h => exact .ok (hf _ _ h)
  | error e => exact .error e

theorem PlacedBy.bind {move : α → β} {R : γ → δ → Prop} {x : Except Error α} {y : Except Error β}
    {f : α → Except Error γ} {g : β → Except Error δ} (h : PlacedBy φ move x y)
    (hf : ∀ a, UpTo φ R (f a) (g (move a))) : UpTo φ R (x >>= f) (y >>= g) := by
  refine UpTo.bind h ?_
  rintro a _ rfl
  exact hf a

/-- Two results: related values, or one error at any two places. -/
inductive UpToPlaces (R : α → β → Prop) : Except Error α → Except Error β → Prop
  | ok {a : α} {b : β} (h : R a b) : UpToPlaces R (.ok a) (.ok b)
  | error {e e' : Error} (h : e'.unplaced = e.unplaced) : UpToPlaces R (.error e) (.error e')

theorem UpTo.places {R : α → β → Prop} {x : Except Error α} {y : Except Error β}
    (h : UpTo φ R x y) : UpToPlaces R x y := by
  cases h with
  | ok h => exact .ok h
  | error e => exact .error (e.unplaced_placed φ)

theorem UpToPlaces.bind {R : α → β → Prop} {S : γ → δ → Prop} {x : Except Error α}
    {y : Except Error β} {f : α → Except Error γ} {g : β → Except Error δ} (h : UpToPlaces R x y)
    (hf : ∀ a b, R a b → UpToPlaces S (f a) (g b)) : UpToPlaces S (x >>= f) (y >>= g) := by
  cases h with
  | ok h => exact hf _ _ h
  | error h => exact .error h

theorem UpToPlaces.mono {R S : α → β → Prop} {x : Except Error α} {y : Except Error β}
    (h : UpToPlaces R x y) (hR : ∀ a b, R a b → S a b) : UpToPlaces S x y := by
  cases h with
  | ok h => exact .ok (hR _ _ h)
  | error h => exact .error h

theorem UpToPlaces.refl {x : Except Error α} : UpToPlaces Eq x x := by
  cases x with
  | ok a => exact .ok rfl
  | error e => exact .error rfl

theorem UpToPlaces.of_eq {R : α → β → Prop} {x x' : Except Error α} {y : Except Error β}
    (h : UpToPlaces Eq x x') (h' : UpToPlaces R x' y) : UpToPlaces R x y := by
  cases h with
  | ok h => exact h ▸ h'
  | error h =>
    cases h' with
    | error h' => exact .error (h'.trans h)

theorem UpToPlaces.eq_ok {x : Except Error α} {a : α} (h : UpToPlaces Eq x (.ok a)) :
    x = .ok a := by
  cases h with
  | ok h => rw [h]

theorem UpTo.apart {d : Nat} {R : α → β → Prop} {x : Except Error α} {y : Except Error β}
    (h : UpTo (.shift d) R x y) : Apart d R x y := by
  cases h with
  | ok h => exact .ok h
  | error e => cases e <;> exact .error _

/-! ### The same expression at other places -/

def ColumnRef.placed (φ : Placing) (r : ColumnRef) : ColumnRef :=
  { r with offset := φ r.offset }

mutual

/-- The expression with its parts at other places. -/
def Expr.placed (φ : Placing) : Expr → Expr
  | ⟨nodes, type, isBoolean, hasAggregate, source, aliasName, offset⟩ =>
    ⟨Node.placedAll φ nodes, type, isBoolean, hasAggregate, source, aliasName, φ offset⟩

def Node.placed (φ : Placing) : Node → Node
  | .column r => .column (r.placed φ)
  | .call f   => .call (f.placed φ)
  | .select s => .select (s.placed φ)
  | n         => n

def Node.placedAll (φ : Placing) : List Node → List Node
  | []      => []
  | n :: ns => n.placed φ :: Node.placedAll φ ns

def Call.placed (φ : Placing) : Call → Call
  | ⟨function, arguments, target, type, isAggregate, offset⟩ =>
    ⟨function, Expr.placedAll φ arguments, target, type, isAggregate, φ offset⟩

def Expr.placedAll (φ : Placing) : List Expr → List Expr
  | []      => []
  | e :: es => e.placed φ :: Expr.placedAll φ es

def Expr.placedOption (φ : Placing) : Option Expr → Option Expr
  | none   => none
  | some e => some (e.placed φ)

def Source.placed (φ : Placing) : Source → Source
  | .table name aliasName id offset => .table name aliasName id (φ offset)
  | .select s aliasName offset      => .select (s.placed φ) aliasName (φ offset)

def Source.placedOption (φ : Placing) : Option Source → Option Source
  | none   => none
  | some s => some (s.placed φ)

def Join.placedAll (φ : Placing) : List Join → List Join
  | []                             => []
  | ⟨source, kind, condition⟩ :: js =>
    ⟨source.placed φ, kind, Expr.placedOption φ condition⟩ :: Join.placedAll φ js

def OrderKey.placedAll (φ : Placing) : List OrderKey → List OrderKey
  | []                   => []
  | ⟨e, ascending⟩ :: ks => ⟨e.placed φ, ascending⟩ :: OrderKey.placedAll φ ks

/-- The SELECT with its parts at other places. -/
def Select.placed (φ : Placing) : Select → Select
  | ⟨text, distinct, output, origin, joins, filter, groupBy, orderBy, limit, offset⟩ =>
    ⟨text, distinct, Expr.placedAll φ output, Source.placedOption φ origin, Join.placedAll φ joins,
      Expr.placedOption φ filter, Expr.placedAll φ groupBy, OrderKey.placedAll φ orderBy, limit,
      φ offset⟩

end

def Join.placed (φ : Placing) : Join → Join
  | ⟨source, kind, condition⟩ => ⟨source.placed φ, kind, Expr.placedOption φ condition⟩

def OrderKey.placed (φ : Placing) : OrderKey → OrderKey
  | ⟨e, ascending⟩ => ⟨e.placed φ, ascending⟩

def Assignment.placed (φ : Placing) (a : Assignment) : Assignment :=
  { a with value := a.value.placed φ, offset := φ a.offset }

theorem Node.placedAll_eq_map (φ : Placing) (ns : List Node) :
    Node.placedAll φ ns = ns.map (Node.placed φ) := by
  induction ns with
  | nil => rfl
  | cons n ns ih => rw [Node.placedAll, ih, List.map_cons]

theorem Expr.placedAll_eq_map (φ : Placing) (es : List Expr) :
    Expr.placedAll φ es = es.map (Expr.placed φ) := by
  induction es with
  | nil => rfl
  | cons e es ih => rw [Expr.placedAll, ih, List.map_cons]

theorem Source.placedOption_eq_map (φ : Placing) (s : Option Source) :
    Source.placedOption φ s = s.map (Source.placed φ) := by
  cases s <;> rfl

theorem Join.placedAll_eq_map (φ : Placing) (js : List Join) :
    Join.placedAll φ js = js.map (Join.placed φ) := by
  induction js with
  | nil => rfl
  | cons j js ih =>
    obtain ⟨_, _, _⟩ := j
    rw [Join.placedAll, ih, List.map_cons, Join.placed]

theorem OrderKey.placedAll_eq_map (φ : Placing) (ks : List OrderKey) :
    OrderKey.placedAll φ ks = ks.map (OrderKey.placed φ) := by
  induction ks with
  | nil => rfl
  | cons k ks ih =>
    obtain ⟨_, _⟩ := k
    rw [OrderKey.placedAll, ih, List.map_cons, OrderKey.placed]

section Fields

variable (φ : Placing) (e : Expr)

@[simp] theorem Expr.placed_nodes : (e.placed φ).nodes = e.nodes.map (Node.placed φ) := by
  obtain ⟨nodes, _, _, _, _, _, _⟩ := e
  exact Node.placedAll_eq_map φ nodes

@[simp] theorem Expr.placed_type : (e.placed φ).type = e.type := by
  cases e
  rfl

@[simp] theorem Expr.placed_isBoolean : (e.placed φ).isBoolean = e.isBoolean := by
  cases e
  rfl

@[simp] theorem Expr.placed_hasAggregate : (e.placed φ).hasAggregate = e.hasAggregate := by
  cases e
  rfl

@[simp] theorem Expr.placed_source : (e.placed φ).source = e.source := by
  cases e
  rfl

@[simp] theorem Expr.placed_aliasName : (e.placed φ).aliasName = e.aliasName := by
  cases e
  rfl

@[simp] theorem Expr.placed_offset : (e.placed φ).offset = φ e.offset := by
  cases e
  rfl

@[simp] theorem Join.placed_source (j : Join) : (j.placed φ).source = j.source.placed φ := by
  cases j
  rfl

@[simp] theorem OrderKey.placed_expr (k : OrderKey) : (k.placed φ).expr = k.expr.placed φ := by
  cases k
  rfl

@[simp] theorem Source.placed_name (s : Source) : (s.placed φ).name = s.name := by
  cases s <;> rfl

@[simp] theorem Select.placed_output (s : Select) :
    (s.placed φ).output = s.output.map (Expr.placed φ) := by
  cases s
  exact Expr.placedAll_eq_map φ _

@[simp] theorem Select.placed_distinct (s : Select) : (s.placed φ).distinct = s.distinct := by
  cases s
  rfl

@[simp] theorem Select.placed_limit (s : Select) : (s.placed φ).limit = s.limit := by
  cases s
  rfl

@[simp] theorem Select.placed_origin (s : Select) :
    (s.placed φ).origin = s.origin.map (Source.placed φ) := by
  cases s
  exact Source.placedOption_eq_map φ _

@[simp] theorem Select.placed_joins (s : Select) :
    (s.placed φ).joins = s.joins.map (Join.placed φ) := by
  cases s
  exact Join.placedAll_eq_map φ _

@[simp] theorem Select.placed_groupBy (s : Select) :
    (s.placed φ).groupBy = s.groupBy.map (Expr.placed φ) := by
  cases s
  exact Expr.placedAll_eq_map φ _

@[simp] theorem Select.placed_orderBy (s : Select) :
    (s.placed φ).orderBy = s.orderBy.map (OrderKey.placed φ) := by
  cases s
  exact OrderKey.placedAll_eq_map φ _

@[simp] theorem ColumnRef.isWildcard_placed (r : ColumnRef) :
    (r.placed φ).isWildcard = r.isWildcard := rfl

@[simp] theorem ColumnRef.placed_text (r : ColumnRef) : (r.placed φ).text = r.text := rfl

end Fields

@[simp] theorem Node.isWildcard_placed (φ : Placing) (n : Node) :
    (n.placed φ).isWildcard = n.isWildcard := by
  cases n <;> rfl

@[simp] theorem Expr.containsWildcard_placed (φ : Placing) (e : Expr) :
    (e.placed φ).containsWildcard = e.containsWildcard := by
  simp only [Expr.containsWildcard, placed_nodes, List.any_map, Function.comp_def,
    Node.isWildcard_placed]

theorem Expr.column?_placed (φ : Placing) (e : Expr) :
    (e.placed φ).column? = e.column?.map (ColumnRef.placed φ) := by
  simp only [Expr.column?, placed_nodes]
  rcases e.nodes with _ | ⟨n, _ | ⟨m, ns⟩⟩
  · rfl
  · cases n <;> rfl
  · cases n <;> rfl

@[simp] theorem Expr.placed_name (φ : Placing) (e : Expr) : (e.placed φ).name = e.name := by
  simp only [Expr.name, placed_aliasName, column?_placed, placed_source]
  cases e.aliasName <;> cases e.column? <;> rfl

@[simp] theorem Expr.isWildcard_placed (φ : Placing) (e : Expr) :
    (e.placed φ).isWildcard = e.isWildcard := by
  simp only [Expr.isWildcard, column?_placed]
  cases e.column? <;> rfl

/-! ### Further on -/

mutual

theorem Expr.placed_shift (d : Nat) : ∀ e : Expr, e.placed (.shift d) = e.moved d
  | ⟨nodes, _, _, _, _, _, _⟩ => by
    simp only [Expr.placed, Expr.moved, Node.placedAll_shift d nodes]
    rfl

theorem Node.placed_shift (d : Nat) : ∀ n : Node, n.placed (.shift d) = n.moved d
  | .call f => by simp only [Node.placed, Node.moved, Call.placed_shift d f]
  | .select s => by simp only [Node.placed, Node.moved, Select.placed_shift d s]
  | .column _ | .operator _ | .openParen | .closeParen | .number _ | .text _ | .boolean _
  | .null => rfl

theorem Node.placedAll_shift (d : Nat) : ∀ ns : List Node,
    Node.placedAll (.shift d) ns = Node.movedAll d ns
  | [] => rfl
  | n :: ns => by
    simp only [Node.placedAll, Node.movedAll, Node.placed_shift d n, Node.placedAll_shift d ns]

theorem Call.placed_shift (d : Nat) : ∀ f : Call, f.placed (.shift d) = f.moved d
  | ⟨_, arguments, _, _, _, _⟩ => by
    simp only [Call.placed, Call.moved, Expr.placedAll_shift d arguments]
    rfl

theorem Expr.placedAll_shift (d : Nat) : ∀ es : List Expr,
    Expr.placedAll (.shift d) es = Expr.movedAll d es
  | [] => rfl
  | e :: es => by
    simp only [Expr.placedAll, Expr.movedAll, Expr.placed_shift d e, Expr.placedAll_shift d es]

theorem Expr.placedOption_shift (d : Nat) : ∀ e : Option Expr,
    Expr.placedOption (.shift d) e = Expr.movedOption d e
  | none => rfl
  | some e => by simp only [Expr.placedOption, Expr.movedOption, Expr.placed_shift d e]

theorem Source.placed_shift (d : Nat) : ∀ s : Source, s.placed (.shift d) = s.moved d
  | .table .. => rfl
  | .select s _ _ => by
    simp only [Source.placed, Source.moved, Select.placed_shift d s]
    rfl

theorem Source.placedOption_shift (d : Nat) : ∀ s : Option Source,
    Source.placedOption (.shift d) s = Source.movedOption d s
  | none => rfl
  | some s => by simp only [Source.placedOption, Source.movedOption, Source.placed_shift d s]

theorem Join.placedAll_shift (d : Nat) : ∀ js : List Join,
    Join.placedAll (.shift d) js = Join.movedAll d js
  | [] => rfl
  | ⟨source, _, condition⟩ :: js => by
    simp only [Join.placedAll, Join.movedAll, Source.placed_shift d source,
      Expr.placedOption_shift d condition, Join.placedAll_shift d js]

theorem OrderKey.placedAll_shift (d : Nat) : ∀ ks : List OrderKey,
    OrderKey.placedAll (.shift d) ks = OrderKey.movedAll d ks
  | [] => rfl
  | ⟨e, _⟩ :: ks => by
    simp only [OrderKey.placedAll, OrderKey.movedAll, Expr.placed_shift d e,
      OrderKey.placedAll_shift d ks]

theorem Select.placed_shift (d : Nat) : ∀ s : Select, s.placed (.shift d) = s.moved d
  | ⟨_, _, output, origin, joins, filter, groupBy, orderBy, _, _⟩ => by
    simp only [Select.placed, Select.moved, Expr.placedAll_shift d output,
      Source.placedOption_shift d origin, Join.placedAll_shift d joins,
      Expr.placedOption_shift d filter, Expr.placedAll_shift d groupBy,
      OrderKey.placedAll_shift d orderBy]
    rfl

end

end SqlEngine

import SqlEngine.Plan.Compiler
import SqlEngine.Proofs.Resolution.Places

/-!
# Plans — places

A plan says nothing of the place of the text that it was made from.

* `Expr.emit_placed`, `Select.compile_placed`: the code and the plan of an expression with its parts
  at other places are the same.
-/

namespace SqlEngine

variable {c : Catalog}

/-- Group keys with their parts at other places. -/
def Expr.placedKeys (φ : Placing) (keys : Option (List Expr)) : Option (List Expr) :=
  keys.map (List.map (Expr.placed φ))

theorem Expr.keyIndex?_placed (φ : Placing) (keys : Option (List Expr)) (e : Expr) :
    (e.placed φ).keyIndex? (Expr.placedKeys φ keys) = e.keyIndex? keys := by
  cases keys with
  | none => rfl
  | some keys => exact Expr.indexIn?_placed φ e keys

theorem Node.keyIndex?_placed (φ : Placing) (keys : Option (List Expr)) (n : Node) :
    (n.placed φ).keyIndex? (Expr.placedKeys φ keys) = n.keyIndex? keys := by
  cases keys with
  | none => rfl
  | some keys => exact Node.indexIn?_placed φ n keys

theorem Expr.ownColumn?_placed (φ : Placing) (keys : Option (List Expr)) (e : Expr) :
    (e.placed φ).ownColumn? (Expr.placedKeys φ keys) =
      (e.ownColumn? keys).map (ColumnRef.placed φ) := by
  simp only [Expr.ownColumn?, Expr.keyIndex?_placed, Expr.column?_placed]
  split
  · rfl
  · cases e.column? with
    | none => rfl
    | some r =>
      simp only [Option.map_some, Option.filter_some]
      show (if r.level == 0 then some (r.placed φ) else none) = _
      split <;> rfl

theorem Expr.outputCode_placed (φ : Placing) (keys : Option (List Expr)) (slots : List (Slot Plan))
    (e : Expr) (value : Except Error Code) :
    (e.placed φ).outputCode (Expr.placedKeys φ keys) slots value =
      e.outputCode keys slots value := by
  simp only [Expr.outputCode, Expr.ownColumn?_placed]
  cases e.ownColumn? keys <;> rfl

mutual

theorem Expr.emit_placed (φ : Placing) (keys : Option (List Expr)) (parts : Parts) : ∀ e : Expr,
    (e.placed φ).emit c (Expr.placedKeys φ keys) parts = e.emit c keys parts
  | ⟨nodes, type, isBoolean, hasAggregate, source, aliasName, offset⟩ => by
    have hindex := Expr.keyIndex?_placed φ keys
      ⟨nodes, type, isBoolean, hasAggregate, source, aliasName, offset⟩
    simp only [Expr.placed, Expr.emit] at hindex ⊢
    rw [hindex, Node.emitAll_placed φ keys parts nodes]

theorem Node.emit_placed (φ : Placing) (keys : Option (List Expr)) (parts : Parts) (n : Node) :
    (n.placed φ).emit c (Expr.placedKeys φ keys) parts = n.emit c keys parts := by
  have hindex := Node.keyIndex?_placed φ keys n
  cases n with
  | column r =>
    simp only [Node.placed, Node.emit] at hindex ⊢
    rw [hindex]
    rfl
  | call f =>
    simp only [Node.placed, Node.emit] at hindex ⊢
    rw [hindex, Call.emit_placed φ keys parts f]
  | select s =>
    simp only [Node.placed, Node.emit] at hindex ⊢
    rw [hindex, Select.compile_placed φ s]
  | number | text | boolean | null =>
    simp only [Node.placed, Node.emit] at hindex ⊢
    rw [hindex]
  | operator | openParen | closeParen => simp only [Node.placed, Node.emit]

theorem Node.emitAll_placed (φ : Placing) (keys : Option (List Expr)) : ∀ (parts : Parts)
    (ns : List Node),
    Node.emitAll c (Expr.placedKeys φ keys) parts (Node.placedAll φ ns) =
      Node.emitAll c keys parts ns
  | parts, [] => by simp only [Node.placedAll, Node.emitAll]
  | parts, n :: ns => by
    simp only [Node.placedAll, Node.emitAll, Node.emit_placed φ keys parts n]
    refine bind_congr_ok fun p _ => ?_
    rw [Node.emitAll_placed φ keys p.2 ns]

theorem Call.emit_placed (φ : Placing) (keys : Option (List Expr)) (parts : Parts) : ∀ f : Call,
    (f.placed φ).emit c (Expr.placedKeys φ keys) parts = f.emit c keys parts
  | ⟨_, _, none, _, _, _⟩ => by simp only [Call.placed, Call.emit]
  | ⟨_, arguments, some _, _, true, _⟩ => by
    simp only [Call.placed, Call.emit, Expr.programs_placed φ arguments, Expr.placedKeys,
      Option.isNone_map]
  | ⟨_, arguments, some _, _, false, _⟩ => by
    have hlength : (Expr.placedAll φ arguments).length = arguments.length := by
      rw [Expr.placedAll_eq_map, List.length_map]
    simp only [Call.placed, Call.emit, Expr.emitAll_placed φ keys parts arguments, hlength]

theorem Expr.emitAll_placed (φ : Placing) (keys : Option (List Expr)) : ∀ (parts : Parts)
    (es : List Expr),
    Expr.emitAll c (Expr.placedKeys φ keys) parts (Expr.placedAll φ es) =
      Expr.emitAll c keys parts es
  | parts, [] => by simp only [Expr.placedAll, Expr.emitAll]
  | parts, e :: es => by
    simp only [Expr.placedAll, Expr.emitAll, Expr.emit_placed φ keys parts e]
    refine bind_congr_ok fun code _ => ?_
    rw [Expr.emitAll_placed φ keys code.parts es]

theorem Expr.programs_placed (φ : Placing) : ∀ es : List Expr,
    Expr.programs c (Expr.placedAll φ es) = Expr.programs c es
  | [] => by simp only [Expr.placedAll, Expr.programs]
  | e :: es => by
    have he : (e.placed φ).emit c none ⟨[], []⟩ = e.emit c none ⟨[], []⟩ :=
      Expr.emit_placed φ none ⟨[], []⟩ e
    simp only [Expr.placedAll, Expr.programs, he, Expr.programs_placed φ es]

theorem Expr.programOption_placed (φ : Placing) : ∀ e : Option Expr,
    Expr.programOption c (Expr.placedOption φ e) = Expr.programOption c e
  | none => by simp only [Expr.placedOption, Expr.programOption]
  | some e => by
    have he : (e.placed φ).emit c none ⟨[], []⟩ = e.emit c none ⟨[], []⟩ :=
      Expr.emit_placed φ none ⟨[], []⟩ e
    simp only [Expr.placedOption, Expr.programOption, he]

theorem Expr.outputPrograms_placed (φ : Placing) (keys : Option (List Expr)) :
    ∀ (slots : List (Slot Plan)) (es : List Expr),
    Expr.outputPrograms c (Expr.placedKeys φ keys) slots (Expr.placedAll φ es) =
      Expr.outputPrograms c keys slots es
  | slots, [] => by simp only [Expr.placedAll, Expr.outputPrograms]
  | slots, e :: es => by
    simp only [Expr.placedAll, Expr.outputPrograms, Expr.containsWildcard_placed,
      Expr.emit_placed φ keys ⟨[], slots⟩ e, Expr.outputCode_placed]
    split
    · rfl
    · refine bind_congr_ok fun code _ => ?_
      rw [Expr.outputPrograms_placed φ keys code.parts.slots es]

theorem OrderKey.sortKeys_placed (φ : Placing) (keys : Option (List Expr)) :
    ∀ (slots : List (Slot Plan)) (ks : List OrderKey),
    OrderKey.sortKeys c (Expr.placedKeys φ keys) slots (OrderKey.placedAll φ ks) =
      OrderKey.sortKeys c keys slots ks
  | slots, [] => by simp only [OrderKey.placedAll, OrderKey.sortKeys]
  | slots, ⟨e, _⟩ :: ks => by
    simp only [OrderKey.placedAll, OrderKey.sortKeys, Expr.emit_placed φ keys ⟨[], slots⟩ e]
    refine bind_congr_ok fun code _ => ?_
    rw [OrderKey.sortKeys_placed φ keys code.parts.slots ks]

theorem Source.supply_placed (φ : Placing) : ∀ s : Source, (s.placed φ).supply c = s.supply c
  | .table .. => by simp only [Source.placed, Source.supply]
  | .select s _ _ => by simp only [Source.placed, Source.supply, Select.compile_placed φ s]

theorem Source.supplies_placed (φ : Placing) : ∀ s : Option Source,
    Source.supplies c (Source.placedOption φ s) = Source.supplies c s
  | none => by simp only [Source.placedOption, Source.supplies]
  | some s => by simp only [Source.placedOption, Source.supplies, Source.supply_placed φ s]

theorem Join.supplies_placed (φ : Placing) : ∀ js : List Join,
    Join.supplies c (Join.placedAll φ js) = Join.supplies c js
  | [] => by simp only [Join.placedAll, Join.supplies]
  | ⟨source, _, _⟩ :: js => by
    simp only [Join.placedAll, Join.supplies, Source.supply_placed φ source,
      Join.supplies_placed φ js]

theorem Join.steps_placed (φ : Placing) : ∀ js : List Join,
    Join.steps c (Join.placedAll φ js) = Join.steps c js
  | [] => by simp only [Join.placedAll, Join.steps]
  | ⟨_, _, condition⟩ :: js => by
    simp only [Join.placedAll, Join.steps, Expr.programOption_placed φ condition,
      Join.steps_placed φ js]

theorem Select.compile_placed (φ : Placing) : ∀ s : Select, (s.placed φ).compile c = s.compile c
  | ⟨text, distinct, output, origin, joins, filter, groupBy, orderBy, limit, offset⟩ => by
    have haggregate := Select.isAggregate_placed φ
      ⟨text, distinct, output, origin, joins, filter, groupBy, orderBy, limit, offset⟩
    have hkeys (b : Bool) : (if b = true then some (Expr.placedAll φ groupBy) else none) =
        Expr.placedKeys φ (if b = true then some groupBy else none) := by
      cases b with
      | false => rfl
      | true => exact congrArg some (Expr.placedAll_eq_map φ groupBy)
    have hcolumns : (Expr.placedAll φ output).map (fun e => Column.mk e.name e.type) =
        output.map fun e => ⟨e.name, e.type⟩ := by
      simp only [Expr.placedAll_eq_map, List.map_map, Function.comp_def, Expr.placed_name,
        Expr.placed_type]
    simp only [Select.placed] at haggregate
    simp only [Select.placed, Select.compile, haggregate, hkeys, hcolumns,
      Source.supplies_placed φ origin, Join.supplies_placed φ joins, Join.steps_placed φ joins,
      Expr.programOption_placed φ filter, Expr.programs_placed φ groupBy,
      Expr.outputPrograms_placed φ _ [] output, OrderKey.sortKeys_placed φ _ _ orderBy]

end

/-! ### Further on -/

theorem Expr.programOption_moved (d : Nat) (e : Option Expr) :
    Expr.programOption c (Expr.movedOption d e) = Expr.programOption c e := by
  rw [← Expr.placedOption_shift, Expr.programOption_placed]

theorem Expr.program_moved (d : Nat) (e : Expr) : (e.moved d).program c = e.program c := by
  rw [← Expr.placed_shift]
  exact congrArg (Except.map Code.program) (Expr.emit_placed (.shift d) none ⟨[], []⟩ e)

end SqlEngine

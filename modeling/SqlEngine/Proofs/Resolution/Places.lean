import SqlEngine.Proofs.Statement.Placing
import SqlEngine.Resolution.Statement

/-!
# Resolution — places

The names in a text mean the same at any place of it.  An expression with its parts at other places
is resolved to the same expression there, and fails with the same error.

* `Expr.same_placed`: two expressions whose places change alike are the same iff they were.
* `Expr.resolve_placed`, `Select.resolve_placed`: resolving at other places.
* `Assignment.resolve_moved`, `Expr.resolveFilter_moved`: the parts of a statement with a filter,
  in a text that stands further on.
-/

namespace SqlEngine

variable {c : Catalog}

/-! ### Equality of expressions -/

theorem ColumnRef.same_placed (φ : Placing) (a b : ColumnRef) :
    (a.placed φ).same (b.placed φ) = a.same b := rfl

mutual

theorem Expr.same_placed (φ : Placing) : ∀ a b : Expr, (a.placed φ).same (b.placed φ) = a.same b
  | ⟨a, _, _, _, _, _, _⟩, ⟨b, _, _, _, _, _, _⟩ => by
    simp only [Expr.placed, Expr.same, Node.sameList_placed φ a b]

theorem Node.same_placed (φ : Placing) : ∀ a b : Node, (a.placed φ).same (b.placed φ) = a.same b
  | .call a, b => by cases b <;> simp only [Node.placed, Node.same, Call.same_placed φ a]
  | .select a, b => by cases b <;> simp only [Node.placed, Node.same, Select.same_placed φ a]
  | .column _, b | .operator _, b | .openParen, b | .closeParen, b | .number _, b | .text _, b
  | .boolean _, b | .null, b => by
    cases b <;> simp only [Node.placed, Node.same, ColumnRef.same_placed]

theorem Node.sameList_placed (φ : Placing) : ∀ as bs : List Node,
    Node.sameList (Node.placedAll φ as) (Node.placedAll φ bs) = Node.sameList as bs
  | [], bs => by cases bs <;> simp only [Node.placedAll, Node.sameList]
  | a :: as, bs => by
    cases bs <;> simp only [Node.placedAll, Node.sameList, Node.same_placed φ a,
      Node.sameList_placed φ as]

theorem Call.same_placed (φ : Placing) : ∀ a b : Call, (a.placed φ).same (b.placed φ) = a.same b
  | ⟨_, a, _, _, _, _⟩, ⟨_, b, _, _, _, _⟩ => by
    simp only [Call.placed, Call.same, Expr.sameList_placed φ a b]

theorem Expr.sameList_placed (φ : Placing) : ∀ as bs : List Expr,
    Expr.sameList (Expr.placedAll φ as) (Expr.placedAll φ bs) = Expr.sameList as bs
  | [], bs => by cases bs <;> simp only [Expr.placedAll, Expr.sameList]
  | a :: as, bs => by
    cases bs <;> simp only [Expr.placedAll, Expr.sameList, Expr.same_placed φ a,
      Expr.sameList_placed φ as]

theorem Expr.sameOption_placed (φ : Placing) : ∀ a b : Option Expr,
    Expr.sameOption (Expr.placedOption φ a) (Expr.placedOption φ b) = Expr.sameOption a b
  | none, b => by cases b <;> simp only [Expr.placedOption, Expr.sameOption]
  | some a, b => by
    cases b <;> simp only [Expr.placedOption, Expr.sameOption, Expr.same_placed φ a]

theorem Source.same_placed (φ : Placing) : ∀ a b : Source, (a.placed φ).same (b.placed φ) = a.same b
  | .table n a i o, b => by cases b <;> simp only [Source.placed, Source.same, φ.beq]
  | .select s a o, b => by
    cases b <;> simp only [Source.placed, Source.same, Select.same_placed φ s, φ.beq]

theorem Source.sameOption_placed (φ : Placing) : ∀ a b : Option Source,
    Source.sameOption (Source.placedOption φ a) (Source.placedOption φ b) = Source.sameOption a b
  | none, b => by cases b <;> simp only [Source.placedOption, Source.sameOption]
  | some a, b => by
    cases b <;> simp only [Source.placedOption, Source.sameOption, Source.same_placed φ a]

theorem Join.sameList_placed (φ : Placing) : ∀ as bs : List Join,
    Join.sameList (Join.placedAll φ as) (Join.placedAll φ bs) = Join.sameList as bs
  | [], bs => by
    rcases bs with _ | ⟨⟨_, _, _⟩, _⟩ <;> simp only [Join.placedAll, Join.sameList]
  | ⟨s, _, c⟩ :: as, bs => by
    rcases bs with _ | ⟨⟨_, _, _⟩, _⟩ <;> simp only [Join.placedAll, Join.sameList,
      Source.same_placed φ s, Expr.sameOption_placed φ c, Join.sameList_placed φ as]

theorem OrderKey.sameList_placed (φ : Placing) : ∀ as bs : List OrderKey,
    OrderKey.sameList (OrderKey.placedAll φ as) (OrderKey.placedAll φ bs) = OrderKey.sameList as bs
  | [], bs => by
    rcases bs with _ | ⟨⟨_, _⟩, _⟩ <;> simp only [OrderKey.placedAll, OrderKey.sameList]
  | ⟨a, _⟩ :: as, bs => by
    rcases bs with _ | ⟨⟨_, _⟩, _⟩ <;> simp only [OrderKey.placedAll, OrderKey.sameList,
      Expr.same_placed φ a, OrderKey.sameList_placed φ as]

theorem Select.same_placed (φ : Placing) : ∀ a b : Select, (a.placed φ).same (b.placed φ) = a.same b
  | ⟨_, _, o, f, j, w, g, k, _, _⟩, ⟨_, _, o', f', j', w', g', k', _, _⟩ => by
    simp only [Select.placed, Select.same, Expr.sameList_placed φ o o',
      Source.sameOption_placed φ f f', Join.sameList_placed φ j j', Expr.sameOption_placed φ w w',
      Expr.sameList_placed φ g g', OrderKey.sameList_placed φ k k', φ.beq]

end

theorem Expr.indexIn?_placed (φ : Placing) (e : Expr) (list : List Expr) :
    (e.placed φ).indexIn? (list.map (Expr.placed φ)) = e.indexIn? list := by
  simp only [Expr.indexIn?, List.findIdx?_map, Function.comp_def, Expr.same_placed]

theorem Node.indexIn?_placed (φ : Placing) (n : Node) (list : List Expr) :
    (n.placed φ).indexIn? (list.map (Expr.placed φ)) = n.indexIn? list := by
  simp only [Node.indexIn?, List.findIdx?_map, Function.comp_def, Expr.placed_nodes]
  congr 1
  funext e
  match e.nodes with
  | []          => rfl
  | [m]         => exact Node.same_placed φ m n
  | _ :: _ :: _ => rfl

/-! ### Placement -/

mutual

theorem Expr.calls_placed (φ : Placing) : ∀ e : Expr,
    (e.placed φ).calls = e.calls.map (Call.placed φ)
  | ⟨nodes, _, _, _, _, _, _⟩ => Node.callsOf_placed φ nodes

theorem Node.callsOf_placed (φ : Placing) : ∀ ns : List Node,
    Node.callsOf (Node.placedAll φ ns) = (Node.callsOf ns).map (Call.placed φ)
  | [] => rfl
  | .call f :: ns => by
    simp only [Node.placedAll, Node.placed, Node.callsOf, List.map_cons, List.map_append,
      Call.nested_placed φ f, Node.callsOf_placed φ ns]
  | .operator _ :: ns | .openParen :: ns | .closeParen :: ns | .number _ :: ns | .text _ :: ns
  | .boolean _ :: ns | .null :: ns | .column _ :: ns | .select _ :: ns => Node.callsOf_placed φ ns

theorem Call.nested_placed (φ : Placing) : ∀ f : Call,
    (f.placed φ).nested = f.nested.map (Call.placed φ)
  | ⟨_, arguments, _, _, _, _⟩ => Expr.callsOf_placed φ arguments

theorem Expr.callsOf_placed (φ : Placing) : ∀ es : List Expr,
    Expr.callsOf (Expr.placedAll φ es) = (Expr.callsOf es).map (Call.placed φ)
  | [] => rfl
  | e :: es => by
    simp only [Expr.placedAll, Expr.callsOf, List.map_append, Expr.calls_placed φ e,
      Expr.callsOf_placed φ es]

end

theorem Call.keyArgument?_placed (φ : Placing) (keys : List Expr) (f : Call) :
    (f.placed φ).keyArgument? (keys.map (Expr.placed φ)) =
      (f.keyArgument? keys).map (Expr.placed φ) := by
  obtain ⟨_, arguments, _, _, isAggregate, _⟩ := f
  simp only [Call.placed, Call.keyArgument?, Expr.placedAll_eq_map, List.find?_map,
    Function.comp_def, Expr.indexIn?_placed]
  split <;> rfl

mutual

theorem Expr.ungrouped?_placed (φ : Placing) (keys : List Expr) : ∀ e : Expr,
    (e.placed φ).ungrouped? (keys.map (Expr.placed φ)) =
      (e.ungrouped? keys).map (ColumnRef.placed φ)
  | ⟨nodes, type, isBoolean, hasAggregate, source, aliasName, offset⟩ => by
    have hindex := Expr.indexIn?_placed φ
      ⟨nodes, type, isBoolean, hasAggregate, source, aliasName, offset⟩ keys
    simp only [Expr.placed, Expr.ungrouped?] at hindex ⊢
    rw [hindex, Node.ungrouped?_placed φ keys nodes]
    split <;> rfl

theorem Node.ungrouped?_placed (φ : Placing) (keys : List Expr) : ∀ ns : List Node,
    Node.ungrouped? (keys.map (Expr.placed φ)) (Node.placedAll φ ns) =
      (Node.ungrouped? keys ns).map (ColumnRef.placed φ)
  | [] => by simp only [Node.placedAll, Node.ungrouped?, Option.map_none]
  | .column r :: ns => by
    have hindex := Node.indexIn?_placed φ (.column r) keys
    simp only [Node.placedAll, Node.placed, Node.ungrouped?] at hindex ⊢
    rw [hindex, Node.ungrouped?_placed φ keys ns]
    show (if ((Node.column r).indexIn? keys).isNone && r.level == 0 then some (r.placed φ)
      else (Node.ungrouped? keys ns).map (ColumnRef.placed φ)) = _
    split <;> rfl
  | .call f :: ns => by
    have hindex := Node.indexIn?_placed φ (.call f) keys
    simp only [Node.placedAll, Node.placed, Node.ungrouped?] at hindex ⊢
    rw [hindex, Node.ungrouped?_placed φ keys ns, Call.ungrouped?_placed φ keys f, Option.map_or]
    split <;> rfl
  | .operator _ :: ns | .openParen :: ns | .closeParen :: ns | .number _ :: ns | .text _ :: ns
  | .boolean _ :: ns | .null :: ns | .select _ :: ns => by
    simp only [Node.placedAll, Node.placed, Node.ungrouped?, Node.ungrouped?_placed φ keys ns]

theorem Call.ungrouped?_placed (φ : Placing) (keys : List Expr) : ∀ f : Call,
    (f.placed φ).ungrouped? (keys.map (Expr.placed φ)) =
      (f.ungrouped? keys).map (ColumnRef.placed φ)
  | ⟨_, arguments, _, _, isAggregate, _⟩ => by
    simp only [Call.placed, Call.ungrouped?, Expr.ungroupedIn?_placed φ keys arguments]
    split <;> rfl

theorem Expr.ungroupedIn?_placed (φ : Placing) (keys : List Expr) : ∀ es : List Expr,
    Expr.ungroupedIn? (keys.map (Expr.placed φ)) (Expr.placedAll φ es) =
      (Expr.ungroupedIn? keys es).map (ColumnRef.placed φ)
  | [] => by simp only [Expr.placedAll, Expr.ungroupedIn?, Option.map_none]
  | e :: es => by
    simp only [Expr.placedAll, Expr.ungroupedIn?, Expr.ungrouped?_placed φ keys e,
      Expr.ungroupedIn?_placed φ keys es, Option.map_or]

end

theorem Expr.groupFault?_placed (φ : Placing) (keys : List Expr) (e : Expr) :
    (e.placed φ).groupFault? (keys.map (Expr.placed φ)) = e.groupFault? keys := by
  have hcalls : (e.placed φ).calls.findSome? (Call.keyArgument? (keys.map (Expr.placed φ))) =
      (e.calls.findSome? (Call.keyArgument? keys)).map (Expr.placed φ) := by
    simp only [Expr.calls_placed, List.findSome?_map, Function.comp_def, Call.keyArgument?_placed,
      List.map_findSome?]
  simp only [Expr.groupFault?, Expr.containsWildcard_placed, hcalls, Expr.ungrouped?_placed,
    Option.map_map, Function.comp_def, Expr.placed_source, ColumnRef.placed_text]

theorem Expr.aggregateFault?_placed (φ : Placing) (e : Expr) :
    (e.placed φ).aggregateFault? = e.aggregateFault? := by
  have hungrouped : (e.placed φ).ungrouped? [] = (e.ungrouped? []).map (ColumnRef.placed φ) :=
    Expr.ungrouped?_placed φ [] e
  simp only [Expr.aggregateFault?, Expr.containsWildcard_placed, hungrouped, Option.map_map,
    Function.comp_def, Expr.placed_source, ColumnRef.placed_text]

theorem Select.isAggregate_placed (φ : Placing) (s : Select) :
    (s.placed φ).isAggregate = s.isAggregate := by
  simp only [Select.isAggregate, Select.placed_groupBy, Select.placed_output, Select.placed_orderBy,
    List.isEmpty_map, List.any_map, Function.comp_def, Expr.placed_hasAggregate,
    OrderKey.placed_expr]

theorem Select.groupFault?_placed (φ : Placing) (s : Select) :
    (s.placed φ).groupFault? = s.groupFault? := by
  simp only [Select.groupFault?, Select.isAggregate_placed, Select.placed_groupBy,
    Select.placed_output, Select.placed_orderBy, List.isEmpty_map, List.findSome?_append,
    List.findSome?_map, Function.comp_def, OrderKey.placed_expr, Expr.groupFault?_placed,
    Expr.aggregateFault?_placed]

/-! ### Joins -/

theorem Source.clash?_placed (φ : Placing) (s before : Source) :
    (s.placed φ).clash? (before.placed φ) = s.clash? before := by
  cases s <;> cases before <;> rfl

theorem Source.clashIn?_placed (φ : Placing) (seen ss : List Source) :
    Source.clashIn? (seen.map (Source.placed φ)) (ss.map (Source.placed φ)) =
      Source.clashIn? seen ss := by
  induction ss generalizing seen with
  | nil => rfl
  | cons s ss ih =>
    have ih' := ih (seen ++ [s])
    rw [List.map_append] at ih'
    simp only [List.map_cons, Source.clashIn?, List.findSome?_map, Function.comp_def,
      Source.clash?_placed]
    exact congrArg _ ih'

theorem Join.isBare_placed (φ : Placing) (j : Join) : (j.placed φ).isBare = j.isBare := by
  obtain ⟨_, _, condition⟩ := j
  cases condition with
  | none => rfl
  | some e =>
    simp only [Join.placed, Expr.placedOption, Join.isBare, Option.all_some, Expr.placed_nodes,
      List.isEmpty_map]

theorem Select.sources_placed (φ : Placing) (s : Select) :
    (s.placed φ).sources = s.sources.map (Source.placed φ) := by
  simp only [Select.sources, Select.placed_origin, Select.placed_joins, List.map_append,
    List.map_map, Function.comp_def, Join.placed_source, Option.toList_map]

theorem Select.joinFault?_placed (φ : Placing) (s : Select) :
    (s.placed φ).joinFault? = s.joinFault? := by
  have hclash : Source.clashIn? [] (s.sources.map (Source.placed φ)) =
      Source.clashIn? [] s.sources := Source.clashIn?_placed φ [] s.sources
  simp only [Select.joinFault?, Select.sources_placed, hclash, Select.placed_joins, List.find?_map,
    Function.comp_def, Join.isBare_placed, Option.map_map, Join.placed_source, Source.placed_name]

/-! ### Scopes -/

theorem Source.scopeSource_placed (φ : Placing) (c : Catalog) (s : Source) :
    (s.placed φ).scopeSource c = s.scopeSource c := by
  cases s with
  | table => rfl
  | select s a o =>
    simp only [Source.placed, Source.scopeSource, Select.placed_output, List.map_map,
      Function.comp_def, Expr.placed_type, Expr.placed_name]

namespace Scope

variable (φ : Placing) (scope : Scope) (r : ColumnRef)

theorem candidates_placed : PlacedBy φ id (scope.candidates r) (scope.candidates (r.placed φ)) := by
  obtain ⟨_ | q, _, _, _, _, _⟩ := r
  · exact .ok rfl
  · simp only [candidates, ColumnRef.placed]
    split
    · exact .error (.ambiguous _ _)
    · exact .ok rfl

theorem bindAt?_placed (i : Nat) :
    scope.bindAt? (r.placed φ) i = (scope.bindAt? r i).map (ColumnRef.placed φ) := by
  simp only [bindAt?, ColumnRef.placed]
  cases scope[i]? with
  | none => rfl
  | some source =>
    cases hj : source.columns.index? r.column with
    | none =>
      simp only [hj, Option.bind_eq_bind, Option.bind_some, Option.bind_none, Option.map_none]
    | some j =>
      simp only [hj, Option.bind_eq_bind, Option.bind_some]
      cases source.columns[j]? <;> rfl

theorem bind?_placed : PlacedBy φ (Option.map (ColumnRef.placed φ)) (scope.bind? r)
    (scope.bind? (r.placed φ)) := by
  refine (candidates_placed φ scope r).bind fun sources => ?_
  have hbound : sources.filterMap (scope.bindAt? (r.placed φ)) =
      (sources.filterMap (scope.bindAt? r)).map (ColumnRef.placed φ) := by
    rw [List.map_filterMap]
    exact congrArg (List.filterMap · sources) (funext (bindAt?_placed φ scope r))
  simp only [id_eq, hbound]
  match sources.filterMap (scope.bindAt? r) with
  | []              => exact .ok rfl
  | [bound]         => exact .ok rfl
  | a :: b :: bound => exact .error (.ambiguous _ _)

theorem bindIn?_placed : ∀ (level : Nat) (scopes : List Scope),
    PlacedBy φ (Option.map (ColumnRef.placed φ)) (bindIn? r level scopes)
      (bindIn? (r.placed φ) level scopes)
  | _, [] => .ok rfl
  | level, scope :: outer => by
    refine (bind?_placed φ scope r).bind fun found => ?_
    cases found with
    | none => exact bindIn?_placed (level + 1) outer
    | some bound => exact .ok rfl

theorem columnsOf_placed (source : ScopeSource) (i offset : Nat) :
    columnsOf source i (φ offset) = (columnsOf source i offset).map (Expr.placed φ) := by
  simp only [columnsOf, List.map_map]
  rfl

theorem expand_placed : PlacedBy φ (List.map (Expr.placed φ)) (scope.expand r)
    (scope.expand (r.placed φ)) := by
  refine (candidates_placed φ scope r).bind fun sources => ?_
  cases sources with
  | nil => exact .error (.unresolved _ _)
  | cons i sources =>
    refine .ok ?_
    rw [List.map_flatMap]
    refine congrArg (List.flatMap · _) (funext fun j => ?_)
    cases scope[j]? with
    | none => rfl
    | some source => exact columnsOf_placed φ source j r.offset

theorem expandAll_placed : ∀ es : List Expr,
    PlacedBy φ (List.map (Expr.placed φ)) (scope.expandAll es)
      (scope.expandAll (es.map (Expr.placed φ)))
  | [] => .ok rfl
  | e :: es => by
    have hrest (columns : List Expr) : PlacedBy φ (List.map (Expr.placed φ))
        (scope.expandAll es >>= fun more => .ok (columns ++ more))
        (scope.expandAll (es.map (Expr.placed φ)) >>= fun more =>
          .ok (columns.map (Expr.placed φ) ++ more)) :=
      (expandAll_placed es).bind fun more => .ok List.map_append.symm
    simp only [List.map_cons, expandAll, Expr.column?_placed]
    cases e.column? with
    | none => exact hrest [e]
    | some r =>
      simp only [Option.map_some]
      by_cases hwildcard : r.isWildcard = true
      · rw [if_pos hwildcard, if_pos (show (r.placed φ).isWildcard = true from hwildcard)]
        exact (expand_placed φ scope r).bind fun columns => hrest columns
      · rw [if_neg hwildcard, if_neg (show ¬ (r.placed φ).isWildcard = true from hwildcard)]
        exact hrest [e]

end Scope

/-! ### Types and calls -/

theorem Node.typed_placed (φ : Placing) (n : Node) : (n.placed φ).typed = n.typed := by
  cases n with
  | call f => cases f; rfl
  | select s =>
    simp only [Node.placed, Node.typed, Select.valueType, Select.placed_output, List.head?_map,
      Option.map_map, Function.comp_def, Expr.placed_type]
  | _ => rfl

/-- The errors of a type have no place. -/
theorem Formula.typeSteps_placed (φ : Placing) : ∀ (stack : List DataType)
    (steps : List (Step DataType)), PlacedBy φ id (typeSteps stack steps) (typeSteps stack steps)
  | [_], [] => .ok rfl
  | [], [] | _ :: _ :: _, [] => .error (.internal _)
  | stack, .value t :: steps => typeSteps_placed φ (t :: stack) steps
  | right :: left :: stack, .operator op :: steps => by
    simp only [typeSteps]
    split
    · exact typeSteps_placed φ _ steps
    · exact .error (.typeMismatch _ _ _)
  | [], .operator _ :: _ | [_], .operator _ :: _ => .error (.internal _)

theorem Formula.typeOf_placed (φ : Placing) (items : List (Item DataType)) :
    PlacedBy φ id (typeOf items) (typeOf items) := by
  rw [typeOf]
  split
  · exact typeSteps_placed φ [] _
  · exact .error (.internal _)

theorem Node.any_isAggregate_placed (φ : Placing) (ns : List Node) :
    (Node.callsOf (Node.placedAll φ ns)).any Call.isAggregate =
      (Node.callsOf ns).any Call.isAggregate := by
  rw [Node.callsOf_placed, List.any_map]
  refine congrArg (List.any _) (funext fun f => ?_)
  cases f
  rfl

theorem Call.choose_placed (φ : Placing) (id : Nat) (f : Function) (aggregates : Bool)
    (call : Call) :
    PlacedBy φ (Call.placed φ) (Call.choose id f aggregates call)
      (Call.choose id f aggregates (call.placed φ)) := by
  obtain ⟨function, arguments, target, type, isAggregate, offset⟩ := call
  have htypes : (arguments.map (Expr.placed φ)).map Expr.type = arguments.map Expr.type := by
    simp only [List.map_map, Function.comp_def, Expr.placed_type]
  simp only [Call.choose, Call.placed, Expr.placedAll_eq_map, htypes]
  split
  · exact .error _
  split
  · exact .error _
  split
  · exact .error _
  · refine .ok ?_
    simp only [Call.placed, Expr.placedAll_eq_map]

theorem ColumnRef.asCall_placed (φ : Placing) (aggregates : Bool) (r : ColumnRef) :
    PlacedBy φ (Call.placed φ) (r.asCall c aggregates) ((r.placed φ).asCall c aggregates) := by
  obtain ⟨_ | q, column, type, level, binding, offset⟩ := r
  · rw [ColumnRef.asCall, ColumnRef.asCall]
    simp only [ColumnRef.placed, Option.isSome_none, Bool.false_eq_true, if_false]
    split
    · exact .error (.unresolved _ _)
    split
    · exact Call.choose_placed φ _ _ aggregates _
    · exact .error (.unresolved _ _)
  · exact .error (.unresolved _ _)

theorem ColumnRef.resolve_placed (φ : Placing) (scopes : List Scope) (aggregates : Bool)
    (r : ColumnRef) :
    PlacedBy φ (Node.placed φ) (r.resolve c scopes aggregates)
      ((r.placed φ).resolve c scopes aggregates) := by
  rw [ColumnRef.resolve, ColumnRef.resolve]
  by_cases hwildcard : r.isWildcard = true
  · rw [if_pos hwildcard, if_pos (show (r.placed φ).isWildcard = true from hwildcard)]
    exact .error (.parse _ _ _)
  · rw [if_neg hwildcard, if_neg (show ¬ (r.placed φ).isWildcard = true from hwildcard)]
    refine (Scope.bindIn?_placed φ r 0 scopes).bind fun found => ?_
    cases found with
    | none => exact UpTo.map (ColumnRef.asCall_placed φ aggregates r) fun _ _ h => h ▸ rfl
    | some bound => exact .ok rfl

theorem Expr.requireBoolean_placed (φ : Placing) (clause : Keyword) (e : Expr) :
    PlacedBy φ id (e.requireBoolean clause) ((e.placed φ).requireBoolean clause) := by
  simp only [Expr.requireBoolean, Expr.placed_isBoolean, Expr.placed_type, Expr.placed_source,
    Expr.placed_offset]
  split
  · exact .ok rfl
  · exact .error (.parse _ _ _)

theorem Expr.requireCondition_placed (φ : Placing) (e : Expr) :
    PlacedBy φ id e.requireCondition (e.placed φ).requireCondition := by
  simp only [Expr.requireCondition, Expr.placed_isBoolean, Expr.placed_type, Expr.placed_source]
  split
  · exact .ok rfl
  · exact .error _

theorem Select.requireOneColumn_placed (φ : Placing) (s : Select) :
    PlacedBy φ id s.requireOneColumn (s.placed φ).requireOneColumn := by
  obtain ⟨text, _, output, _, _, _, _, _, _, offset⟩ := s
  simp only [Select.requireOneColumn, Select.placed, Expr.placedAll_eq_map, List.length_map]
  split
  · exact .ok rfl
  · exact .error (.parse _ _ _)

theorem OrderKey.namedOutput?_placed (φ : Placing) (output : List Expr) (key : Expr) :
    OrderKey.namedOutput? (output.map (Expr.placed φ)) (key.placed φ) =
      (OrderKey.namedOutput? output key).map (Expr.placed φ) := by
  simp only [OrderKey.namedOutput?, Expr.column?_placed]
  cases key.column? with
  | none => rfl
  | some r =>
    obtain ⟨_ | q, column, _, _, _, _⟩ := r
    · simp only [Option.map_some, ColumnRef.placed, Option.bind_eq_bind, Option.bind_some,
        Option.isSome_none, Bool.false_eq_true, if_false, List.find?_map, Function.comp_def,
        Expr.placed_aliasName]
      cases output.find? fun e => e.aliasName.any (Text.sameName · column) with
      | none => rfl
      | some e =>
        cases e
        rfl
    · rfl

/-- The conditions of joins are put in their places. -/
theorem Join.zipWith_placed (φ : Placing) : ∀ (js : List Join) (es : List Expr),
    (Join.placedAll φ js).zipWith (fun j e => { j with condition := some e })
        (Expr.placedAll φ es) =
      Join.placedAll φ (js.zipWith (fun j e => { j with condition := some e }) es)
  | [], es => by cases es <;> rfl
  | ⟨_, _, _⟩ :: _, [] => rfl
  | ⟨source, kind, _⟩ :: js, e :: es =>
    congrArg (Join.mk (source.placed φ) kind (some (e.placed φ)) :: ·) (Join.zipWith_placed φ js es)

/-! ### Resolving -/

mutual

theorem Expr.resolve_placed (φ : Placing) (scopes : List Scope) (aggregates : Bool) : ∀ e : Expr,
    PlacedBy φ (Expr.placed φ) (e.resolve c scopes aggregates)
      ((e.placed φ).resolve c scopes aggregates)
  | ⟨nodes, _, _, _, source, aliasName, offset⟩ => by
    simp only [Expr.placed, Expr.resolve]
    refine (Node.resolveAll_placed φ scopes aggregates nodes).bind fun nodes' => ?_
    have htyped : (Node.placedAll φ nodes').map Node.typed = nodes'.map Node.typed := by
      simp only [Node.placedAll_eq_map, List.map_map, Function.comp_def, Node.typed_placed]
    rw [htyped, Node.any_isAggregate_placed]
    exact (Formula.typeOf_placed φ _).bind fun type => .ok rfl

theorem Node.resolve_placed (φ : Placing) (scopes : List Scope) (aggregates : Bool) : ∀ n : Node,
    PlacedBy φ (Node.placed φ) (n.resolve c scopes aggregates)
      ((n.placed φ).resolve c scopes aggregates)
  | .column r => by
    simp only [Node.placed, Node.resolve]
    exact ColumnRef.resolve_placed φ scopes aggregates r
  | .call f => by
    simp only [Node.placed, Node.resolve]
    exact (Call.resolve_placed φ scopes aggregates f).bind fun f' => .ok rfl
  | .select s => by
    simp only [Node.placed, Node.resolve]
    refine (Select.resolve_placed φ scopes s).bind fun s' => ?_
    exact (Select.requireOneColumn_placed φ s').bind fun _ => .ok rfl
  | .operator _ | .openParen | .closeParen | .number _ | .text _ | .boolean _ | .null => by
    simp only [Node.placed, Node.resolve]
    exact .ok rfl

theorem Node.resolveAll_placed (φ : Placing) (scopes : List Scope) (aggregates : Bool) :
    ∀ ns : List Node,
    PlacedBy φ (Node.placedAll φ) (Node.resolveAll c scopes aggregates ns)
      (Node.resolveAll c scopes aggregates (Node.placedAll φ ns))
  | [] => by
    simp only [Node.placedAll, Node.resolveAll]
    exact .ok rfl
  | n :: ns => by
    simp only [Node.placedAll, Node.resolveAll]
    refine (Node.resolve_placed φ scopes aggregates n).bind fun n' => ?_
    exact (Node.resolveAll_placed φ scopes aggregates ns).bind fun ns' => .ok rfl

theorem Call.resolve_placed (φ : Placing) (scopes : List Scope) (aggregates : Bool) : ∀ f : Call,
    PlacedBy φ (Call.placed φ) (f.resolve c scopes aggregates)
      ((f.placed φ).resolve c scopes aggregates)
  | ⟨function, arguments, target, type, isAggregate, offset⟩ => by
    simp only [Call.placed, Call.resolve]
    split
    · exact .error (.unresolved _ _)
    next id f _ =>
      refine (Expr.resolveAll_placed φ scopes (aggregates && !f.hasAggregate) arguments).bind ?_
      exact fun arguments' => Call.choose_placed φ id f aggregates _

theorem Expr.resolveAll_placed (φ : Placing) (scopes : List Scope) (aggregates : Bool) :
    ∀ es : List Expr,
    PlacedBy φ (Expr.placedAll φ) (Expr.resolveAll c scopes aggregates es)
      (Expr.resolveAll c scopes aggregates (Expr.placedAll φ es))
  | [] => by
    simp only [Expr.placedAll, Expr.resolveAll]
    exact .ok rfl
  | e :: es => by
    simp only [Expr.placedAll, Expr.resolveAll]
    refine (Expr.resolve_placed φ scopes aggregates e).bind fun e' => ?_
    exact (Expr.resolveAll_placed φ scopes aggregates es).bind fun es' => .ok rfl

theorem Expr.resolveOutputs_placed (φ : Placing) (scopes : List Scope) : ∀ es : List Expr,
    PlacedBy φ (Expr.placedAll φ) (Expr.resolveOutputs c scopes es)
      (Expr.resolveOutputs c scopes (Expr.placedAll φ es))
  | [] => by
    simp only [Expr.placedAll, Expr.resolveOutputs]
    exact .ok rfl
  | e :: es => by
    simp only [Expr.placedAll, Expr.resolveOutputs, Expr.isWildcard_placed]
    split
    · exact (Expr.resolveOutputs_placed φ scopes es).bind fun es' => .ok rfl
    · refine (Expr.resolve_placed φ scopes true e).bind fun e' => ?_
      exact (Expr.resolveOutputs_placed φ scopes es).bind fun es' => .ok rfl

theorem Expr.resolveFilter_placed (φ : Placing) (scopes : List Scope) : ∀ e : Option Expr,
    PlacedBy φ (Expr.placedOption φ) (Expr.resolveFilter c scopes e)
      (Expr.resolveFilter c scopes (Expr.placedOption φ e))
  | none => by
    simp only [Expr.placedOption, Expr.resolveFilter]
    exact .ok rfl
  | some e => by
    simp only [Expr.placedOption, Expr.resolveFilter]
    refine (Expr.resolve_placed φ scopes false e).bind fun e' => ?_
    exact (Expr.requireBoolean_placed φ .whereWord e').bind fun _ => .ok rfl

theorem Source.resolve_placed (φ : Placing) (scopes : List Scope) : ∀ s : Source,
    PlacedBy φ (Source.placed φ) (s.resolve c scopes) ((s.placed φ).resolve c scopes)
  | .table name aliasName _ offset => by
    simp only [Source.placed, Source.resolve]
    split
    · exact .ok rfl
    · exact .error (.unresolved _ _)
  | .select s aliasName offset => by
    simp only [Source.placed, Source.resolve]
    exact (Select.resolve_placed φ scopes s).bind fun s' => .ok rfl

theorem Source.resolveOption_placed (φ : Placing) (scopes : List Scope) : ∀ s : Option Source,
    PlacedBy φ (Source.placedOption φ) (Source.resolveOption c scopes s)
      (Source.resolveOption c scopes (Source.placedOption φ s))
  | none => by
    simp only [Source.placedOption, Source.resolveOption]
    exact .ok rfl
  | some s => by
    simp only [Source.placedOption, Source.resolveOption]
    exact (Source.resolve_placed φ scopes s).bind fun s' => .ok rfl

/-- The conditions of the joins are still as they were. -/
theorem Join.resolveSources_placed (φ : Placing) (scopes : List Scope) : ∀ js : List Join,
    PlacedBy φ (Join.placedAll φ) (Join.resolveSources c scopes js)
      (Join.resolveSources c scopes (Join.placedAll φ js))
  | [] => by
    simp only [Join.placedAll, Join.resolveSources]
    exact .ok rfl
  | ⟨source, kind, condition⟩ :: js => by
    simp only [Join.placedAll, Join.resolveSources]
    refine (Source.resolve_placed φ scopes source).bind fun source' => ?_
    exact (Join.resolveSources_placed φ scopes js).bind fun js' => .ok rfl

theorem Join.resolveConditions_placed (φ : Placing) (scope : Scope) (outer : List Scope) :
    ∀ (visible : Nat) (js : List Join),
    PlacedBy φ (Expr.placedAll φ) (Join.resolveConditions c scope outer visible js)
      (Join.resolveConditions c scope outer visible (Join.placedAll φ js))
  | _, [] => by
    simp only [Join.placedAll, Join.resolveConditions]
    exact .ok rfl
  | _, ⟨_, _, none⟩ :: _ => by
    simp only [Join.placedAll, Expr.placedOption, Join.resolveConditions]
    exact .error _
  | visible, ⟨_, _, some condition⟩ :: js => by
    simp only [Join.placedAll, Expr.placedOption, Join.resolveConditions]
    refine (Expr.resolve_placed φ (scope.take visible :: outer) false condition).bind fun e => ?_
    refine (Expr.requireCondition_placed φ e).bind fun _ => ?_
    exact (Join.resolveConditions_placed φ scope outer (visible + 1) js).bind fun es => .ok rfl

theorem OrderKey.resolveAll_placed (φ : Placing) (scopes : List Scope) (output : List Expr) :
    ∀ ks : List OrderKey,
    PlacedBy φ (OrderKey.placedAll φ) (OrderKey.resolveAll c scopes output ks)
      (OrderKey.resolveAll c scopes (output.map (Expr.placed φ)) (OrderKey.placedAll φ ks))
  | [] => by
    simp only [OrderKey.placedAll, OrderKey.resolveAll]
    exact .ok rfl
  | ⟨e, ascending⟩ :: ks => by
    simp only [OrderKey.placedAll, OrderKey.resolveAll, OrderKey.namedOutput?_placed]
    cases OrderKey.namedOutput? output e with
    | some named => exact (OrderKey.resolveAll_placed φ scopes output ks).bind fun ks' => .ok rfl
    | none =>
      refine (Expr.resolve_placed φ scopes true e).bind fun e' => ?_
      exact (OrderKey.resolveAll_placed φ scopes output ks).bind fun ks' => .ok rfl

theorem Select.resolve_placed (φ : Placing) (outer : List Scope) : ∀ s : Select,
    PlacedBy φ (Select.placed φ) (s.resolve c outer) ((s.placed φ).resolve c outer)
  | ⟨text, distinct, output, origin, joins, filter, groupBy, orderBy, limit, offset⟩ => by
    simp only [Select.placed, Select.resolve]
    refine (Source.resolveOption_placed φ outer origin).bind fun origin' => ?_
    refine (Join.resolveSources_placed φ outer joins).bind fun joined => ?_
    let named : Select :=
      ⟨text, distinct, output, origin', joined, filter, groupBy, orderBy, limit, offset⟩
    have hfault : (named.placed φ).joinFault? = named.joinFault? := Select.joinFault?_placed φ named
    have hscope : (named.placed φ).sources.map (Source.scopeSource c) =
        named.sources.map (Source.scopeSource c) := by
      simp only [Select.sources_placed, List.map_map, Function.comp_def, Source.scopeSource_placed]
    simp only [named, Select.placed] at hfault hscope
    simp only [hfault, hscope]
    generalize List.map (Source.scopeSource c) _ = scope
    split
    · exact .error (.invalidJoin _)
    refine (Join.resolveConditions_placed φ scope outer 2 joins).bind fun conditions => ?_
    refine (Expr.resolveOutputs_placed φ (scope :: outer) output).bind fun listed => ?_
    refine (Expr.resolveFilter_placed φ (scope :: outer) filter).bind fun filter' => ?_
    refine (Expr.resolveAll_placed φ (scope :: outer) false groupBy).bind fun groupBy' => ?_
    simp only [Expr.placedAll_eq_map φ listed]
    refine (OrderKey.resolveAll_placed φ (scope :: outer) listed orderBy).bind fun orderBy' => ?_
    rw [Join.zipWith_placed]
    generalize joined.zipWith _ conditions = joins'
    let resolved : Select :=
      ⟨text, distinct, listed, origin', joins', filter', groupBy', orderBy', limit, offset⟩
    have hgroup : (resolved.placed φ).groupFault? = resolved.groupFault? :=
      Select.groupFault?_placed φ resolved
    simp only [resolved, Select.placed, Expr.placedAll_eq_map φ listed] at hgroup
    rw [hgroup]
    split
    · exact .error (.aggregateMisuse _)
    refine (Scope.expandAll_placed φ scope listed).bind fun columns => .ok ?_
    rw [← Expr.placedAll_eq_map]
    rfl

end

/-! ### Further on -/

theorem Expr.resolveFilter_moved (d : Nat) (scopes : List Scope) (e : Option Expr) :
    Apart d (fun e e' => e' = Expr.movedOption d e) (Expr.resolveFilter c scopes e)
      (Expr.resolveFilter c scopes (Expr.movedOption d e)) := by
  have h := (Expr.resolveFilter_placed (c := c) (.shift d) scopes e).apart
  rwa [Expr.placedOption_shift, funext (Expr.placedOption_shift d)] at h

theorem Table.expectColumn_placed (φ : Placing) (t : Table) (column : String) (offset : Nat) :
    PlacedBy φ id (t.expectColumn column offset) (t.expectColumn column (φ offset)) := by
  simp only [Table.expectColumn]
  split
  · exact .ok rfl
  · exact .error (.unresolved _ _)

theorem Expr.requireType_placed (φ : Placing) (type : DataType) (e : Expr) :
    PlacedBy φ id (e.requireType type) ((e.placed φ).requireType type) := by
  simp only [Expr.requireType, Expr.placed_type]
  split
  · exact .ok rfl
  · exact .error (.typeMismatch _ _ _)

theorem Assignment.resolve_placed (φ : Placing) (t : Table) (a : Assignment) :
    PlacedBy φ (Assignment.placed φ) (a.resolve c t) ((a.placed φ).resolve c t) := by
  refine (Table.expectColumn_placed φ t a.column a.offset).bind fun position => ?_
  refine (Expr.resolve_placed φ [t.scope] false a.value).bind fun value => ?_
  exact (Expr.requireType_placed φ (t.typeAt position) value).bind fun _ => .ok rfl

theorem Assignment.resolve_moved (d : Nat) (t : Table) (a : Assignment) :
    Apart d (fun a a' => a' = a.moved d) (a.resolve c t) ((a.moved d).resolve c t) := by
  have hshift (a : Assignment) : a.placed (.shift d) = a.moved d := by
    rw [Assignment.placed, Expr.placed_shift]
    rfl
  have h := (Assignment.resolve_placed (c := c) (.shift d) t a).apart
  rwa [hshift, funext hshift] at h

end SqlEngine

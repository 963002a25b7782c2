import SqlEngine.Proofs.Statement.Everywhere
import SqlEngine.Proofs.Statement.Grammar

/-!
# Statements — nesting

How deep a statement nests, and what the options of the parser have to do with it.  Each
parenthesized group, call and sub-select counts one on the path to its parts; what stands side by
side does not add up.

* `Derives.nesting_le`, `Derives.of_fits`: a phrase is there under some options iff it is there
  under all others that allow what is in it.
* `Statement.parse_eq_ok_iff_nesting`: the options take away what nests too deep, and sub-selects as
  values where they are not allowed, and nothing else.
-/

namespace SqlEngine

/-! ### How deep a statement nests -/

mutual

/-- The groups, calls and sub-selects around the deepest place of an expression. -/
def Expr.nesting : Expr → Nat
  | ⟨nodes, _, _, _, _, _, _⟩ => Node.nestingFrom 0 nodes

/-- The deepest level among nodes of which the first one stands at a level: parentheses open and
close levels. -/
def Node.nestingFrom : Nat → List Node → Nat
  | level, []                => level
  | level, .openParen :: ns  => Node.nestingFrom (level + 1) ns
  | level, .closeParen :: ns => max level (Node.nestingFrom (level - 1) ns)
  | level, .call f :: ns     => max (level + f.nesting) (Node.nestingFrom level ns)
  | level, .select s :: ns   => max (level + (s.nesting + 1)) (Node.nestingFrom level ns)
  | level, _ :: ns           => Node.nestingFrom level ns

def Call.nesting : Call → Nat
  | ⟨_, arguments, _, _, _, _⟩ => Expr.nestingAll arguments + 1

def Expr.nestingAll : List Expr → Nat
  | []      => 0
  | e :: es => max e.nesting (Expr.nestingAll es)

def Expr.nestingOption : Option Expr → Nat
  | none   => 0
  | some e => e.nesting

def Source.nesting : Source → Nat
  | .table ..     => 0
  | .select s _ _ => s.nesting + 1

def Source.nestingOption : Option Source → Nat
  | none   => 0
  | some s => s.nesting

def Join.nestingAll : List Join → Nat
  | []                              => 0
  | ⟨source, _, condition⟩ :: joins =>
    max source.nesting (max (Expr.nestingOption condition) (Join.nestingAll joins))

def OrderKey.nestingAll : List OrderKey → Nat
  | []             => 0
  | ⟨e, _⟩ :: keys => max e.nesting (OrderKey.nestingAll keys)

/-- The groups, calls and sub-selects around the deepest place of a SELECT. -/
def Select.nesting : Select → Nat
  | ⟨_, _, output, origin, joins, filter, groupBy, orderBy, _, _⟩ =>
    max (Expr.nestingAll output) (max (Source.nestingOption origin) (max (Join.nestingAll joins)
      (max (Expr.nestingOption filter) (max (Expr.nestingAll groupBy)
        (OrderKey.nestingAll orderBy)))))

end

/-- The groups, calls and sub-selects around the deepest place of a statement. -/
def Statement.nesting : Statement → Nat
  | .select s => s.nesting
  | .insert s => (s.rows.map Expr.nestingAll).foldr max 0
  | .update s =>
    max ((s.assignments.map fun a => a.value.nesting).foldr max 0) (Expr.nestingOption s.filter)
  | .delete s => Expr.nestingOption s.filter
  | .create _ => 0

namespace Local

/-- One property of the nodes of all expressions, and one of all SELECTs. -/
def ofParts (P : Node → Prop) (S : Select → Prop) : Local where
  expr e := ∀ n ∈ e.nodes, P n
  call _ := True
  select := S

/-- No sub-select is a value. -/
def flat : Local :=
  ofParts (fun n => ∀ s, n ≠ .select s) fun _ => True

end Local

theorem Expr.nesting_eq (e : Expr) : e.nesting = Node.nestingFrom 0 e.nodes := by
  obtain ⟨nodes, _, _, _, _, _, _⟩ := e
  rfl

theorem Expr.nesting_named (e : Expr) (aliasName : Option String) :
    nesting { e with aliasName } = e.nesting := by
  rw [nesting_eq, nesting_eq]

theorem Expr.nestingAll_eq (es : List Expr) :
    nestingAll es = (es.map nesting).foldr max 0 := by
  induction es with
  | nil => rfl
  | cons e es ih => rw [nestingAll, ih, List.map_cons, List.foldr_cons]

theorem OrderKey.nestingAll_eq (keys : List OrderKey) :
    nestingAll keys = (keys.map fun k => k.expr.nesting).foldr max 0 := by
  induction keys with
  | nil => rfl
  | cons k keys ih =>
    obtain ⟨e, ascending⟩ := k
    rw [nestingAll, ih, List.map_cons, List.foldr_cons]

/-! ### Nodes -/

namespace Node

variable {ns ms : List Node}

theorem le_nestingFrom (level : Nat) (ns : List Node) : level ≤ nestingFrom level ns := by
  induction ns generalizing level with
  | nil => exact Nat.le_refl _
  | cons n ns ih =>
    have hnext := ih level
    cases n with
    | openParen => exact Nat.le_of_succ_le (ih (level + 1))
    | closeParen => exact Nat.le_max_left _ _
    | call | select => exact Nat.le_trans hnext (Nat.le_max_right _ _)
    | _ => exact hnext

/-- The nodes close what they open, and no more. -/
def Balanced (ns : List Node) : Prop :=
  ∀ level more, nestingFrom level (ns ++ more) =
    max (level + nestingFrom 0 ns) (nestingFrom level more)

namespace Balanced

theorem append (h : Balanced ns) (h' : Balanced ms) : Balanced (ns ++ ms) := by
  intro level more
  rw [List.append_assoc, h, h', h 0 ms]
  omega

theorem operator {op : Operator} (h : Balanced ns) : Balanced (.operator op :: ns) := h

/-- A value stands for itself. -/
theorem single {n : Node} (h : n.isValue = true) : Balanced [n] := by
  intro level more
  have hle := le_nestingFrom level more
  cases n with
  | operator | openParen | closeParen => cases h
  | call f | select s => simp [nestingFrom]
  | _ => simpa [nestingFrom] using hle

theorem nil : Balanced [] := by
  intro level more
  simpa [nestingFrom] using le_nestingFrom level more

theorem nesting_append (h : Balanced ns) :
    nestingFrom 0 (ns ++ ms) = max (nestingFrom 0 ns) (nestingFrom 0 ms) := by
  rw [h 0 ms, Nat.zero_add]

/-- What stands side by side does not add up. -/
example : nestingFrom 0 [.openParen, .openParen, .null, .closeParen, .closeParen, .operator .plus,
    .openParen, .null, .closeParen] = 2 := by
  decide

theorem group (h : Balanced ns) : Balanced (.openParen :: ns ++ [.closeParen]) := by
  intro level more
  have hle := le_nestingFrom level more
  have hclose (l : Nat) (rest : List Node) :
      nestingFrom (l + 1) (.closeParen :: rest) = max (l + 1) (nestingFrom l rest) := rfl
  simp only [List.cons_append, List.append_assoc, List.nil_append, nestingFrom]
  rw [h, h (0 + 1), hclose, hclose, nestingFrom]
  omega

theorem nesting_group (h : Balanced ns) :
    nestingFrom 0 (.openParen :: ns ++ [.closeParen]) = nestingFrom 0 ns + 1 := by
  rw [List.cons_append, nestingFrom, h]
  simp [nestingFrom]
  omega

end Balanced

/-- The node has no parts that nest. -/
def isLeaf : Node → Bool
  | number _ | text _ | boolean _ | null | column _ => true
  | _                                               => false

theorem isLeaf_of_value? {t : Token} {n : Node} (h : t.value? = some n) : n.isLeaf = true := by
  cases t with
  | number literal =>
    obtain ⟨x, -, rfl⟩ := Option.map_eq_some_iff.1 h
    rfl
  | string =>
    cases h
    rfl
  | keyword word => cases word <;> cases h <;> rfl
  | _ => cases h

section Leaf

variable {n : Node} (hn : n.isLeaf = true)
include hn

theorem balanced_leaf : Balanced [n] := by
  refine .single ?_
  cases n <;> first | rfl | cases hn

theorem nesting_leaf : nestingFrom 0 [n] = 0 := by
  cases n <;> first | rfl | cases hn

theorem everywhere_leaf {L : Local} : n.Everywhere L := by
  cases n <;> trivial

theorem ne_select_of_leaf (s : Select) : n ≠ .select s := by
  rintro rfl
  cases hn

end Leaf

/-- The properties hold of all parts of the nodes. -/
def AllHave (P : Node → Prop) (S : Select → Prop) (ns : List Node) : Prop :=
  ∀ n ∈ ns, P n ∧ n.Everywhere (.ofParts P S)

theorem nesting_callOf (r : ColumnRef) (args : List Expr) :
    nestingFrom 0 [Read.callOf r args] = Expr.nestingAll args + 1 := by
  simp [Read.callOf, nestingFrom, Call.nesting]

theorem nesting_select (s : Select) : nestingFrom 0 [.select s] = s.nesting + 1 := by
  simp [nestingFrom]

end Node

/-! ### Phrases -/

namespace Phrase

/-- The groups, calls and sub-selects around the deepest place of a phrase. -/
def nesting : (k : Phrase) → k.Value → Nat
  | operands _, ns | following _, ns | operand _, ns | atom _, ns => Node.nestingFrom 0 ns
  | arguments, es                                                 => Expr.nestingAll es + 1
  | row, es                                                       => Expr.nestingAll es
  | expression _, e | bare, e | output, e                         => e.nesting
  | source, s                                                     => s.nesting
  | joins, js                                                     => Join.nestingAll js
  | origin, p                                     => max p.1.nesting (Join.nestingAll p.2)
  | orderKey, key                                                 => key.expr.nesting
  | select, s                                                     => s.nesting
  | assignment, a                                                 => a.value.nesting
  | rowCount, _ | name, _ | column, _ | columns, _                => 0
  | items item, as                                => (as.map item.nesting).foldr max 0
  | optional _ _, none                                            => 0
  | optional _ phrase, some a                                     => phrase.nesting a
  | after _ phrase, a                                             => phrase.nesting a

/-- The nodes of a phrase that is a part of an expression. -/
def nodes : (k : Phrase) → k.Value → List Node
  | operands _, ns | following _, ns | operand _, ns | atom _, ns => ns
  | _, _                                                          => []

/-- The properties hold of all parts of a phrase. -/
def Everywhere (P : Node → Prop) (S : Select → Prop) : (k : Phrase) → k.Value → Prop
  | operands _, ns | following _, ns | operand _, ns | atom _, ns => Node.AllHave P S ns
  | arguments, es | row, es                  => Expr.EverywhereAll (.ofParts P S) es
  | expression _, e | bare, e | output, e    => e.Everywhere (.ofParts P S)
  | source, s                                => s.Everywhere (.ofParts P S)
  | joins, js                                => Join.EverywhereAll (.ofParts P S) js
  | origin, p =>
    p.1.Everywhere (.ofParts P S) ∧ Join.EverywhereAll (.ofParts P S) p.2
  | orderKey, key                            => key.expr.Everywhere (.ofParts P S)
  | select, s                                => s.Everywhere (.ofParts P S)
  | assignment, a                            => a.value.Everywhere (.ofParts P S)
  | rowCount, _ | name, _ | column, _ | columns, _ => True
  | items item, (as : List item.Value)       => ∀ a ∈ as, item.Everywhere P S a
  | optional _ _, none                       => True
  | optional _ phrase, some a                => phrase.Everywhere P S a
  | after _ phrase, a                        => phrase.Everywhere P S a

section Everywhere

variable {P : Node → Prop} {S : Select → Prop}

theorem expr_everywhere {e : Expr} : e.Everywhere (.ofParts P S) ↔ Node.AllHave P S e.nodes := by
  have hall (ns : List Node) : Node.EverywhereAll (.ofParts P S) ns ↔
      ∀ n ∈ ns, n.Everywhere (.ofParts P S) := by
    induction ns with
    | nil => exact ⟨fun _ => List.forall_mem_nil _, fun _ => trivial⟩
    | cons n ns ih => rw [Node.EverywhereAll, ih, List.forall_mem_cons]
  obtain ⟨nodes, _, _, _, _, _, _⟩ := e
  rw [Expr.Everywhere, hall]
  exact forall₂_and.symm

theorem named_everywhere {e : Expr} {aliasName : Option String} :
    Expr.Everywhere (.ofParts P S) { e with aliasName } ↔ e.Everywhere (.ofParts P S) :=
  expr_everywhere.trans (expr_everywhere (e := e)).symm

theorem optional_everywhere {word : Keyword} {e : Option Expr} :
    (optional word .plain).Everywhere P S e ↔ Expr.EverywhereOption (.ofParts P S) e := by
  cases e <;> exact Iff.rfl

end Everywhere

section Select

variable {m : Nat} {text : String} {distinct : Bool} {output : List Expr}
  {origin : Option (Source × List Join)} {filter : Option Expr} {groupBy : Option (List Expr)}
  {orderBy : Option (List OrderKey)} {limit : Option Nat} {offset : Nat}

theorem nesting_optional (word : Keyword) (e : Option Expr) :
    (optional word .plain).nesting e = Expr.nestingOption e := by
  cases e <;> rfl

/-- A SELECT nests as deep as its clauses. -/
theorem nesting_select_le : Select.nesting ⟨text, distinct, output, origin.map Prod.fst,
      (origin.map Prod.snd).getD [], filter, groupBy.getD [], orderBy.getD [], limit, offset⟩ ≤ m ↔
    (items .output).nesting output ≤ m ∧ (optional .fromWord .origin).nesting origin ≤ m ∧
      (optional .whereWord .plain).nesting filter ≤ m ∧
      (optional .group (.after .byWord (.items .plain))).nesting groupBy ≤ m ∧
      (optional .order (.after .byWord (.items .orderKey))).nesting orderBy ≤ m := by
  have houtput : (items .output).nesting output = Expr.nestingAll output :=
    (Expr.nestingAll_eq output).symm
  have horigin : (optional .fromWord .origin).nesting origin = max
      (Source.nestingOption (origin.map Prod.fst))
      (Join.nestingAll ((origin.map Prod.snd).getD [])) := by
    cases origin <;> rfl
  have hgroup : (optional .group (.after .byWord (.items .plain))).nesting groupBy =
      Expr.nestingAll (groupBy.getD []) := by
    cases groupBy with
    | none => rfl
    | some es => exact (Expr.nestingAll_eq es).symm
  have horder : (optional .order (.after .byWord (.items .orderKey))).nesting orderBy =
      OrderKey.nestingAll (orderBy.getD []) := by
    cases orderBy with
    | none => rfl
    | some keys => exact (OrderKey.nestingAll_eq keys).symm
  rw [houtput, horigin, nesting_optional, hgroup, horder, Select.nesting]
  simp only [Nat.max_le, and_assoc]

/-- What holds in a SELECT holds in its clauses. -/
theorem everywhere_select {P : Node → Prop} {S : Select → Prop} :
    Select.Everywhere (.ofParts P S) ⟨text, distinct, output,
      origin.map Prod.fst, (origin.map Prod.snd).getD [], filter, groupBy.getD [],
      orderBy.getD [], limit, offset⟩ ↔
    S ⟨text, distinct, output, origin.map Prod.fst, (origin.map Prod.snd).getD [], filter,
      groupBy.getD [], orderBy.getD [], limit, offset⟩ ∧
      (items .output).Everywhere P S output ∧ (optional .fromWord .origin).Everywhere P S origin ∧
      (optional .whereWord .plain).Everywhere P S filter ∧
      (optional .group (.after .byWord (.items .plain))).Everywhere P S groupBy ∧
      (optional .order (.after .byWord (.items .orderKey))).Everywhere P S orderBy := by
  have horigin : (optional .fromWord .origin).Everywhere P S origin ↔
      Source.EverywhereOption (.ofParts P S) (origin.map Prod.fst) ∧
        Join.EverywhereAll (.ofParts P S) ((origin.map Prod.snd).getD []) := by
    cases origin with
    | none => exact ⟨fun _ => ⟨trivial, trivial⟩, fun _ => trivial⟩
    | some => exact Iff.rfl
  have hfilter : (optional .whereWord .plain).Everywhere P S filter ↔
      Expr.EverywhereOption (.ofParts P S) filter := by
    cases filter <;> exact Iff.rfl
  have hgroup : (optional .group (.after .byWord (.items .plain))).Everywhere P S groupBy ↔
      Expr.EverywhereAll (.ofParts P S) (groupBy.getD []) := by
    cases groupBy with
    | none => exact Iff.rfl
    | some es => exact Expr.everywhereAll_iff.symm
  have horder : (optional .order (.after .byWord (.items .orderKey))).Everywhere P S orderBy ↔
      OrderKey.EverywhereAll (.ofParts P S) (orderBy.getD []) := by
    cases orderBy with
    | none => exact Iff.rfl
    | some keys => exact OrderKey.everywhereAll_iff.symm
  have houtput : (items .output).Everywhere P S output ↔ Expr.EverywhereAll (.ofParts P S) output :=
    Expr.everywhereAll_iff.symm
  rw [houtput, horigin, hfilter, hgroup, horder, Select.Everywhere, and_assoc]
  exact Iff.rfl

end Select

/-- The options allow what is in a phrase at a depth. -/
structure Fits (o : ParserOptions) (depth : Nat) (k : Phrase) (a : k.Value) : Prop where
  nesting : k.nesting a ≤ o.maxDepth - depth
  flat : o.subSelectValues = false → k.Everywhere (fun n => ∀ s, n ≠ .select s) (fun _ => True) a

namespace Fits

variable {o : ParserOptions} {depth : Nat}

theorem append {nested : Bool} {ns ms : List Node} (hns : Node.Balanced ns)
    (h : (operands nested).Fits o depth (ns ++ ms)) :
    (operand nested).Fits o depth ns ∧ (following nested).Fits o depth ms := by
  obtain ⟨hn, hm⟩ := Nat.max_le.1 (hns.nesting_append.symm.trans_le h.nesting)
  exact ⟨⟨hn, fun hv => (List.forall_mem_append.1 (h.flat hv)).1⟩,
    ⟨hm, fun hv => (List.forall_mem_append.1 (h.flat hv)).2⟩⟩

theorem operator {nested : Bool} {op : Operator} {ns : List Node}
    (h : (following nested).Fits o depth (.operator op :: ns)) :
    (operands nested).Fits o depth ns :=
  ⟨h.nesting, fun hv => (List.forall_mem_cons.1 (h.flat hv)).2⟩

theorem leaf {nested : Bool} {n : Node} (hn : n.isLeaf = true) :
    (atom nested).Fits o depth [n] where
  nesting := (Node.nesting_leaf hn).trans_le (Nat.zero_le _)
  flat _ := List.forall_mem_singleton.2 ⟨Node.ne_select_of_leaf hn, Node.everywhere_leaf hn⟩

theorem call {nested : Bool} {r : ColumnRef} {args : List Expr}
    (h : (operand nested).Fits o depth [Read.callOf r args]) : Phrase.arguments.Fits o depth args
    where
  nesting := (Node.nesting_callOf r args).symm.trans_le h.nesting
  flat hv := (List.forall_mem_singleton.1 (h.flat hv)).2.2

theorem enter {n : Nat} (h : n + 1 ≤ o.maxDepth - depth) :
    depth < o.maxDepth ∧ n ≤ o.maxDepth - (depth + 1) := by
  omega

theorem group {nested : Bool} {ns : List Node} (hns : Node.Balanced ns)
    (h : (atom nested).Fits o depth (.openParen :: ns ++ [.closeParen])) :
    depth < o.maxDepth ∧ (operands true).Fits o (depth + 1) ns := by
  obtain ⟨hdepth, hn⟩ := enter (hns.nesting_group.symm.trans_le h.nesting)
  exact ⟨hdepth, hn, fun hv =>
    (List.forall_mem_cons.1 (List.forall_mem_append.1 (h.flat hv)).1).2⟩

theorem valueSelect {nested : Bool} {s : Select} (h : (atom nested).Fits o depth [.select s]) :
    o.subSelectValues = true ∧ depth < o.maxDepth ∧ Phrase.select.Fits o (depth + 1) s := by
  obtain ⟨hdepth, hn⟩ := enter ((Node.nesting_select s).symm.trans_le h.nesting)
  have hvalues : o.subSelectValues = true := by
    by_contra hv
    exact (List.forall_mem_singleton.1 (h.flat (by simpa using hv))).1 s rfl
  exact ⟨hvalues, hdepth, hn, fun hv => by cases hvalues.symm.trans hv⟩

theorem arguments {args : List Expr} (h : Phrase.arguments.Fits o depth args) :
    depth < o.maxDepth ∧ (items .plain).Fits o (depth + 1) args := by
  obtain ⟨hdepth, hn⟩ := enter h.nesting
  exact ⟨hdepth, (Expr.nestingAll_eq args).symm.trans_le hn,
    fun hv => Expr.everywhereAll_iff.1 (h.flat hv)⟩

theorem expression {wildcard : Bool} {e : Expr} (h : (expression wildcard).Fits o depth e) :
    (operands false).Fits o depth e.nodes :=
  ⟨(Expr.nesting_eq e).symm.trans_le h.nesting, fun hv => expr_everywhere.1 (h.flat hv)⟩

theorem named {e : Expr} {aliasName : Option String}
    (h : Phrase.output.Fits o depth { e with aliasName }) : bare.Fits o depth e :=
  ⟨(Expr.nesting_named e aliasName).symm.trans_le h.nesting,
    fun hv => named_everywhere.1 (h.flat hv)⟩

theorem subSelect {s : Select} {aliasName : Option String} {offset : Nat}
    (h : Phrase.source.Fits o depth (.select s aliasName offset)) :
    depth < o.maxDepth ∧ Phrase.select.Fits o (depth + 1) s := by
  obtain ⟨hdepth, hn⟩ := enter h.nesting
  exact ⟨hdepth, hn, h.flat⟩

theorem join {s : Source} {kind : JoinKind} {condition : Option Expr} {more : List Join}
    (h : Phrase.joins.Fits o depth (⟨s, kind, condition⟩ :: more)) :
    Phrase.source.Fits o depth s ∧ (optional .onWord .plain).Fits o depth condition ∧
      Phrase.joins.Fits o depth more := by
  obtain ⟨hs, hn⟩ := Nat.max_le.1 h.nesting
  obtain ⟨hcondition, hmore⟩ := Nat.max_le.1 hn
  exact ⟨⟨hs, fun hv => (h.flat hv).1⟩,
    ⟨(nesting_optional _ condition).trans_le hcondition,
      fun hv => optional_everywhere.2 (h.flat hv).2.1⟩,
    ⟨hmore, fun hv => (h.flat hv).2.2⟩⟩

theorem origin {s : Source} {joins : List Join} (h : Phrase.origin.Fits o depth (s, joins)) :
    Phrase.source.Fits o depth s ∧ Phrase.joins.Fits o depth joins := by
  obtain ⟨hs, hjoins⟩ := Nat.max_le.1 h.nesting
  exact ⟨⟨hs, fun hv => (h.flat hv).1⟩, ⟨hjoins, fun hv => (h.flat hv).2⟩⟩

theorem cons {item : Phrase} {a : item.Value} {as : List item.Value}
    (h : (items item).Fits o depth (a :: as)) :
    item.Fits o depth a ∧ (items item).Fits o depth as := by
  obtain ⟨ha, has⟩ := Nat.max_le.1 h.nesting
  exact ⟨⟨ha, fun hv => (List.forall_mem_cons.1 (h.flat hv)).1⟩,
    ⟨has, fun hv => (List.forall_mem_cons.1 (h.flat hv)).2⟩⟩

theorem row {es : List Expr} (h : Phrase.row.Fits o depth es) : (items .plain).Fits o depth es :=
  ⟨(Expr.nestingAll_eq es).symm.trans_le h.nesting,
    fun hv => Expr.everywhereAll_iff.1 (h.flat hv)⟩

theorem of_forall {k : Phrase} (h : ∀ a, k.Fits o depth a) (as : List k.Value) :
    (items k).Fits o depth as := by
  refine ⟨?_, fun hv a _ => (h a).flat hv⟩
  induction as with
  | nil => exact Nat.zero_le _
  | cons a as ih => exact Nat.max_le.2 ⟨(h a).nesting, ih⟩

theorem name (name : String) : Phrase.name.Fits o depth name :=
  ⟨Nat.zero_le _, fun _ => trivial⟩

theorem column (c : ColumnClause) : Phrase.column.Fits o depth c :=
  ⟨Nat.zero_le _, fun _ => trivial⟩

theorem columns (names : List String) : Phrase.columns.Fits o depth names :=
  ⟨Nat.zero_le _, fun _ => trivial⟩

theorem select {text : String} {distinct : Bool} {output : List Expr}
    {origin : Option (Source × List Join)} {filter : Option Expr} {groupBy : Option (List Expr)}
    {orderBy : Option (List OrderKey)} {limit : Option Nat} {offset : Nat}
    (h : Phrase.select.Fits o depth ⟨text, distinct, output, origin.map Prod.fst,
      (origin.map Prod.snd).getD [], filter, groupBy.getD [], orderBy.getD [], limit, offset⟩) :
    (items .output).Fits o depth output ∧ (optional .fromWord .origin).Fits o depth origin ∧
      (optional .whereWord .plain).Fits o depth filter ∧
      (optional .group (.after .byWord (.items .plain))).Fits o depth groupBy ∧
      (optional .order (.after .byWord (.items .orderKey))).Fits o depth orderBy := by
  obtain ⟨hn, hn₁, hn₂, hn₃, hn₄⟩ := nesting_select_le.1 h.nesting
  have hflat hv := (everywhere_select.1 (h.flat hv)).2
  exact ⟨⟨hn, fun hv => (hflat hv).1⟩, ⟨hn₁, fun hv => (hflat hv).2.1⟩,
    ⟨hn₂, fun hv => (hflat hv).2.2.1⟩, ⟨hn₃, fun hv => (hflat hv).2.2.2.1⟩,
    ⟨hn₄, fun hv => (hflat hv).2.2.2.2⟩⟩

theorem rowCount (n : Option Nat) : (optional .limit .rowCount).Fits o depth n := by
  cases n <;> exact ⟨Nat.zero_le _, fun _ => trivial⟩

end Fits

end Phrase

theorem Read.eq_of_functionName? {ns : List Node} {r : ColumnRef}
    (h : functionName? ns = some r) : ns = [.column r] := by
  unfold functionName? at h
  split at h
  next r' =>
    split at h <;> cases h
    rfl
  next => cases h

open Phrase

namespace Derives

variable {o o' : ParserOptions} {k : Phrase} {depth depth' : Nat} {ts rest root : Tokens}
  {a : k.Value}

/-- What is read as a part of an expression closes the parentheses that it opens. -/
theorem balanced (h : Derives o k depth ts a rest) : Node.Balanced (k.nodes a) := by
  induction h with
  | operands _ _ ih ih' => exact Node.Balanced.append ih ih'
  | operator _ _ ih => exact Node.Balanced.operator ih
  | operand _ _ ih => exact ih
  | value hvalue => exact Node.balanced_leaf (Node.isLeaf_of_value? hvalue)
  | call | reference | word | negative | valueSelect => exact .single rfl
  | group _ _ _ _ ih => exact Node.Balanced.group ih
  | _ => exact .nil

theorem succ_le {n : Nat} (hdepth : depth < o.maxDepth) (h : n ≤ o.maxDepth - (depth + 1)) :
    n + 1 ≤ o.maxDepth - depth := by
  omega

/-- A phrase nests no deeper than the options allow at its depth. -/
theorem nesting_le (h : Derives o k depth ts a rest) : k.nesting a ≤ o.maxDepth - depth := by
  induction h with
  | operands hfirst _ ih ih' =>
    exact (Node.Balanced.nesting_append hfirst.balanced).trans_le (Nat.max_le.2 ⟨ih, ih'⟩)
  | operator _ _ ih | operand _ _ ih | expression _ _ ih | bare _ _ ih | output _ _ ih
  | present _ _ ih | after _ _ ih => exact ih
  | assignment _ _ _ ih => exact ih
  | named _ _ _ _ ih =>
    exact (Expr.nesting_named _ _).trans_le ih
  | call _ _ hargs _ _ ih => exact (Node.nesting_callOf _ _).trans_le ih
  | value hvalue =>
    exact (Node.nesting_leaf (Node.isLeaf_of_value? hvalue)).trans_le (Nat.zero_le _)
  | group hdepth _ _ hnodes ih =>
    exact (Node.Balanced.nesting_group hnodes.balanced).trans_le (succ_le hdepth ih)
  | valueSelect _ hdepth _ _ _ _ ih => exact (Node.nesting_select _).trans_le (succ_le hdepth ih)
  | noArguments hdepth | allRows hdepth => exact succ_le hdepth (Nat.zero_le _)
  | arguments hdepth _ _ _ _ _ ih => exact succ_le hdepth ((Expr.nestingAll_eq _).trans_le ih)
  | subSelect hdepth _ _ _ _ _ ih => exact succ_le hdepth ih
  | join _ _ _ _ ih ih' ih'' =>
    exact Nat.max_le.2 ⟨ih, Nat.max_le.2 ⟨(nesting_optional _ _).symm.trans_le ih', ih''⟩⟩
  | origin _ _ ih ih' => exact Nat.max_le.2 ⟨ih, ih'⟩
  | descending _ _ ih | ascending _ _ _ ih => exact ih
  | select _ _ _ _ _ _ _ _ ih ih₁ ih₂ ih₃ ih₄ =>
    exact nesting_select_le.2 ⟨ih, ih₁, ih₂, ih₃, ih₄⟩
  | row _ _ _ ih => exact (Expr.nestingAll_eq _).trans_le ih
  | last _ _ ih => exact Nat.max_le.2 ⟨ih, Nat.zero_le _⟩
  | more _ _ _ ih ih' => exact Nat.max_le.2 ⟨ih, ih'⟩
  | _ => exact Nat.zero_le _

/-- What holds of each part of the tokens by itself holds of all parts of a phrase. -/
theorem everywhere {P : Node → Prop} {S : Select → Prop} (hP : ∀ n, (∀ s, n ≠ .select s) → P n)
    (hvalue : o.subSelectValues = true → ∀ s, P (.select s))
    (hS : ∀ {depth : Nat} {ts rest : Tokens} {s : Select}, root.Tail ts →
      Derives o .select depth ts s rest → S s)
    (h : Derives o k depth ts a rest) (htail : root.Tail ts) : k.Everywhere P S a := by
  have leaf {n : Node} (hn : n.isLeaf = true) : Node.AllHave P S [n] :=
    List.forall_mem_singleton.2 ⟨hP n (Node.ne_select_of_leaf hn), Node.everywhere_leaf hn⟩
  induction h with
  | operands h _ ih ih' =>
    exact List.forall_mem_append.2 ⟨ih htail, ih' (htail.trans h.tail)⟩
  | operator h _ ih =>
    exact List.forall_mem_cons.2 ⟨⟨hP _ nofun, trivial⟩, ih (htail.trans h.tail)⟩
  | operand _ _ ih => exact ih htail
  | call h _ _ _ _ ih =>
    exact List.forall_mem_singleton.2 ⟨hP _ nofun, trivial, ih (htail.trans h.tail)⟩
  | value hvalue => exact leaf (Node.isLeaf_of_value? hvalue)
  | reference | word => exact leaf (n := .column _) rfl
  | negative => exact leaf (n := .number _) rfl
  | group _ h _ _ ih =>
    exact List.forall_mem_append.2 ⟨List.forall_mem_cons.2 ⟨⟨hP _ nofun, trivial⟩,
      ih (htail.trans h.tail)⟩, List.forall_mem_singleton.2 ⟨hP _ nofun, trivial⟩⟩
  | valueSelect hvalues _ h _ _ _ ih =>
    exact List.forall_mem_singleton.2 ⟨hvalue hvalues _, ih (htail.trans h.tail)⟩
  | arguments _ h _ _ _ _ ih => exact Expr.everywhereAll_iff.2 (ih (htail.trans h.tail))
  | expression _ _ ih => exact expr_everywhere.2 (ih htail)
  | star => exact expr_everywhere.2 (leaf (n := .column _) rfl)
  | bare _ _ ih | output _ _ ih => exact ih htail
  | named _ _ _ _ ih => exact named_everywhere.2 (ih htail)
  | subSelect _ h _ _ _ _ ih => exact ih (htail.trans h.tail)
  | join h hs hcondition _ ih ih' ih'' =>
    have hs' := htail.trans (Read.tail_of_joinKind h)
    have hcondition' := hs'.trans hs.tail
    exact ⟨ih hs', optional_everywhere.1 (ih' hcondition'),
      ih'' (hcondition'.trans hcondition.tail)⟩
  | origin h _ ih ih' => exact ⟨ih htail, ih' (htail.trans h.tail)⟩
  | descending _ _ ih | ascending _ _ _ ih => exact ih htail
  | select h hdistinct houtput horigin hfilter hgroup horder hlimit ih ih₁ ih₂ ih₃ ih₄ =>
    have h₂ := htail.trans (h.tail.trans hdistinct.tail)
    have h₃ := h₂.trans houtput.tail
    have h₄ := h₃.trans horigin.tail
    have h₅ := h₄.trans hfilter.tail
    exact everywhere_select.2 ⟨hS htail (.select h hdistinct houtput horigin hfilter
      hgroup horder hlimit), ih h₂, ih₁ h₃, ih₂ h₄, ih₃ h₅, ih₄ (h₅.trans hgroup.tail)⟩
  | row h _ _ ih => exact Expr.everywhereAll_iff.2 (ih (htail.trans h.tail))
  | assignment h hsign _ ih => exact ih (htail.trans ((Read.tail_of_expectName h).trans hsign.tail))
  | last _ _ ih => exact List.forall_mem_singleton.2 (ih htail)
  | more h hcomma _ ih ih' =>
    exact List.forall_mem_cons.2 ⟨ih htail, ih' (htail.trans (h.tail.trans hcomma.tail))⟩
  | present h _ ih | after h _ ih => exact ih (htail.trans h.tail)
  | ends | closes => exact List.forall_mem_nil _
  | _ => trivial

/-- A phrase that is there under some options fits them. -/
theorem fits (h : Derives o k depth ts a rest) : k.Fits o depth a where
  nesting := h.nesting_le
  flat hvalues := h.everywhere (fun _ hn => hn)
    (fun hallowed => by cases hvalues.symm.trans hallowed) (fun _ _ => trivial) (.refl ts)

/-- **A phrase that is there under some options is there under all that it fits.** -/
theorem of_fits (h : Derives o' k depth' ts a rest) {depth : Nat} (hfits : k.Fits o depth a) :
    Derives o k depth ts a rest := by
  induction h generalizing depth with
  | operands hfirst _ ih ih' =>
    obtain ⟨hfirst, hmore⟩ := hfits.append hfirst.balanced
    exact .operands (ih hfirst) (ih' hmore)
  | ends h => exact .ends h
  | closes h => exact .closes h
  | operator h _ ih => exact .operator h (ih hfits.operator)
  | operand _ hrest ih => exact .operand (ih ⟨hfits.nesting, hfits.flat⟩) hrest
  | call h hname _ hrest ih ih' =>
    obtain rfl := Read.eq_of_functionName? hname
    exact .call (ih (.leaf rfl)) hname (ih' hfits.call) hrest
  | value hvalue h => exact .value hvalue h
  | reference hname hplain h => exact .reference hname hplain h
  | word hword hother hopen h => exact .word hword hother hopen h
  | negative h hnumber hvalue hrest => exact .negative h hnumber hvalue hrest
  | group _ h hplain hnodes ih =>
    obtain ⟨hdepth, hfits⟩ := hfits.group hnodes.balanced
    exact .group hdepth h hplain (ih hfits)
  | valueSelect _ _ h hword _ hclose ih =>
    obtain ⟨hvalues, hdepth, hfits⟩ := hfits.valueSelect
    exact .valueSelect hvalues hdepth h hword (ih hfits) hclose
  | noArguments _ h hclose => exact .noArguments hfits.arguments.1 h hclose
  | allRows _ h hstar hclose => exact .allRows hfits.arguments.1 h hstar hclose
  | arguments _ h hsome hplain _ hclose ih =>
    obtain ⟨hdepth, hfits⟩ := hfits.arguments
    exact .arguments hdepth h hsome hplain (ih hfits) hclose
  | expression _ hwildcard ih => exact .expression (ih hfits.expression) hwildcard
  | star h => exact .star h
  | bare hplain _ ih => exact .bare hplain (ih ⟨hfits.nesting, hfits.flat⟩)
  | output _ hrest ih => exact .output (ih ⟨hfits.nesting, hfits.flat⟩) hrest
  | named _ hplain has hname ih => exact .named (ih hfits.named) hplain has hname
  | table h halias => exact .table h halias
  | subSelect _ h hword _ hclose halias ih =>
    obtain ⟨hdepth, hfits⟩ := hfits.subSelect
    exact .subSelect hdepth h hword (ih hfits) hclose halias
  | noJoin h => exact .noJoin h
  | join h _ _ _ ih ih' ih'' =>
    obtain ⟨hs, hcondition, hmore⟩ := hfits.join
    exact .join h (ih hs) (ih' hcondition) (ih'' hmore)
  | origin _ _ ih ih' => exact .origin (ih hfits.origin.1) (ih' hfits.origin.2)
  | descending _ hdesc ih => exact .descending (ih ⟨hfits.nesting, hfits.flat⟩) hdesc
  | ascending _ hdesc hasc ih => exact .ascending (ih ⟨hfits.nesting, hfits.flat⟩) hdesc hasc
  | rowCount h => exact .rowCount h
  | select h hdistinct _ _ _ _ _ _ ih ih₁ ih₂ ih₃ ih₄ ih₅ =>
    obtain ⟨houtput, horigin, hfilter, hgroup, horder⟩ := hfits.select
    exact .select h hdistinct (ih houtput) (ih₁ horigin) (ih₂ hfilter) (ih₃ hgroup) (ih₄ horder)
      (ih₅ (.rowCount _))
  | row h _ hclose ih => exact .row h (ih hfits.row) hclose
  | assignment h hsign _ ih => exact .assignment h hsign (ih ⟨hfits.nesting, hfits.flat⟩)
  | name h => exact .name h
  | column h => exact .column h
  | noColumns h => exact .noColumns h
  | columns h _ hclose ih => exact .columns h (ih (.of_forall (k := .name) .name _)) hclose
  | last _ hrest ih => exact .last (ih hfits.cons.1) hrest
  | more _ hcomma _ ih ih' => exact .more (ih hfits.cons.1) hcomma (ih' hfits.cons.2)
  | absent h => exact .absent h
  | present h _ ih => exact .present h (ih ⟨hfits.nesting, hfits.flat⟩)
  | after h _ ih => exact .after h (ih ⟨hfits.nesting, hfits.flat⟩)

end Derives

/-! ### Statements -/

namespace Forms

variable {o o' : ParserOptions} {ts rest : Tokens} {s : Statement}

theorem nesting_le (h : Forms o ts s rest) : s.nesting ≤ o.maxDepth := by
  cases h with
  | select h => exact h.nesting_le
  | insert _ _ _ _ _ hrows => exact hrows.nesting_le
  | update _ _ _ hassignments hfilter =>
    exact Nat.max_le.2 ⟨hassignments.nesting_le,
      (nesting_optional _ _).symm.trans_le hfilter.nesting_le⟩
  | delete _ _ _ hfilter => exact (nesting_optional _ _).symm.trans_le hfilter.nesting_le
  | create => exact Nat.zero_le _

/-- What holds of each part of the tokens by itself holds of all parts of a statement. -/
theorem everywhere {P : Node → Prop} {S : Select → Prop} (hP : ∀ n, (∀ s, n ≠ .select s) → P n)
    (hvalue : o.subSelectValues = true → ∀ s, P (.select s))
    (hS : ∀ {depth : Nat} {t rest : Tokens} {s : Select}, ts.Tail t →
      Derives o .select depth t s rest → S s)
    (h : Forms o ts s rest) : s.Everywhere (.ofParts P S) := by
  cases h with
  | select h => exact h.everywhere hP hvalue hS (.refl _)
  | insert h hinto htable hcolumns hvalues hrows =>
    exact hrows.everywhere hP hvalue hS (h.tail.trans (hinto.tail.trans
      ((Read.tail_of_expectName htable).trans (hcolumns.tail.trans hvalues.tail))))
  | update h htable hset hassignments hfilter =>
    have htail := h.tail.trans ((Read.tail_of_expectName htable).trans hset.tail)
    exact ⟨hassignments.everywhere hP hvalue hS htail, optional_everywhere.1
      (hfilter.everywhere hP hvalue hS (htail.trans hassignments.tail))⟩
  | delete h hfrom htable hfilter =>
    exact optional_everywhere.1 (hfilter.everywhere hP hvalue hS (h.tail.trans (hfrom.tail.trans
      (Read.tail_of_expectName htable))))
  | create => trivial

/-- A statement that is there under some options is there under all that allow what is in it. -/
theorem of_fits (h : Forms o' ts s rest) (hnesting : s.nesting ≤ o.maxDepth)
    (hflat : o.subSelectValues = false → s.Everywhere .flat) : Forms o ts s rest := by
  cases h with
  | select h => exact .select (h.of_fits ⟨hnesting, hflat⟩)
  | insert h hinto htable hcolumns hvalues hrows =>
    exact .insert h hinto htable (hcolumns.of_fits (.columns _)) hvalues
      (hrows.of_fits ⟨hnesting, hflat⟩)
  | update h htable hset hassignments hfilter =>
    obtain ⟨hn, hn'⟩ := Nat.max_le.1 hnesting
    exact .update h htable hset (hassignments.of_fits ⟨hn, fun hv => (hflat hv).1⟩)
      (hfilter.of_fits ⟨(nesting_optional _ _).trans_le hn',
        fun hv => optional_everywhere.2 (hflat hv).2⟩)
  | delete h hfrom htable hfilter =>
    exact .delete h hfrom htable (hfilter.of_fits ⟨(nesting_optional _ _).trans_le hnesting,
      fun hv => optional_everywhere.2 (hflat hv)⟩)
  | create h hword htable hopen hcolumns hclose =>
    exact .create h hword htable hopen (hcolumns.of_fits (.of_forall (k := .column) .column _))
      hclose

end Forms

namespace Statement

variable {o : ParserOptions} {text : String} {s : Statement}

/-- The text is the statement where the parser allows all sub-selects and any depth. -/
def ParsesUnbounded (text : String) (s : Statement) : Prop :=
  ∃ least, ∀ limit, least ≤ limit → parse ⟨true, limit⟩ text = .ok s

/-- **The options of the parser only restrict.** -/
theorem parse_eq_ok_iff_nesting : parse o text = .ok s ↔ ParsesUnbounded text s ∧
    s.nesting ≤ o.maxDepth ∧ (o.subSelectValues = true ∨ s.Everywhere .flat) := by
  simp only [ParsesUnbounded, parse_eq_ofTokens, ofTokens_eq_ok_iff]
  constructor
  · rintro ⟨hcheck, rest, last, b, hs, hend⟩
    refine ⟨⟨o.maxDepth, fun limit hlimit => ⟨hcheck, rest, last, b, hs.of_fits
      (Nat.le_trans hs.nesting_le hlimit) nofun, hend⟩⟩, hs.nesting_le, ?_⟩
    cases hvalues : o.subSelectValues with
    | true => exact .inl rfl
    | false =>
      exact .inr (hs.everywhere (fun _ hn => hn)
        (fun hallowed => by cases hvalues.symm.trans hallowed) fun _ _ => trivial)
  · rintro ⟨⟨least, hparse⟩, hnesting, hvalues⟩
    obtain ⟨hcheck, rest, last, b, hs, hend⟩ := hparse least (Nat.le_refl _)
    refine ⟨hcheck, rest, last, b, hs.of_fits hnesting fun hforbidden => ?_, hend⟩
    exact hvalues.resolve_left fun hallowed => by cases hforbidden.symm.trans hallowed

end Statement

end SqlEngine

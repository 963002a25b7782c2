import SqlEngine.Proofs.Database.Typing
import SqlEngine.Proofs.Resolution.Expansion

/-!
# Databases — what an aggregating SELECT reads

The outputs and sort keys of an aggregating SELECT have one value for each group, so a column of the
statement itself is to be read in them only in the arguments of aggregates and as a part of what is
equal to a group key.  `Expr.ReadsUngrouped` is any other read.  A SELECT that is resolved has none
in its own expressions, and the programs of its outputs and sort keys have no instruction that reads
a current row (`Select.reads_of_grouped`).  Nested SELECTs are not looked into, so a read at a
higher level may be left; it sees the first row of the group
(`Database.nestedColumn_ungrouped`).
-/

namespace SqlEngine

variable {keys : List Expr} {r : ColumnRef}

/-! ### Reads -/

mutual

/-- The expression refers to a column of the statement `level` statements further out. -/
inductive Expr.ReadsAt : Nat → Expr → ColumnRef → Prop
  | column {e : Expr} {r : ColumnRef} (hr : .column r ∈ e.nodes) : Expr.ReadsAt r.level e r
  | argument {level : Nat} {e a : Expr} {f : Call} {r : ColumnRef} (hf : .call f ∈ e.nodes)
      (ha : a ∈ f.arguments) (h : Expr.ReadsAt level a r) : Expr.ReadsAt level e r
  | select {level : Nat} {e : Expr} {s : Select} {r : ColumnRef} (hs : .select s ∈ e.nodes)
      (h : Select.ReadsAt (level + 1) s r) : Expr.ReadsAt level e r

/-- The SELECT refers to a column of the statement `level` statements further out; its sources do
not see the SELECT itself. -/
inductive Select.ReadsAt : Nat → Select → ColumnRef → Prop
  | clause {level : Nat} {s : Select} {e : Expr} {r : ColumnRef} (he : e ∈ s.clauses)
      (h : Expr.ReadsAt level e r) : Select.ReadsAt level s r
  | source {level : Nat} {s q : Select} {aliasName : Option String} {offset : Nat} {r : ColumnRef}
      (hq : .select q aliasName offset ∈ s.sources) (h : Select.ReadsAt level q r) :
      Select.ReadsAt level s r

end

/-- Outside of aggregate calls and of all that is equal to a group key, the expression reads a
column of its own statement; `r.level` says how many SELECTs further in the reference stands. -/
inductive Expr.ReadsUngrouped (keys : List Expr) : Expr → ColumnRef → Prop
  | column {e : Expr} {r : ColumnRef} (he : e.indexIn? keys = none) (hr : .column r ∈ e.nodes)
      (hkey : (Node.column r).indexIn? keys = none) (hlevel : r.level = 0) :
      ReadsUngrouped keys e r
  | argument {e a : Expr} {f : Call} {r : ColumnRef} (he : e.indexIn? keys = none)
      (hf : .call f ∈ e.nodes) (hkey : (Node.call f).indexIn? keys = none)
      (hscalar : f.isAggregate = false) (ha : a ∈ f.arguments) (h : ReadsUngrouped keys a r) :
      ReadsUngrouped keys e r
  | select {e : Expr} {s : Select} {r : ColumnRef} (he : e.indexIn? keys = none)
      (hs : .select s ∈ e.nodes) (hkey : (Node.select s).indexIn? keys = none)
      (h : Select.ReadsAt 1 s r) : ReadsUngrouped keys e r

mutual

theorem Expr.ReadsAt.le_level : ∀ {level : Nat} {e : Expr} {r : ColumnRef},
    Expr.ReadsAt level e r → level ≤ r.level
  | _, _, _, .column _ => Nat.le_refl _
  | _, _, _, .argument _ _ h => h.le_level
  | _, _, _, .select _ h => Nat.le_of_succ_le h.le_level

theorem Select.ReadsAt.le_level : ∀ {level : Nat} {s : Select} {r : ColumnRef},
    Select.ReadsAt level s r → level ≤ r.level
  | _, _, _, .clause _ h => h.le_level
  | _, _, _, .source _ h => h.le_level

end

/-! ### What the check finds -/

theorem Node.ungrouped?_cons {n : Node} {ns : List Node} :
    Node.ungrouped? keys (n :: ns) = none ↔
      Node.ungrouped? keys [n] = none ∧ Node.ungrouped? keys ns = none := by
  cases n with
  | column r =>
    simp only [Node.ungrouped?]
    split <;> simp
  | call f => simp only [Node.ungrouped?, Option.or_none, Option.or_eq_none_iff]
  | _ => simp only [Node.ungrouped?, true_and]

theorem Node.ungrouped?_of_mem {n : Node} : ∀ {ns : List Node}, Node.ungrouped? keys ns = none →
    n ∈ ns → Node.ungrouped? keys [n] = none
  | m :: ns, h, hn => by
    obtain ⟨hm, hns⟩ := Node.ungrouped?_cons.1 h
    rcases List.mem_cons.1 hn with rfl | hn
    · exact hm
    · exact Node.ungrouped?_of_mem hns hn

theorem Expr.ungroupedIn?_eq_none_iff {es : List Expr} :
    Expr.ungroupedIn? keys es = none ↔ ∀ e ∈ es, e.ungrouped? keys = none := by
  induction es with
  | nil => simp [Expr.ungroupedIn?]
  | cons e es ih => simp only [Expr.ungroupedIn?, Option.or_eq_none_iff, ih, List.forall_mem_cons]

/-- An expression without a finding is equal to a key, or none of its nodes has one. -/
theorem Expr.nodes_of_ungrouped? {e : Expr} (h : e.ungrouped? keys = none)
    (he : e.indexIn? keys = none) : Node.ungrouped? keys e.nodes = none := by
  obtain ⟨nodes, _, _, _, _, _, _⟩ := e
  simpa [Expr.ungrouped?, he] using h

theorem Node.level_of_ungrouped? (h : Node.ungrouped? keys [.column r] = none)
    (hkey : (Node.column r).indexIn? keys = none) : r.level ≠ 0 := by
  simpa [Node.ungrouped?, hkey] using h

theorem Node.arguments_of_ungrouped? {f : Call} (h : Node.ungrouped? keys [.call f] = none)
    (hkey : (Node.call f).indexIn? keys = none) (hscalar : f.isAggregate = false) :
    ∀ a ∈ f.arguments, a.ungrouped? keys = none := by
  obtain ⟨_, arguments, _, _, isAggregate, _⟩ := f
  obtain rfl : isAggregate = false := hscalar
  have h : Expr.ungroupedIn? keys arguments = none := by
    simpa [Node.ungrouped?, hkey, Call.ungrouped?] using h
  exact Expr.ungroupedIn?_eq_none_iff.1 h

theorem ColumnRef.same_comm (a b : ColumnRef) : a.same b = b.same a := by
  have hqualifier : sameQualifier a.qualifier b.qualifier =
      sameQualifier b.qualifier a.qualifier := by
    cases a.qualifier <;> cases b.qualifier <;> simp only [sameQualifier, Text.sameName_comm]
  rw [same, same, hqualifier, Text.sameName_comm]

/-- An expression that is one column is equal to the keys that the column is. -/
theorem Expr.indexIn?_of_column? {e : Expr} (h : e.column? = some r) :
    e.indexIn? keys = (Node.column r).indexIn? keys := by
  obtain ⟨nodes, _, _, _, _, _, _⟩ := e
  match nodes, h with
  | [.column _], h =>
    obtain rfl := Option.some.inj h
    refine congrArg (fun p => keys.findIdx? p) (funext fun key => ?_)
    obtain ⟨nodes, _, _, _, _, _, _⟩ := key
    match nodes with
    | [] | _ :: _ :: _ => simp [Expr.same, Node.sameList]
    | [m] =>
      cases m <;> simp [Expr.same, Node.sameList, Node.same, ColumnRef.same_comm]

/-- What the check does not find stands in a nested SELECT. -/
theorem Expr.ReadsUngrouped.level_pos {e : Expr} (hread : e.ReadsUngrouped keys r)
    (h : e.ungrouped? keys = none) : 0 < r.level := by
  induction hread with
  | column he hr hkey hlevel =>
    have hnode := Node.ungrouped?_of_mem (Expr.nodes_of_ungrouped? h he) hr
    exact absurd hlevel (Node.level_of_ungrouped? hnode hkey)
  | argument he hf hkey hscalar ha _ ih =>
    have hnode := Node.ungrouped?_of_mem (Expr.nodes_of_ungrouped? h he) hf
    exact ih (Node.arguments_of_ungrouped? hnode hkey hscalar _ ha)
  | select _ _ _ hs => exact hs.le_level

/-! ### What is compiled -/

/-- The instruction reads a column of a current row. -/
def Instr.readsRow : Instr → Bool
  | .column .. | .columnOut .. => true
  | _                          => false

/-- No instruction reads a column of a current row. -/
def GroupCode (code : List Instr) : Prop :=
  ∀ i ∈ code, i.readsRow = false

theorem GroupCode.append {a b : List Instr} (ha : GroupCode a) (hb : GroupCode b) :
    GroupCode (a ++ b) :=
  List.forall_mem_append.2 ⟨ha, hb⟩

theorem GroupCode.singleton {i : Instr} (h : i.readsRow = false) : GroupCode [i] :=
  List.forall_mem_singleton.2 h

/-- The code of a formula reads what the code of its values reads. -/
theorem Formula.Tree.groupCode {t : Formula.Tree (List Instr)}
    (h : ∀ code, .value code ∈ t.items → GroupCode code) : GroupCode t.code := by
  induction t with
  | leaf instrs => exact h instrs (List.mem_singleton_self _)
  | group t ih =>
    exact ih fun code hcode => h code (by simp [items, hcode])
  | node op left right ihl ihr =>
    have hleft := ihl fun code hcode => h code (by simp [items, hcode])
    have hright := ihr fun code hcode => h code (by simp [items, hcode])
    exact hleft.append (hright.append (.singleton rfl))

variable {c : Catalog}

/-- A column that has code of its own is a column further out, unless it reads a key. -/
theorem ColumnRef.readsRow_instr {parts parts' : Parts} {i : Instr}
    (hnone : Node.ungrouped? keys [.column r] = none)
    (h : (Node.column r).emit c (some keys) parts = .ok (.value [i], parts'))
    (hi : r.instr = .ok i) : i.readsRow = false := by
  rw [Node.emit] at h
  split at h
  next j hkey =>
    obtain ⟨heq, -⟩ := Prod.mk.inj (Except.ok.inj h)
    obtain rfl := List.head_eq_of_cons_eq (Item.value.inj heq)
    rfl
  next hkey =>
    have hlevel := Node.level_of_ungrouped? hnone hkey
    simp only [instr, bind_eq_ok_iff] at hi
    obtain ⟨b, -, hi⟩ := hi
    obtain rfl := Except.ok.inj hi
    rw [if_neg (by simpa using hlevel)]
    rfl

mutual

theorem Expr.emit_groupCode : ∀ {e : Expr} {parts : Parts} {code : Code},
    e.ungrouped? keys = none → e.emit c (some keys) parts = .ok code → GroupCode code.instrs
  | ⟨nodes, _, _, _, _, _, _⟩, parts, code, hnone, h => by
    cases Expr.emit_cases h with
    | key hi => exact .singleton rfl
    | formula hi hitems ht =>
      obtain ⟨-, htree⟩ := Formula.tree?_eq_some_iff.1 ht
      have hnodes : Node.ungrouped? keys nodes = none := Expr.nodes_of_ungrouped? hnone hi
      refine Formula.Tree.groupCode fun code hcode => ?_
      rw [htree] at hcode
      exact Node.emitAll_groupCode hnodes hitems code hcode

theorem Node.emit_groupCode : ∀ {n : Node} {parts parts' : Parts} {code : List Instr},
    Node.ungrouped? keys [n] = none → n.emit c (some keys) parts = .ok (.value code, parts') →
    GroupCode code
  | n, parts, parts', code, hnone, h => by
    cases Node.emit_cases h with
    | key hn hi => exact .singleton rfl
    | number | text | boolean | null | select => exact .singleton rfl
    | @column r i hi => exact .singleton (ColumnRef.readsRow_instr hnone h hi)
    | @call f code hi hf => exact Call.emit_groupCode (Node.arguments_of_ungrouped? hnone hi) hf

theorem Node.emitAll_groupCode : ∀ {ns : List Node} {parts parts' : Parts}
    {items : List (Item (List Instr))}, Node.ungrouped? keys ns = none →
    Node.emitAll c (some keys) parts ns = .ok (items, parts') →
    ∀ code, .value code ∈ items → GroupCode code
  | [], parts, parts', items, _, h, code, hcode => by
    obtain ⟨rfl, -⟩ := Prod.mk.inj (Except.ok.inj h)
    cases hcode
  | n :: ns, parts, parts', items, hnone, h, code, hcode => by
    obtain ⟨item, mid, rest, hitem, hrest, rfl⟩ := Node.emitAll_cons h
    obtain ⟨hn, hns⟩ := Node.ungrouped?_cons.1 hnone
    rcases List.mem_cons.1 hcode with rfl | hcode
    · exact Node.emit_groupCode hn hitem
    · exact Node.emitAll_groupCode hns hrest code hcode

/-- The arguments of an aggregate may read what they want: they are programs of their own. -/
theorem Call.emit_groupCode : ∀ {f : Call} {parts : Parts} {code : Code},
    (f.isAggregate = false → ∀ a ∈ f.arguments, a.ungrouped? keys = none) →
    f.emit c (some keys) parts = .ok code → GroupCode code.instrs
  | ⟨_, arguments, _, _, _, _⟩, parts, code, hnone, h => by
    cases Call.emit_cases h with
    | aggregate hkeys => exact .singleton rfl
    | scalar hargs => exact (Expr.emitAll_groupCode (hnone rfl) hargs).append (.singleton rfl)

theorem Expr.emitAll_groupCode : ∀ {es : List Expr} {parts : Parts} {code : Code},
    (∀ e ∈ es, e.ungrouped? keys = none) → Expr.emitAll c (some keys) parts es = .ok code →
    GroupCode code.instrs
  | [], parts, code, _, h => by
    obtain rfl := Except.ok.inj h
    exact List.forall_mem_nil _
  | e :: es, parts, code, hnone, h => by
    obtain ⟨first, more, hfirst, hmore, rfl⟩ := Expr.emitAll_cons h
    obtain ⟨he, hes⟩ := List.forall_mem_cons.1 hnone
    exact (Expr.emit_groupCode he hfirst).append (Expr.emitAll_groupCode hes hmore)

end

theorem Expr.outputCode_groupCode {e : Expr} {slots : List (Slot Plan)} {code : Code}
    (hnone : e.ungrouped? keys = none)
    (h : e.outputCode (some keys) slots (e.emit c (some keys) ⟨[], slots⟩) = .ok code) :
    GroupCode code.instrs := by
  cases Expr.outputCode_cases h with
  | column he hr hlevel =>
    -- a column that is written at once would be one that the check finds
    have he : e.indexIn? keys = none := he
    have hnode := Node.ungrouped?_of_mem (Expr.nodes_of_ungrouped? hnone he)
      (Expr.mem_of_column? hr)
    exact absurd (beq_iff_eq.1 hlevel)
      (Node.level_of_ungrouped? hnode (Expr.indexIn?_of_column? hr ▸ he))
  | value hcode => exact (Expr.emit_groupCode hnone hcode).append (.singleton rfl)

theorem Expr.outputPrograms_groupCode : ∀ {es : List Expr} {slots slots' : List (Slot Plan)}
    {programs : List (Program Plan)}, (∀ e ∈ es, e.ungrouped? keys = none) →
    Expr.outputPrograms c (some keys) slots es = .ok (programs, slots') →
    ∀ p ∈ programs, GroupCode p.code
  | [], slots, slots', programs, _, h => by
    obtain ⟨rfl, -⟩ := Prod.mk.inj (Except.ok.inj h)
    exact List.forall_mem_nil _
  | e :: es, slots, slots', programs, hnone, h => by
    obtain ⟨code, rest, hcode, hrest, rfl⟩ := Expr.outputPrograms_cons h
    obtain ⟨he, hes⟩ := List.forall_mem_cons.1 hnone
    exact List.forall_mem_cons.2
      ⟨Expr.outputCode_groupCode he hcode, Expr.outputPrograms_groupCode hes hrest⟩

theorem OrderKey.sortKeys_groupCode : ∀ {ks : List OrderKey} {slots slots' : List (Slot Plan)}
    {sortKeys : List (SortKey Plan)}, (∀ k ∈ ks, k.expr.ungrouped? keys = none) →
    OrderKey.sortKeys c (some keys) slots ks = .ok (sortKeys, slots') →
    ∀ k ∈ sortKeys, GroupCode k.program.code
  | [], slots, slots', sortKeys, _, h => by
    obtain ⟨rfl, -⟩ := Prod.mk.inj (Except.ok.inj h)
    exact List.forall_mem_nil _
  | ⟨e, ascending⟩ :: ks, slots, slots', sortKeys, hnone, h => by
    obtain ⟨code, rest, hcode, hrest, rfl⟩ := OrderKey.sortKeys_cons h
    obtain ⟨he, hks⟩ := List.forall_mem_cons.1 hnone
    exact List.forall_mem_cons.2
      ⟨Expr.emit_groupCode he hcode, OrderKey.sortKeys_groupCode hks hrest⟩

/-! ### Resolved SELECTs -/

/-- The check passed on the outputs with their wildcards. -/
theorem Select.groupFault?_of_resolve {s s' : Select} {outer : List Scope}
    (h : s.resolve c outer = .ok s') :
    ∃ (scope : Scope) (listed : List Expr), scope.expandAll listed = .ok s'.output ∧
      Select.groupFault? { s' with output := listed } = none := by
  obtain ⟨text, distinct, output, origin, joins, filter, groupBy, orderBy, limit, offset⟩ := s
  simp only [Select.resolve, bind_eq_ok_iff] at h
  obtain ⟨origin', -, joined, -, h⟩ := h
  split at h
  · cases h
  simp only [bind_eq_ok_iff] at h
  obtain ⟨conditions, -, outputs, -, filter', -, groupBy', -, orderBy', -, h⟩ := h
  split at h
  · cases h
  next hnone =>
    simp only [bind_eq_ok_iff] at h
    obtain ⟨output', houtput, h⟩ := h
    obtain rfl := Except.ok.inj h
    exact ⟨_, outputs, houtput, Option.eq_none_iff_forall_ne_some.2 hnone⟩

/-- An output list without wildcards stays as it is. -/
theorem Scope.expandAll_plain (scope : Scope) : ∀ {es : List Expr},
    (∀ e ∈ es, e.isWildcard = false) → scope.expandAll es = .ok es
  | [], _ => rfl
  | e :: es, hplain => by
    obtain ⟨he, hes⟩ := List.forall_mem_cons.1 hplain
    simp only [Expr.isWildcard] at he
    simp only [Scope.expandAll, Scope.expandAll_plain scope hes, ok_bind]
    split
    next r hr =>
      simp only [hr, Option.any_some] at he
      simp only [he, Bool.false_eq_true, if_false]
      rfl
    next => rfl

theorem Scope.expandAll_self {scope : Scope} {es es' : List Expr}
    (hplain : ∀ e ∈ es, e.isWildcard = false) (h : scope.expandAll es = .ok es') : es' = es :=
  Except.ok.inj (h.symm.trans (Scope.expandAll_plain scope hplain))

theorem Expr.groupFault?_eq_none {e : Expr} (h : e.groupFault? keys = none) :
    e.containsWildcard = false ∧ e.ungrouped? keys = none := by
  cases hwildcard : e.containsWildcard with
  | true => simp [groupFault?, hwildcard] at h
  | false =>
    simp only [groupFault?, hwildcard, Bool.false_eq_true, if_false, Option.or_eq_none_iff,
      Option.map_eq_none_iff] at h
    exact ⟨rfl, h.2⟩

theorem Expr.aggregateFault?_eq_none {e : Expr} (h : e.aggregateFault? = none) :
    e.containsWildcard = false ∧ e.ungrouped? [] = none := by
  cases hwildcard : e.containsWildcard with
  | true => simp [aggregateFault?, hwildcard] at h
  | false =>
    simp only [aggregateFault?, hwildcard, Bool.false_eq_true, if_false,
      Option.map_eq_none_iff] at h
    exact ⟨rfl, h⟩

/-- What the check of a SELECT that aggregates says of its outputs and sort keys. -/
theorem Select.forall_of_groupFault? {s : Select} (h : s.groupFault? = none)
    (haggregate : s.isAggregate = true) :
    ∀ e ∈ s.output ++ s.orderBy.map OrderKey.expr,
      e.containsWildcard = false ∧ e.ungrouped? s.groupBy = none := by
  intro e he
  simp only [groupFault?, haggregate, if_true] at h
  split at h
  · exact Expr.groupFault?_eq_none (List.findSome?_eq_none_iff.1 h e he)
  next hkeys =>
    have hkeys : s.groupBy = [] := by simpa using hkeys
    rw [hkeys]
    exact Expr.aggregateFault?_eq_none (List.findSome?_eq_none_iff.1 h e he)

/-- Wildcards stand for columns, which are no aggregates. -/
theorem Scope.any_hasAggregate {scope : Scope} {es es' : List Expr}
    (h : scope.expandAll es = .ok es') (hany : es'.any Expr.hasAggregate = true) :
    es.any Expr.hasAggregate = true := by
  obtain ⟨e, he, haggregate⟩ := List.any_eq_true.1 hany
  have hall : ∀ e ∈ es', e.hasAggregate = true → es.any Expr.hasAggregate = true := by
    refine Scope.expandAll_forall (P := fun e => e.hasAggregate = true → _)
      (fun r columns hexpand e he haggregate => ?_)
      (fun e he _ haggregate => List.any_eq_true.2 ⟨e, he, haggregate⟩) h
    obtain ⟨i, j, source, column, -, -, rfl⟩ := Scope.mem_expand hexpand he
    exact Bool.noConfusion haggregate
  exact hall e he haggregate

/-- The outputs and sort keys of an aggregating SELECT have passed the check. -/
theorem Select.ungrouped?_of_resolve {s s' : Select} {outer : List Scope}
    (h : s.resolve c outer = .ok s') (haggregate : s'.isAggregate = true) :
    ∀ e ∈ s'.output ++ s'.orderBy.map OrderKey.expr, e.ungrouped? s'.groupBy = none := by
  obtain ⟨scope, listed, hexpand, hfault⟩ := Select.groupFault?_of_resolve h
  have hlisted : Select.isAggregate { s' with output := listed } = true := by
    simp only [isAggregate, Bool.or_eq_true] at haggregate ⊢
    exact haggregate.imp_left (Or.imp_right (Scope.any_hasAggregate hexpand))
  have hall := Select.forall_of_groupFault? hfault hlisted
  have houtput : s'.output = listed := by
    refine Scope.expandAll_self (fun e he => ?_) hexpand
    exact Expr.isWildcard_of_contains (hall e (List.mem_append_left _ he)).1
  rw [houtput]
  exact fun e he => (hall e he).2

/-- **An aggregating SELECT that is resolved reads no ungrouped column itself.**  In its outputs and
sort keys, what is read of its own columns outside of aggregates and group keys is read from within
a nested SELECT, and their programs have no instruction that reads a current row. -/
theorem Select.reads_of_grouped {s s' : Select} {outer : List Scope}
    (h : s.resolve c outer = .ok s') (haggregate : s'.isAggregate = true) :
    (∀ e ∈ s'.output ++ s'.orderBy.map OrderKey.expr, ∀ r, e.ReadsUngrouped s'.groupBy r →
      0 < r.level) ∧
    ∀ (c' : Catalog) (stages : Stages Plan), s'.compile c' = .ok (.of stages) →
      ∀ p ∈ stages.outputs ++ stages.orderBy.map SortKey.program, ∀ i ∈ p.code,
        i.readsRow = false := by
  have hnone := Select.ungrouped?_of_resolve h haggregate
  refine ⟨fun e he r hr => hr.level_pos (hnone e he), fun c' stages hcompile => ?_⟩
  obtain ⟨stages', heq, hcompiles⟩ := Select.compile_eq_ok hcompile
  obtain rfl := Plan.of.inj heq
  obtain ⟨slots, houtputs, horder⟩ := hcompiles.projection
  have hkeys : s'.groupKeys = some s'.groupBy := by rw [Select.groupKeys, if_pos haggregate]
  rw [hkeys] at houtputs horder
  obtain ⟨houtput, hsorted⟩ := List.forall_mem_append.1 hnone
  refine List.forall_mem_append.2 ⟨Expr.outputPrograms_groupCode houtput houtputs, ?_⟩
  exact List.forall_mem_map.2 (OrderKey.sortKeys_groupCode (List.forall_mem_map.1 hsorted) horder)

namespace Database

/-- A SELECT that was prepared from a text was resolved from one that was read. -/
theorem exists_resolve_of_prepare {db : Database} {text : String} {s' : Select}
    (h : db.prepare text = .ok (.select s')) : ∃ s : Select, s.resolve db.catalog [] = .ok s' := by
  obtain ⟨S, -, hresolve⟩ := bind_eq_ok_iff.1 h
  cases S with
  | select s =>
    obtain ⟨s'', hs, heq⟩ := bind_eq_ok_iff.1 hresolve
    obtain rfl := Statement.select.inj (Except.ok.inj heq)
    exact ⟨s, hs⟩
  | insert s | update s | delete s | create s =>
    obtain ⟨s'', -, heq⟩ := bind_eq_ok_iff.1 hresolve
    cases heq

/-- Rows in groups that are named by a part of their key. -/
def groupedRows : String :=
  "SELECT LOWER(x.a) || '!', COUNT(x.b) FROM t AS x GROUP BY LOWER(x.a) ORDER BY MAX(x.a)"

theorem groupedRows_reads :
    ∃ (s s' : Select) (stages : Stages Plan),
      s.resolve greetings.catalog [] = .ok s' ∧ s'.isAggregate = true ∧
      s'.compile greetings.catalog = .ok (.of stages) ∧
      (stages.outputs ++ stages.orderBy.map SortKey.program).length = 3 ∧
      ∀ p ∈ stages.outputs ++ stages.orderBy.map SortKey.program, ∀ i ∈ p.code,
        i.readsRow = false := by
  have hselect : greetings.isSelect groupedRows (fun s => s.isAggregate &&
      match s.compile greetings.catalog with
      | .ok (.of stages) => (stages.outputs ++ stages.orderBy.map SortKey.program).length == 3
      | .error _         => false) = true := by cbv
  obtain ⟨s', hs', hcheck⟩ := exists_of_isSelect hselect
  obtain ⟨haggregate, hcheck⟩ := Bool.and_eq_true_iff.1 hcheck
  split at hcheck
  next stages hstages =>
    obtain ⟨s, hresolve⟩ := exists_resolve_of_prepare hs'
    exact ⟨s, s', stages, hresolve, haggregate, hstages, beq_iff_eq.1 hcheck,
      (Select.reads_of_grouped hresolve haggregate).2 _ stages hstages⟩
  next => cases hcheck

/-- Two rows with one key. -/
def pair : Database :=
  let columns : Columns := [⟨"a", .text⟩, ⟨"b", .boolean⟩]
  let rows : Entries := [(0, [.text "hello", .boolean true]), (1, [.text "bye", .boolean true])]
  ⟨⟨"wooby", [⟨"t", columns, some (.memory ⟨rows, 2, 2⟩)⟩], Function.builtins⟩, {}⟩

/-- A column that is no group key is read in a nested SELECT. -/
def nestedColumn : String :=
  "SELECT (SELECT x.a) AS v FROM t AS x GROUP BY x.b"

/-- The only output is a SELECT that is no group key, and the only output of that is a column of the
statement around it. -/
def passesOut (s : Select) : Bool :=
  match s.output with
  | [e] => (e.indexIn? s.groupBy).isNone && e.nodes.any fun
    | .select q => ((Node.select q).indexIn? s.groupBy).isNone &&
        q.output.any fun e => e.column?.any fun r => r.level == 1
    | _         => false
  | _   => false

/-- The nested SELECT gives the column of the first row of the group. -/
theorem nestedColumn_ungrouped :
    ∃ (s s' : Select) (e : Expr) (r : ColumnRef), s.resolve pair.catalog [] = .ok s' ∧
      s'.isAggregate = true ∧ e ∈ s'.output ∧ e.ReadsUngrouped s'.groupBy r ∧
      (pair.execute ⟨0, 0⟩ nestedColumn).1 =
        .ok ⟨[⟨"v", .text⟩], [⟨0, [.text "hello"]⟩], 0⟩ := by
  have hselect : pair.isSelect nestedColumn (fun s => s.isAggregate && passesOut s) = true := by cbv
  obtain ⟨s', hs', hcheck⟩ := exists_of_isSelect hselect
  obtain ⟨haggregate, hpasses⟩ := Bool.and_eq_true_iff.1 hcheck
  obtain ⟨s, hresolve⟩ := exists_resolve_of_prepare hs'
  simp only [passesOut] at hpasses
  split at hpasses
  next e houtput =>
    simp only [Bool.and_eq_true, List.any_eq_true, Option.isNone_iff_eq_none] at hpasses
    obtain ⟨he, n, hn, hnode⟩ := hpasses
    split at hnode
    next q =>
      simp only [Bool.and_eq_true, List.any_eq_true, Option.isNone_iff_eq_none, Option.any_eq_true,
        beq_iff_eq] at hnode
      obtain ⟨hkey, inner, hinner, r, hr, hlevel⟩ := hnode
      have hread : inner.ReadsAt r.level r := .column (Expr.mem_of_column? hr)
      rw [hlevel] at hread
      have hclause : inner ∈ q.clauses := by simp [Select.clauses, hinner]
      exact ⟨s, s', e, r, hresolve, haggregate, houtput ▸ List.mem_singleton_self e,
        .select he hn hkey (.clause hclause hread), by cbv⟩
    next => cases hnode
  next => cases hpasses

end Database
end SqlEngine

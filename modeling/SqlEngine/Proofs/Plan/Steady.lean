import SqlEngine.Proofs.Plan.Compiles
import SqlEngine.Proofs.Plan.Distinct
import SqlEngine.Proofs.Plan.Places
import SqlEngine.Proofs.Resolution.Phases
import SqlEngine.Proofs.Resolution.Steady

/-!
# Plans — the values of steady expressions

A steady expression has one value at the current rows, whatever the number and the id of the output
row (`Expr.rowValue`), and its code can always be emitted.  In one scope whose sources go by
different names, expressions that are the same have the same value.

* `Expr.value_of_steady`: the value depends on the current rows alone.
* `Expr.rowValue_of_same`: expressions that are the same have the same value.
-/

namespace SqlEngine

open Formula (tree?)

variable {c : Catalog} {here : Setting} {scope : Scope}

/-! ### The current rows -/

/-- The value of the expression at the current rows. -/
def Expr.rowValue (c : Catalog) (here : Setting) (e : Expr) : RowValue :=
  fun positions => e.value c (here.env positions 0 beforeFirst)

/-- A call has the same result for each output row. -/
theorem Overload.call_of_steady (hc : here.catalog = c) {f : Call} (hf : f.Steady c) {o : Overload}
    (ho : f.target = some o) (positions : List Position) (number : Nat) (id : RowId)
    (vs : List Value) : o.call (here.env positions number id) vs =
      o.call (here.env positions 0 beforeFirst) vs := by
  have hrowless := hf.rowless o
  rw [← hc] at hrowless
  simp only [Overload.call, Setting.env]
  cases hv : here.catalog.variant? o with
  | none => rfl
  | some v =>
    obtain ⟨hnumber, hid⟩ := hrowless v ho hv
    rw [Option.map_some]
    cases himplementation : v.implementation with
    | aggregate f => rfl
    | scalar f =>
      rw [himplementation] at hnumber hid
      cases f with
      | rowNumber => exact absurd rfl hnumber
      | rowId => exact absurd rfl hid
      | now | date | lower | upper | length | abs | round => rfl

mutual

/-- **The value of a steady expression depends on the current rows alone.** -/
theorem Expr.value_of_steady (hc : here.catalog = c) (positions : List Position) (number : Nat)
    (id : RowId) : ∀ {e : Expr}, e.Everywhere (.steady c) →
    e.value c (here.env positions number id) = e.rowValue c here positions
  | ⟨nodes, _, _, _, _, _, _⟩, he => by
    simp only [Expr.rowValue, Expr.value, Node.results_of_steady hc positions number id he.2]

theorem Node.result_of_steady (hc : here.catalog = c) (positions : List Position) (number : Nat)
    (id : RowId) : ∀ {n : Node}, n.Everywhere (.steady c) →
    n.result c (here.env positions number id) = n.result c (here.env positions 0 beforeFirst)
  | .call f, hf => by simp only [Node.result, Call.value_of_steady hc positions number id hf]
  | .select s, hs => absurd hs Select.not_steady
  | .column _, _ | .operator _, _ | .openParen, _ | .closeParen, _ | .number _, _ | .text _, _
  | .boolean _, _ | .null, _ => rfl

theorem Node.results_of_steady (hc : here.catalog = c) (positions : List Position) (number : Nat)
    (id : RowId) : ∀ {ns : List Node}, Node.EverywhereAll (.steady c) ns →
    Node.results c (here.env positions number id) ns =
      Node.results c (here.env positions 0 beforeFirst) ns
  | [], _ => rfl
  | n :: ns, hns => by
    rw [Node.results, Node.results, Node.result_of_steady hc positions number id hns.1,
      Node.results_of_steady hc positions number id hns.2]

theorem Call.value_of_steady (hc : here.catalog = c) (positions : List Position) (number : Nat)
    (id : RowId) : ∀ {f : Call}, f.Everywhere (.steady c) →
    f.value c (here.env positions number id) = f.value c (here.env positions 0 beforeFirst)
  | ⟨_, _, none, _, _, _⟩, _ => rfl
  | ⟨_, arguments, some target, _, _, _⟩, hf => by
    rw [Call.value, Call.value, Expr.values_of_steady hc positions number id hf.2]
    exact bind_congr_ok fun vs _ => Overload.call_of_steady hc hf.1 rfl positions number id vs

theorem Expr.values_of_steady (hc : here.catalog = c) (positions : List Position) (number : Nat)
    (id : RowId) : ∀ {es : List Expr}, Expr.EverywhereAll (.steady c) es →
    Expr.values c (here.env positions number id) es =
      Expr.values c (here.env positions 0 beforeFirst) es
  | [], _ => rfl
  | e :: es, hes => by
    rw [Expr.values, Expr.values, Expr.value_of_steady hc positions number id hes.1,
      Expr.values_of_steady hc positions number id hes.2]
    rfl

end

/-! ### Expressions that are the same -/

theorem Scope.Distinct.eq_of_sameName (h : scope.Distinct) {i j : Nat} {s t : ScopeSource}
    (hs : scope[i]? = some s) (ht : scope[j]? = some t)
    (hname : Text.sameName s.name t.name = true) : i = j := by
  obtain ⟨hi, rfl⟩ := List.getElem?_eq_some_iff.1 hs
  obtain ⟨hj, rfl⟩ := List.getElem?_eq_some_iff.1 ht
  have hpairs := List.pairwise_iff_getElem.1 h
  rcases Nat.lt_trichotomy i j with hlt | heq | hlt
  · rw [hpairs i j hi hj hlt] at hname
    cases hname
  · exact heq
  · rw [Text.sameName_comm, hpairs j i hj hi hlt] at hname
    cases hname

theorem Columns.index?_of_sameName (columns : Columns) {a b : String}
    (h : Text.sameName a b = true) : columns.index? a = columns.index? b := by
  have hfold : Text.fold a = Text.fold b := beq_iff_eq.1 h
  simp only [Columns.index?, Text.sameName, hfold]

/-- Settled references that are the same are bound to the same column. -/
theorem ColumnRef.Settled.eq_of_same (hscope : scope.Distinct) {r s : ColumnRef}
    (hr : r.Settled scope) (hs : s.Settled scope) (h : r.same s = true) :
    r.binding = s.binding ∧ r.type = s.type := by
  obtain ⟨-, i, j, source, column, hsource, hj, hcolumn, hqualifier, hbinding, htype⟩ := hr
  obtain ⟨-, i', j', source', column', hsource', hj', hcolumn', hqualifier', hbinding',
    htype'⟩ := hs
  rw [ColumnRef.same, hqualifier, hqualifier', Bool.and_eq_true] at h
  obtain rfl := hscope.eq_of_sameName hsource hsource' h.1
  obtain rfl := Option.some.inj (hsource.symm.trans hsource')
  rw [Columns.index?_of_sameName _ h.2] at hj
  obtain rfl := Option.some.inj (hj.symm.trans hj')
  obtain rfl := Option.some.inj (hcolumn.symm.trans hcolumn')
  exact ⟨hbinding.trans hbinding'.symm, htype.trans htype'.symm⟩

theorem ColumnRef.Settled.value_of_same (hscope : scope.Distinct) {r s : ColumnRef}
    (hr : r.Settled scope) (hs : s.Settled scope) (h : r.same s = true) (env : Env) :
    r.value env = s.value env := by
  have hbinding := (hr.eq_of_same hscope hs h).1
  have hlevel := hr.level
  have hlevel' := hs.level
  obtain ⟨-, i, j, -, -, -, -, -, -, hr, -⟩ := hr
  rw [hr] at hbinding
  simp only [ColumnRef.value, hr, ← hbinding, hlevel, hlevel']

mutual

/-- **Settled expressions that are the same have the same value**, and the same type. -/
theorem Expr.value_of_same (hscope : scope.Distinct) (env : Env) : ∀ {a b : Expr},
    a.Everywhere (.settled c scope) → b.Everywhere (.settled c scope) → a.same b = true →
    a.value c env = b.value c env ∧ a.type = b.type
  | ⟨as, _, _, _, _, _, _⟩, ⟨bs, _, _, _, _, _, _⟩, ⟨ha, has⟩, ⟨hb, hbs⟩, h => by
    rw [Expr.same] at h
    obtain ⟨hresults, htypes⟩ := Node.results_of_sameList hscope env ha.nodes hb.nodes has hbs h
    refine ⟨by rw [Expr.value, Expr.value, hresults], ?_⟩
    have htyped := ha.typed
    rw [htypes] at htyped
    exact Except.ok.inj (htyped.symm.trans hb.typed)

theorem Node.result_of_same (hscope : scope.Distinct) (env : Env) : ∀ {m n : Node},
    m.Settled scope → n.Settled scope → m.Everywhere (.settled c scope) →
    n.Everywhere (.settled c scope) → m.same n = true →
    m.result c env = n.result c env ∧ m.typed = n.typed
  | .column r, n, hr, hs, _, _, h => by
    cases n with
    | column s =>
      rw [Node.same] at h
      have hvalue := ColumnRef.Settled.value_of_same hscope hr hs h env
      simp only [Node.result, Node.typed, hvalue, (ColumnRef.Settled.eq_of_same hscope hr hs h).2,
        and_self]
    | _ => simp [Node.same] at h
  | .call f, n, _, _, hf, hg, h => by
    cases n with
    | call g =>
      rw [Node.same] at h
      obtain ⟨hvalue, htype⟩ := Call.value_of_same hscope env hf hg h
      simp only [Node.result, Node.typed, hvalue, htype, and_self]
    | _ => simp [Node.same] at h
  | .number x, n, hx, hy, _, _, h => by
    cases n with
    | number y =>
      rw [Node.same] at h
      rw [Number.eq_of_beq h hx.2 hy.2]
      exact ⟨rfl, rfl⟩
    | _ => simp [Node.same] at h
  | .select s, n, _, _, hs, _, _ => absurd hs Select.not_settled
  | .operator _, n, _, _, _, _, h | .text _, n, _, _, _, _, h | .boolean _, n, _, _, _, _, h
  | .openParen, n, _, _, _, _, h | .closeParen, n, _, _, _, _, h | .null, n, _, _, _, _, h => by
    cases n <;> simp_all [Node.same, Node.result, Node.typed]

theorem Node.results_of_sameList (hscope : scope.Distinct) (env : Env) : ∀ {ms ns : List Node},
    (∀ m ∈ ms, m.Settled scope) → (∀ n ∈ ns, n.Settled scope) →
    Node.EverywhereAll (.settled c scope) ms → Node.EverywhereAll (.settled c scope) ns →
    Node.sameList ms ns = true →
    Node.results c env ms = Node.results c env ns ∧ ms.map Node.typed = ns.map Node.typed
  | [], [], _, _, _, _, _ => ⟨rfl, rfl⟩
  | [], _ :: _, _, _, _, _, h | _ :: _, [], _, _, _, _, h => by simp [Node.sameList] at h
  | m :: ms, n :: ns, hm, hn, hms, hns, h => by
    rw [Node.sameList, Bool.and_eq_true] at h
    obtain ⟨hm, hm'⟩ := List.forall_mem_cons.1 hm
    obtain ⟨hn, hn'⟩ := List.forall_mem_cons.1 hn
    obtain ⟨hresult, htyped⟩ := Node.result_of_same hscope env hm hn hms.1 hns.1 h.1
    obtain ⟨hresults, htypes⟩ := Node.results_of_sameList hscope env hm' hn' hms.2 hns.2 h.2
    simp only [Node.results, List.map_cons, hresult, htyped, hresults, htypes, and_self]

theorem Call.value_of_same (hscope : scope.Distinct) (env : Env) : ∀ {f g : Call},
    f.Everywhere (.settled c scope) → g.Everywhere (.settled c scope) → f.same g = true →
    f.value c env = g.value c env ∧ f.type = g.type
  | ⟨_, as, _, _, _, _⟩, ⟨_, bs, _, _, _, _⟩, ⟨hf, has⟩, ⟨hg, hbs⟩, h => by
    rw [Call.same, Bool.and_eq_true] at h
    obtain ⟨hvalues, htypes⟩ := Expr.values_of_sameList hscope env has hbs h.2
    -- the same name and the same types choose the same overload
    obtain ⟨id, k, i, v, hfind, hi, hv, htarget, htype⟩ := hf.chosen
    obtain ⟨id', k', i', v', hfind', hi', hv', htarget', htype'⟩ := hg.chosen
    dsimp only at hfind hi htarget htype hfind' hi' htarget' htype'
    rw [beq_iff_eq.1 h.1] at hfind
    obtain ⟨rfl, rfl⟩ := Prod.mk.inj (Option.some.inj (hfind.symm.trans hfind'))
    rw [htypes] at hi
    obtain rfl := Option.some.inj (hi.symm.trans hi')
    obtain rfl := Option.some.inj (hv.symm.trans hv')
    subst htarget htarget' htype htype'
    exact ⟨by rw [Call.value, Call.value, hvalues], rfl⟩

theorem Expr.values_of_sameList (hscope : scope.Distinct) (env : Env) : ∀ {as bs : List Expr},
    Expr.EverywhereAll (.settled c scope) as → Expr.EverywhereAll (.settled c scope) bs →
    Expr.sameList as bs = true →
    Expr.values c env as = Expr.values c env bs ∧ as.map Expr.type = bs.map Expr.type
  | [], [], _, _, _ => ⟨rfl, rfl⟩
  | [], _ :: _, _, _, h | _ :: _, [], _, _, h => by simp [Expr.sameList] at h
  | a :: as, b :: bs, has, hbs, h => by
    rw [Expr.sameList, Bool.and_eq_true] at h
    obtain ⟨hvalue, htype⟩ := Expr.value_of_same hscope env has.1 hbs.1 h.1
    obtain ⟨hvalues, htypes⟩ := Expr.values_of_sameList hscope env has.2 hbs.2 h.2
    simp only [Expr.values, List.map_cons, hvalue, htype, hvalues, htypes, and_self]

end

theorem Expr.rowValue_of_same (hscope : scope.Distinct) {a b : Expr}
    (ha : a.Everywhere (.settled c scope)) (hb : b.Everywhere (.settled c scope))
    (h : a.same b = true) : a.rowValue c here = b.rowValue c here :=
  funext fun _ => (Expr.value_of_same hscope _ ha hb h).1

/-! ### Emitting -/

/-- Settled expressions can be compiled. -/
theorem Local.settled_compilable :
    Local.Give (.settled c scope) (.settled c scope) (.compilable c) where
  expr he _ := he.compilable
  call hf _ := by
    obtain ⟨id, g, i, v, -, -, -, htarget, -⟩ := hf.chosen
    refine ⟨⟨_, htarget⟩, fun haggregate => ?_⟩
    rw [hf.steady.scalar] at haggregate
    cases haggregate
  select := fun hs _ => hs.elim

theorem Expr.any_calls_of_settled {e : Expr} (h : e.Everywhere (.settled c scope)) :
    e.calls.any Call.isAggregate = false :=
  List.any_eq_false.2 fun f hf => by
    rw [(Expr.forall_calls h f hf).steady.scalar]
    exact Bool.false_ne_true

theorem Expr.hasAggregate_of_settled {e : Expr} (h : e.Everywhere (.settled c scope)) :
    e.hasAggregate = false :=
  h.self.compilable.aggregate.trans (Expr.any_calls_of_settled h)

/-- The programs of steady outputs add their values at the current rows. -/
theorem Expr.appends_of_outputPrograms (hc : here.catalog = c) (positions : List Position)
    (number : Nat) (id : RowId) : ∀ {es : List Expr} {slots slots' : List (Slot Plan)}
    {programs : List (Program Plan)}, (∀ e ∈ es, e.Everywhere (.steady c)) →
    Expr.outputPrograms c none slots es = .ok (programs, slots') →
    List.Forall₂ (fun p f => Program.Appends p (here.env positions number id) (f positions))
      (programs.map (Program.withQueries c here.now)) (es.map (Expr.rowValue c here))
  | [], slots, slots', programs, _, h => by
    obtain ⟨rfl, -⟩ := Prod.mk.inj (Except.ok.inj h)
    exact .nil
  | e :: es, slots, slots', programs, hes, h => by
    obtain ⟨code, rest, hcode, hrest, rfl⟩ := Expr.outputPrograms_cons h
    obtain ⟨he, hes⟩ := List.forall_mem_cons.1 hes
    have happends := Expr.outputCode_appends hcode (here.env positions number id)
    rw [Expr.value_of_steady hc positions number id he] at happends
    exact .cons (hc ▸ happends) (Expr.appends_of_outputPrograms hc positions number id hes hrest)

/-- The programs of steady group keys have their values at the current rows. -/
theorem Expr.value_of_programs (hc : here.catalog = c) (positions : List Position) (number : Nat)
    (id : RowId) : ∀ {es : List Expr} {programs : List (Program Plan)},
    (∀ e ∈ es, e.Everywhere (.steady c)) → Expr.programs c es = .ok programs →
    List.Forall₂ (fun p f => Program.value p (here.env positions number id) = f positions)
      (programs.map (Program.withQueries c here.now)) (es.map (Expr.rowValue c here))
  | [], programs, _, h => by
    obtain rfl := Except.ok.inj h
    exact .nil
  | e :: es, programs, hes, h => by
    obtain ⟨code, rest, hcode, hrest, rfl⟩ := Expr.programs_cons h
    obtain ⟨he, hes⟩ := List.forall_mem_cons.1 hes
    have hvalue : (code.program.withQueries here.catalog here.now).value
        (here.env positions number id) = e.value c (here.env positions number id) :=
      (Expr.emit_yields hcode List.prefix_rfl).2.evaluates.value
    rw [Expr.value_of_steady hc positions number id he, hc] at hvalue
    exact .cons hvalue (Expr.value_of_programs hc positions number id hes hrest)

/-! ### Keys that repeat the outputs -/

theorem Expr.Repeats.emit {e key : Expr} (h : e.Repeats key) (parts : Parts) :
    key.emit c none parts = e.emit c none parts := by
  obtain ⟨φ, h⟩ := h
  have hplaced : (e.placed φ).emit c none parts = e.emit c none parts :=
    Expr.emit_placed φ none parts e
  rw [← hplaced]
  generalize e.placed φ = e' at h
  obtain ⟨nodes, _, _, _, _, _, _⟩ := e'
  obtain ⟨_, _, _, _, _, _, _⟩ := key
  obtain rfl := h
  simp only [Expr.emit, Expr.keyIndex?, Option.bind_none]

variable {es keys : List Expr}

/-- Repeated expressions have the programs of the expressions. -/
theorem Expr.programs_of_repeats (h : List.Forall₂ Expr.Repeats es keys) :
    Expr.programs c keys = Expr.programs c es := by
  induction h with
  | nil => rfl
  | cons he _ ih => rw [Expr.programs, Expr.programs, he.emit, ih]

/-- Each of the expressions is one of the keys, which has its value. -/
theorem Expr.keyIndex?_of_repeats (hscope : scope.Distinct)
    (h : List.Forall₂ Expr.Repeats es keys) (hes : ∀ e ∈ es, e.Everywhere (.settled c scope))
    {e : Expr} (he : e ∈ es) :
    ∃ i, e.keyIndex? (some keys) = some i ∧ ∀ here : Setting,
      (es.map (Expr.rowValue c here))[i]? = some (e.rowValue c here) := by
  have hsteady (e' : Expr) (he' : e' ∈ es) : e'.Everywhere (.steady c) :=
    Expr.steady_of_settled (hes e' he')
  -- the expression is the same as its own key
  obtain ⟨i, hi⟩ : ∃ i, e.keyIndex? (some keys) = some i := by
    obtain ⟨key, hkey, hrepeats⟩ := exists_mem_of_forall₂ h.flip he
    refine Option.isSome_iff_exists.1
      (List.findIdx?_isSome.trans (List.any_eq_true.2 ⟨key, hkey, ?_⟩))
    have hrepeats : e.Repeats key := hrepeats
    rw [hrepeats.same (hsteady e he), Expr.same_self (hes e he)]
  obtain ⟨key, hkey, hsame⟩ := List.findIdx?_eq_some_iff_getElem.1 hi
  obtain ⟨e', he', hrepeats⟩ := forall₂_getElem? h (List.getElem?_eq_getElem key)
  have hmem := List.mem_of_getElem? he'
  refine ⟨i, hi, fun here => ?_⟩
  rw [List.getElem?_map, he', Option.map_some, Option.some_inj]
  rw [hrepeats.same (hsteady e' hmem)] at hkey
  exact (Expr.rowValue_of_same hscope (hes e he) (hes e' hmem) hkey).symm

/-- Outputs that are repeated by the keys are read from the keys. -/
theorem Expr.outputPrograms_of_repeats (hscope : scope.Distinct)
    (h : List.Forall₂ Expr.Repeats es keys) (hes : ∀ e ∈ es, e.Everywhere (.settled c scope))
    (slots : List (Slot Plan)) : ∀ {os : List Expr},
    (∀ e ∈ os, e ∈ es ∧ e.containsWildcard = false) →
    ∃ programs, Expr.outputPrograms c (some keys) slots os = .ok (programs, slots) ∧
      ∀ here : Setting, List.Forall₂
        (fun (p : Program Query) f => ∃ i : Nat, p = .ofKey i ∧
          (es.map (Expr.rowValue c here))[i]? = some f)
        (programs.map (Program.withQueries c here.now)) (os.map (Expr.rowValue c here))
  | [], _ => ⟨[], rfl, fun _ => .nil⟩
  | e :: os, hos => by
    obtain ⟨⟨he, hwildcard⟩, hos⟩ := List.forall_mem_cons.1 hos
    obtain ⟨programs, hprograms, hvalues⟩ := Expr.outputPrograms_of_repeats hscope h hes slots hos
    obtain ⟨i, hi, hvalue⟩ := Expr.keyIndex?_of_repeats hscope h hes he
    have hemit : e.emit c (some keys) ⟨[], slots⟩ = .ok ⟨[.groupKey i], ⟨[], slots⟩⟩ := by
      obtain ⟨nodes, _, _, _, _, _, _⟩ := e
      rw [Expr.emit, hi]
    have hcode : e.outputCode (some keys) slots (e.emit c (some keys) ⟨[], slots⟩) =
        .ok ⟨[.groupKey i, .out], ⟨[], slots⟩⟩ := by
      simp only [Expr.outputCode, Expr.ownColumn?, hi, Option.isSome_some, if_true, hemit]
      rfl
    rw [Expr.outputPrograms_of_code hwildcard hcode, hprograms]
    exact ⟨_, rfl, fun here => .cons ⟨i, rfl, hvalue here⟩ (hvalues here)⟩

end SqlEngine

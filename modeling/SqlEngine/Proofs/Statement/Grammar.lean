import SqlEngine.Proofs.Statement.Phrases

/-!
# Statements — grammar

A reader gives a value when its tokens start with the phrase, and else it fails.

* `Derives.of_reads`, `Derives.reads`: each reader of expressions and of SELECT, and its phrase.
* `Read.statement_eq_ok_iff`, `Statement.ofTokens_eq_ok_iff`: statements, and whole texts.
-/

namespace SqlEngine

variable {α : Type}

open Read (Gives)

/-! ### Lists -/

/-- Items with commas between them. -/
inductive Separated (R : Tokens → α → Tokens → Prop) : Tokens → List α → Tokens → Prop
  | last {ts rest : Tokens} {a : α} (h : R ts a rest) (hrest : rest.Lacks (· == .comma)) :
      Separated R ts [a] rest
  | more {ts t t' rest : Tokens} {a : α} {as : List α} (h : R ts a t)
      (hcomma : t.Takes (· == .comma) t') (hmore : Separated R t' as rest) :
      Separated R ts (a :: as) rest

namespace Read

variable {o : ParserOptions} {depth : Nat} {ts t rest : Tokens}

/-- What the readers of lists give, which all go on in one way. -/
theorem gives_items {item : (ts : Tokens) → Parsed α ts} {list : (ts : Tokens) → Parsed (List α) ts}
    (hlist : ∀ ts, list ts = (do
      let (first, ⟨afterFirst, hFirst⟩) ← item ts
      match ← takeComma afterFirst with
      | none => .ok ([first], ⟨afterFirst, hFirst⟩)
      | some ⟨afterComma, hComma⟩ =>
        let (more, rest) ← list afterComma
        .ok (first :: more, (rest.since hComma).since hFirst)))
    {as : List α} : Gives (list ts) as rest ↔
      Separated (fun ts a rest => Gives (item ts) a rest) ts as rest := by
  constructor
  · intro h
    induction hn : ts.length using Nat.strongRecOn generalizing ts as with
    | _ n ih =>
      rw [hlist] at h
      simp only [gives_bind, gives_takeIf, takeComma, gives_ok, Tokens.After.since] at h
      obtain ⟨a, t, ht, ha, ⟨hlacks, rfl, rfl⟩ | ⟨t', ht', hcomma, more, _, _, hmore, rfl,
        rfl⟩⟩ := h
      · exact .last ha hlacks
      · exact .more ha hcomma (ih t'.length (by omega) hmore rfl)
  · intro h
    induction h with
    | @last ts rest a ha hrest =>
      rw [hlist]
      simp only [gives_bind, gives_takeIf, takeComma, gives_ok, Tokens.After.since]
      exact ⟨a, rest, ha.prop, ha, .inl ⟨hrest, rfl, rfl⟩⟩
    | @more ts t t' rest a as ha hcomma _ ih =>
      rw [hlist]
      simp only [gives_bind, gives_takeIf, takeComma, gives_ok, Tokens.After.since]
      exact ⟨a, t, ha.prop, ha, .inr ⟨t', hcomma.length, hcomma, as, rest, ih.prop, ih, rfl, rfl⟩⟩

theorem gives_expressions {es : List Expr} : Gives (expressions o depth ts) es rest ↔
    Separated (fun ts e rest => Gives (expression o depth false ts) e rest) ts es rest :=
  gives_items fun ts => expressions.eq_def o depth ts

theorem gives_outputs {es : List Expr} : Gives (outputs o depth ts) es rest ↔
    Separated (fun ts e rest => Gives (output o depth ts) e rest) ts es rest :=
  gives_items fun ts => outputs.eq_def o depth ts

theorem gives_separated {item : (ts : Tokens) → Parsed α ts} {as : List α} :
    Gives (separated item ts) as rest ↔
      Separated (fun ts a rest => Gives (item ts) a rest) ts as rest :=
  gives_items fun ts => separated.eq_def item ts

/-- A key of ORDER BY. -/
def orderKey (o : ParserOptions) (depth : Nat) (ts : Tokens) : Parsed OrderKey ts := do
  let (e, ⟨afterExpr, hExpr⟩) ← expression o depth false ts
  let (ascending, ⟨rest, hRest⟩) ← show ParsedUpTo Bool afterExpr from do
    match ← takeKeyword .desc afterExpr with
    | some rest => .ok (false, rest.upTo)
    | none      => .ok (true, ← skipKeyword .asc afterExpr)
  .ok (⟨e, ascending⟩, ⟨rest, Tokens.length_lt_of_upTo hExpr hRest⟩)

theorem gives_orderKeys {keys : List OrderKey} : Gives (orderKeys o depth ts) keys rest ↔
    Separated (fun ts key rest => Gives (orderKey o depth ts) key rest) ts keys rest := by
  refine gives_items fun ts => ?_
  rw [orderKeys, orderKey]
  simp only [bind_assoc, ok_bind]
  rfl

end Read

open Read in
/-- What the reader of a phrase gives.  The phrases without a reader of their own are said by the
readers of their parts. -/
def Phrase.Reads (o : ParserOptions) : (k : Phrase) → Nat → Tokens → k.Value → Tokens → Prop
  | operands nested, depth, ts, nodes, rest   => Gives (Read.operands o depth nested ts) nodes rest
  | following nested, depth, ts, nodes, rest  => Gives (Read.following o depth nested ts) nodes rest
  | operand nested, depth, ts, nodes, rest    => Gives (Read.operand o depth nested ts) nodes rest
  | atom nested, depth, ts, nodes, rest       => Gives (Read.atom o depth nested ts) nodes rest
  | arguments, depth, ts, args, rest          => Gives (Read.arguments o depth ts) args rest
  | expression wildcard, depth, ts, e, rest   => Gives (Read.expression o depth wildcard ts) e rest
  | bare, depth, ts, e, rest =>
    ts.Takes (· == .mark .star) rest ∧
        e = .ofColumn { qualifier := none, column := "*", offset := ts.start } ∨
      ts.Lacks (· == .mark .star) ∧ Gives (Read.expression o depth true ts) e rest
  | output, depth, ts, e, rest                => Gives (Read.output o depth ts) e rest
  | source, depth, ts, s, rest                => Gives (Read.source o depth ts) s rest
  | joins, depth, ts, js, rest                => Gives (Read.joins o depth ts) js rest
  | origin, depth, ts, p, rest =>
    ∃ t, Gives (Read.source o depth ts) p.1 t ∧ Gives (Read.joins o depth t) p.2 rest
  | orderKey, depth, ts, key, rest            => Gives (Read.orderKey o depth ts) key rest
  | rowCount, _, ts, n, rest                  => Gives (Read.rowCount ts) n rest
  | select, depth, ts, s, rest                => Gives (Read.select o depth ts) s rest
  | row, depth, ts, es, rest =>
    ∃ t t', ts.Takes (· == .mark .openParen) t ∧ Gives (Read.expressions o depth t) es t' ∧
      t'.Takes (· == .mark .closeParen) rest
  | assignment, depth, ts, a, rest =>
    ∃ t t', Gives (expectName ts) a.column t ∧ t.Takes (· == .mark .equal) t' ∧
      Gives (Read.expression o depth false t') a.value rest ∧ a.position = 0 ∧ a.offset = ts.start
  | name, _, ts, n, rest                      => Gives (expectName ts) n rest
  | column, _, ts, c, rest                    => Gives (columnClause ts) c rest
  | columns, _, ts, names, rest =>
    ts.Lacks (· == .mark .openParen) ∧ names = [] ∧ rest = ts ∨
      ∃ t t', ts.Takes (· == .mark .openParen) t ∧ Gives (separated expectName t) names t' ∧
        t'.Takes (· == .mark .closeParen) rest
  | items item, depth, ts, as, rest           => Separated (item.Reads o depth) ts as rest
  | optional word phrase, depth, ts, a, rest =>
    ts.Lacks (· == .keyword word) ∧ a = none ∧ rest = ts ∨
      ∃ t b, ts.Takes (· == .keyword word) t ∧ phrase.Reads o depth t b rest ∧ a = some b
  | after word phrase, depth, ts, a, rest =>
    ∃ t, ts.Takes (· == .keyword word) t ∧ phrase.Reads o depth t a rest

namespace Read

variable {o : ParserOptions} {depth : Nat} {ts rest : Tokens}

theorem gives_bare {e : Expr} : Phrase.Reads o .bare depth ts e rest ↔
    Gives (show Parsed Expr ts from do
      match ← takeIf (· == .mark .star) ts with
      | some rest =>
        .ok (.ofColumn { qualifier := none, column := "*", offset := ts.start }, rest)
      | none => expression o depth true ts) e rest := by
  simp only [gives_takeIf, gives_ok]
  constructor
  · rintro (⟨hstar, rfl⟩ | ⟨hlacks, he⟩)
    · exact .inr ⟨rest, hstar.length, hstar, rfl, rfl⟩
    · exact .inl ⟨hlacks, he⟩
  · rintro (⟨hlacks, he⟩ | ⟨_, _, hstar, rfl, rfl⟩)
    · exact .inr ⟨hlacks, he⟩
    · exact .inl ⟨hstar, rfl⟩

end Read

/-! ### What is read starts with a phrase -/

/-- What the reader of a phrase gives starts with the phrase. -/
def Phrase.Sound (o : ParserOptions) (k : Phrase) (depth : Nat) (ts : Tokens) : Prop :=
  ∀ a rest, k.Reads o depth ts a rest → Derives o k depth ts a rest

namespace Read

open Phrase (Sound)

variable {o : ParserOptions} {depth : Nat} {nested : Bool} {ts : Tokens}

theorem operands_sound (hfirst : Sound o (.operand nested) depth ts)
    (hmore : ∀ t, t.length < ts.length → Sound o (.following nested) depth t) :
    Sound o (.operands nested) depth ts := by
  intro (nodes : List Node) rest (h : Gives (operands o depth nested ts) nodes rest)
  rw [operands] at h
  simp only [gives_bind, gives_ok] at h
  obtain ⟨first, t, ht, h, more, _, _, h', rfl, rfl⟩ := h
  exact .operands (hfirst _ _ h) (hmore t ht _ _ h')

theorem following_sound
    (hoperands : ∀ t, t.length < ts.length → Sound o (.operands nested) depth t) :
    Sound o (.following nested) depth ts := by
  intro (nodes : List Node) rest (h : Gives (following o depth nested ts) nodes rest)
  have ends {ts : Tokens} {e : Error} {r : ts.UpTo} (hr : r.1 = ts) (hends : ts.current.ends = true)
      (h : Gives (if nested = true then .error e else .ok ([], r)) nodes rest) :
      Derives o (.following nested) depth ts nodes rest := by
    simp only [gives_ite, gives_error, gives_ok, and_false, false_or, hr] at h
    obtain ⟨hnested, rfl, rfl⟩ := h
    obtain rfl : nested = false := by simpa using hnested
    exact .ends hends
  cases ts with
  | finish | broken => rw [following] at h <;> first | exact ends rfl rfl h | simp
  | next l after =>
    have operatorThen {op : Operator} {out : List Node × after.After → (Tokens.next l after).UpTo}
        (hout : ∀ p, (out p).1 = p.2.1) (hop : l.token.operator? = some op)
        (h : Gives (do
          after.check
          let p ← operands o depth nested after
          Except.ok (Node.operator op :: p.1, out p)) nodes rest) :
        Derives o (.following nested) depth (.next l after) nodes rest := by
      simp only [gives_unit, gives_bind, gives_ok, hout] at h
      obtain ⟨hcheck, more, _, hlt, hmore, rfl, rfl⟩ := h
      exact .operator ⟨l, rfl, by simp [hop], hcheck⟩
        (hoperands after (Nat.lt_succ_self _) _ _ hmore)
    rw [following] at h
    simp only [] at h
    -- the cases of the token at the front, in the order of the reader
    split at h
    case h_1 hl | h_2 hl => exact operatorThen (fun _ => rfl) (by rw [hl]; rfl) h
    case h_5 hl =>
      cases nested with
      | false =>
        rw [if_neg Bool.false_ne_true] at h
        exact ends rfl (by simp only [Tokens.current, hl]; rfl) h
      | true =>
        simp only [if_true, gives_unit, gives_ok] at h
        obtain ⟨hcheck, rfl, rfl⟩ := h
        exact .closes ⟨l, rfl, by simp [hl], hcheck⟩
    case h_6 m hopen hclose hl =>
      split at h
      next op hop => exact operatorThen (fun _ => rfl) (by rw [hl]; exact hop) h
      next hop =>
        refine ends rfl ?_ h
        simp only [Tokens.current, hl, Token.ends, hop, Option.isNone_none, Bool.true_and,
          bne_iff_ne, ne_eq]
        exact hopen
    case h_13 word _ _ _ _ _ _ hl =>
      split at h
      · exact (gives_error.1 h).elim
      next htype =>
        refine ends rfl ?_ h
        simp only [Tokens.current, hl]
        cases word <;> first | contradiction | rfl
    case h_14 =>
      refine ends rfl ?_ h
      simp only [Tokens.current]
      cases hl : l.token <;> first | rfl | simp_all
    all_goals exact (gives_error.1 h).elim

theorem operand_sound (hatom : Sound o (.atom nested) depth ts)
    (harguments : ∀ t, t.length < ts.length → Sound o .arguments depth t) :
    Sound o (.operand nested) depth ts := by
  intro (nodes : List Node) rest (h : Gives (operand o depth nested ts) nodes rest)
  rw [operand] at h
  simp only [gives_bind] at h
  obtain ⟨atoms, t, ht, h₁, h⟩ := h
  split at h
  next hopen =>
    split at h
    next r hname =>
      simp only [gives_bind] at h
      obtain ⟨args, t', ht', hargs, h⟩ := h
      split at h
      · exact (gives_error.1 h).elim
      next hrest =>
        simp only [gives_ok, Tokens.After.since] at h
        obtain ⟨rfl, rfl⟩ := h
        exact .call (hatom _ _ h₁) hname (harguments t ht _ _ hargs) hrest
    next => exact (gives_error.1 h).elim
  next hplain =>
    simp only [gives_ok] at h
    obtain ⟨rfl, rfl⟩ := h
    exact .operand (hatom _ _ h₁) hplain

theorem atom_sound
    (hoperands : ∀ t, t.length < ts.length → Sound o (.operands true) (depth + 1) t)
    (hselect : ∀ t, t.length < ts.length → Sound o .select (depth + 1) t) :
    Sound o (.atom nested) depth ts := by
  intro (nodes : List Node) rest (h : Gives (atom o depth nested ts) nodes rest)
  cases ts with
  | finish | broken => rw [atom] at h <;> first | exact (gives_error.1 h).elim | simp
  | next l after =>
    have hlt : after.length < (Tokens.next l after).length := Nat.lt_succ_self _
    have alone {n : Node} {out : (Tokens.next l after).After} (hout : out.1 = after)
        (hn : l.token.value? = some n) (h : Gives (after.check >>= fun _ => .ok ([n], out)) nodes
          rest) : Derives o (.atom nested) depth (.next l after) nodes rest := by
      simp only [gives_unit, gives_ok, hout] at h
      obtain ⟨hcheck, rfl, rfl⟩ := h
      exact .value hn ⟨l, rfl, rfl, hcheck⟩
    have reference (hname : l.token.isName = true)
        (hplain : ∀ word, l.token = .keyword word → after.current ≠ .mark .openParen)
        (h : Gives (column l after >>= fun p => .ok ([Node.column p.1], p.2)) nodes rest) :
        Derives o (.atom nested) depth (.next l after) nodes rest := by
      simp only [gives_bind, gives_ok] at h
      obtain ⟨r, _, _, hr, rfl, rfl⟩ := h
      exact .reference hname hplain hr
    rw [atom.eq_def] at h
    simp only [] at h
    -- the cases of the token at the front, in the order of the reader
    split at h
    case h_1 literal hl =>
      simp only [gives_step, numberValue_eq_ok, gives_ok] at h
      obtain ⟨x, hx, _, hcheck, rfl, rfl⟩ := h
      exact .value (by simp [Tokens.current, hl, Token.value?, hx]) ⟨l, rfl, rfl, hcheck⟩
    case h_2 hl => exact alone rfl (by rw [hl]; rfl) h
    case h_3 hl => exact reference (by rw [hl]; rfl) (by simp [hl]) h
    case h_4 hl | h_5 hl | h_6 hl => exact alone rfl (by rw [hl]; rfl) h
    case h_10 word _ _ _ _ _ _ hl =>
      split at h
      next hopen =>
        simp only [gives_unit, gives_ok] at h
        obtain ⟨hcheck, rfl, rfl⟩ := h
        refine .word hl ?_ (by simpa using hopen) hcheck
        rw [hl]
        cases word <;> first | contradiction | rfl
      next hopen =>
        split at h
        next htype => exact reference (by rw [hl]; exact htype) (fun _ _ => by simpa using hopen) h
        next => exact (gives_error.1 h).elim
    case h_11 hl =>
      split at h
      next hword =>
        split at h
        · exact (gives_error.1 h).elim
        next hvalues =>
          simp only [gives_unit, gives_bind, gives_take, gives_ok, enter_eq_ok,
            expectMark_eq_ok] at h
          obtain ⟨hdepth, hcheck, s, t, ht, hs, _, _, hclose, rfl, rfl⟩ := h
          exact .valueSelect (by simpa using hvalues) hdepth ⟨l, rfl, by simp [hl], hcheck⟩
            (by simpa using hword) (hselect after hlt _ _ hs) hclose
      next hword =>
        simp only [gives_unit, gives_bind, gives_ok, enter_eq_ok] at h
        obtain ⟨hdepth, hcheck, inner, _, _, hinner, rfl, rfl⟩ := h
        exact .group hdepth ⟨l, rfl, by simp [hl], hcheck⟩ (by simpa using hword)
          (hoperands after hlt _ _ hinner)
    case h_13 hl =>
      split at h
      next number after' =>
        split at h
        next literal hnumber =>
          simp only [gives_step, numberValue_eq_ok, gives_ok] at h
          obtain ⟨_, hcheck, x, hx, _, hcheck', rfl, rfl⟩ := h
          exact .negative ⟨l, rfl, by simp [hl], hcheck⟩ hnumber hx ⟨number, rfl, rfl, hcheck'⟩
        next => exact (gives_error.1 h).elim
      next => exact (gives_error.1 h).elim
    all_goals exact (gives_error.1 h).elim

theorem arguments_sound
    (hexprs : ∀ t, t.length < ts.length → Sound o (.items .plain) (depth + 1) t) :
    Sound o .arguments depth ts := by
  intro (args : List Expr) rest (h : Gives (arguments o depth ts) args rest)
  rw [arguments] at h
  simp only [gives_unit, gives_bind, gives_take, gives_takeIf, gives_ok, enter_eq_ok,
    expectMark_eq_ok, gives_ite, Tokens.After.since] at h
  obtain ⟨hdepth, t, ht, hopen, h⟩ := h
  obtain ⟨hsome, ⟨hstar, t', ht', hstar', t'', ht'', hclose, rfl, rfl⟩ |
    ⟨hplain, list, t', ht', hlist, _, _, hclose, rfl, rfl⟩⟩ | ⟨t', ht', hclose, rfl, rfl⟩ := h
  · exact .allRows hdepth hopen hstar' hclose
  · refine .arguments hdepth hopen hsome ?_ (hexprs t ht _ _ (gives_expressions.1 hlist)) hclose
    simpa using hplain
  · exact .noArguments hdepth hopen hclose

theorem expression_sound {wildcard : Bool} (hoperands : Sound o (.operands false) depth ts) :
    Sound o (.expression wildcard) depth ts := by
  intro (e : Expr) rest (h : Gives (expression o depth wildcard ts) e rest)
  rw [expression] at h
  simp only [gives_bind, gives_ite, gives_error, gives_ok, and_false, false_or] at h
  obtain ⟨nodes, _, _, hnodes, hwildcard, rfl, rfl⟩ := h
  refine .expression (hoperands _ _ hnodes) fun hcontains => ?_
  simpa [hcontains] using hwildcard

theorem bare_sound (hexpr : Sound o (.expression true) depth ts) : Sound o .bare depth ts := by
  rintro e rest (⟨hstar, rfl⟩ | ⟨hlacks, he⟩)
  · exact .star hstar
  · exact .bare hlacks (hexpr _ _ he)

theorem output_sound (hbare : Sound o .bare depth ts) : Sound o .output depth ts := by
  intro (e : Expr) rest (h : Gives (output o depth ts) e rest)
  rw [output, gives_bind] at h
  obtain ⟨e, t, ht, he, h⟩ := h
  simp only [gives_bind, gives_takeIf, takeKeyword, gives_ite, gives_error, gives_ok, and_false,
    false_or, Tokens.After.since] at h
  obtain ⟨hplain, h⟩ := h
  have hread := gives_bare.2 he
  rcases h with ⟨has, rfl, rfl⟩ | ⟨t', ht', has, name, _, _, hname, rfl, rfl⟩
  · exact .output (hbare _ _ hread) has
  · refine .named (hbare _ _ hread) ?_ has hname
    have hword := has.current
    simpa [hword] using hplain

theorem source_sound (hselect : ∀ t, t.length < ts.length → Sound o .select (depth + 1) t) :
    Sound o .source depth ts := by
  intro (s : Source) rest (h : Gives (source o depth ts) s rest)
  rw [source] at h
  simp only [gives_ite, gives_unit, gives_bind, gives_take, gives_ok, enter_eq_ok,
    expectMark_eq_ok] at h
  rcases h with ⟨hword, hdepth, t, ht, hopen, s, t', ht', hs, t'', ht'', hclose, name, _, _,
    hname, rfl, rfl⟩ | ⟨-, table, t, ht, htable, name, _, _, hname, rfl, rfl⟩
  · refine .subSelect hdepth hopen ?_ (hselect t ht _ _ hs) hclose hname
    obtain ⟨l, rfl, -, -⟩ := hopen
    rw [Bool.and_eq_true] at hword
    exact beq_iff_eq.1 hword.2
  · exact .table htable hname

theorem joins_sound (hsource : ∀ t, t.length < ts.length → Sound o .source depth t)
    (hcondition : ∀ t, t.length < ts.length → Sound o (.optional .onWord .plain) depth t)
    (hjoins : ∀ t, t.length < ts.length → Sound o .joins depth t) : Sound o .joins depth ts := by
  intro (js : List Join) rest (h : Gives (joins o depth ts) js rest)
  rw [joins, gives_step] at h
  obtain ⟨found, hfound, h⟩ := h
  cases found with
  | none =>
    simp only [gives_ok] at h
    obtain ⟨rfl, rfl⟩ := h
    exact .noJoin hfound
  | some found =>
    obtain ⟨kind, t, ht⟩ := found
    simp only [gives_bind, gives_takeIf, takeKeyword, gives_ok, Tokens.After.since,
      Tokens.After.upTo] at h
    obtain ⟨s, t', ht', hs, condition, t'', ht'', hon, more, _, _, hmore, rfl, rfl⟩ := h
    have ht' := Nat.lt_trans ht' ht
    refine .join hfound (hsource t ht _ _ hs) (hcondition t' ht' _ _ ?_)
      (hjoins t'' (Nat.lt_of_le_of_lt ht'' ht') _ _ hmore)
    rcases hon with ⟨hlacks, rfl, rfl⟩ | ⟨t₁, ht₁, hword, e, _, _, he, rfl, rfl⟩
    · exact .inl ⟨hlacks, rfl, rfl⟩
    · exact .inr ⟨t₁, e, hword, he, rfl⟩

theorem orderKey_sound (hexpr : Sound o .plain depth ts) : Sound o .orderKey depth ts := by
  intro (key : OrderKey) rest (h : Gives (orderKey o depth ts) key rest)
  rw [orderKey] at h
  simp only [gives_bind, gives_takeIf, takeKeyword, gives_take, skipKeyword_eq_ok, gives_ok,
    Tokens.After.upTo] at h
  obtain ⟨e, t', _, he, asc, _, _, hasc, rfl, rfl⟩ := h
  rcases hasc with ⟨hdesc, _, _, ⟨b, hasc⟩, rfl, rfl⟩ | ⟨_, _, hdesc, rfl, rfl⟩
  · exact .ascending (hexpr _ _ he) hdesc hasc
  · exact .descending (hexpr _ _ he) hdesc

theorem select_sound (houtputs : ∀ t, t.length < ts.length → Sound o (.items .output) depth t)
    (hoptional : ∀ word k t, t.length < ts.length → Sound o (.optional word k) depth t) :
    Sound o .select depth ts := by
  intro (s : Select) rest (h : Gives (select o depth ts) s rest)
  rw [select] at h
  simp only [gives_bind, gives_take, gives_takeIf, takeKeyword, gives_ok, expectKeyword_eq_ok,
    Tokens.After.since, Tokens.After.upTo] at h
  obtain ⟨t₁, h₁, hselect, distinct, t₂, h₂, hdistinct, output, t₃, h₃, houtput, p, t₄, h₄,
    horigin, filter, t₅, h₅, hfilter, groupBy, t₆, h₆, hgroup, orderBy, t₇, h₇, horder, limit, _,
    h₈, hlimit, rfl, rfl⟩ := h
  have h₂ := Nat.lt_of_le_of_lt h₂ h₁
  have h₃ := Nat.lt_trans h₃ h₂
  have h₄ := Nat.lt_of_le_of_lt h₄ h₃
  have h₅ := Nat.lt_of_le_of_lt h₅ h₄
  have h₆ := Nat.lt_of_le_of_lt h₆ h₅
  have h₇ := Nat.lt_of_le_of_lt h₇ h₆
  have hdistinct : t₁.Maybe (· == .keyword .distinct) distinct t₂ := by
    rcases hdistinct with ⟨hlacks, rfl, rfl⟩ | ⟨_, _, hword, rfl, rfl⟩
    · exact .absent hlacks
    · exact .taken hword
  have hfrom : ∃ origin, Phrase.Reads o (.optional .fromWord .origin) depth t₃ origin t₄ ∧
      p = (origin.map Prod.fst, (origin.map Prod.snd).getD []) := by
    rcases horigin with ⟨hlacks, rfl, rfl⟩ | ⟨t, _, hword, s, t', _, hs, js, _, _, hjs, rfl, rfl⟩
    · exact ⟨none, .inl ⟨hlacks, rfl, rfl⟩, rfl⟩
    · exact ⟨some (s, js), .inr ⟨t, (s, js), hword, ⟨t', hs, hjs⟩, rfl⟩, rfl⟩
  have hfilter : Phrase.Reads o (.optional .whereWord .plain) depth t₄ filter t₅ := by
    rw [clause] at hfilter
    simp only [gives_bind, gives_takeIf, takeKeyword, gives_ok, Tokens.After.since,
      Tokens.After.upTo] at hfilter
    rcases hfilter with ⟨hlacks, rfl, rfl⟩ | ⟨t, _, hword, e, _, _, he, rfl, rfl⟩
    · exact .inl ⟨hlacks, rfl, rfl⟩
    · exact .inr ⟨t, e, hword, he, rfl⟩
  have hkeys : ∃ keys, Phrase.Reads o (.optional .group (.after .byWord (.items .plain))) depth t₅
      keys t₆ ∧ groupBy = keys.getD [] := by
    rcases hgroup with ⟨hlacks, rfl, rfl⟩ | ⟨t, _, hword, t', _, hby, _, _, _, hes, rfl, rfl⟩
    · exact ⟨none, .inl ⟨hlacks, rfl, rfl⟩, rfl⟩
    · exact ⟨some groupBy, .inr ⟨t, groupBy, hword, ⟨t', hby, gives_expressions.1 hes⟩, rfl⟩, rfl⟩
  have hsorts : ∃ keys, Phrase.Reads o (.optional .order (.after .byWord (.items .orderKey))) depth
      t₆ keys t₇ ∧ orderBy = keys.getD [] := by
    rcases horder with ⟨hlacks, rfl, rfl⟩ | ⟨t, _, hword, t', _, hby, _, _, _, hks, rfl, rfl⟩
    · exact ⟨none, .inl ⟨hlacks, rfl, rfl⟩, rfl⟩
    · exact ⟨some orderBy, .inr ⟨t, orderBy, hword, ⟨t', hby, gives_orderKeys.1 hks⟩, rfl⟩, rfl⟩
  have hcount : Phrase.Reads o (.optional .limit .rowCount) depth t₇ limit rest := by
    rcases hlimit with ⟨hlacks, rfl, rfl⟩ | ⟨t, _, hword, n, _, _, hn, rfl, rfl⟩
    · exact .inl ⟨hlacks, rfl, rfl⟩
    · exact .inr ⟨t, n, hword, hn, rfl⟩
  obtain ⟨origin, hfrom, rfl⟩ := hfrom
  obtain ⟨keys, hkeys, rfl⟩ := hkeys
  obtain ⟨sorts, hsorts, rfl⟩ := hsorts
  exact .select hselect hdistinct (houtputs t₂ h₂ _ _ (gives_outputs.1 houtput))
    (hoptional _ _ t₃ h₃ _ _ hfrom) (hoptional _ _ t₄ h₄ _ _ hfilter)
    (hoptional _ _ t₅ h₅ _ _ hkeys) (hoptional _ _ t₆ h₆ _ _ hsorts)
    (hoptional _ _ t₇ h₇ _ _ hcount)

theorem items_sound {item : Phrase} (hitem : Sound o item depth ts)
    (hitems : ∀ t, t.length < ts.length → Sound o (.items item) depth t) :
    Sound o (.items item) depth ts := by
  intro as rest h
  cases h with
  | last hfirst hrest => exact .last (hitem _ _ hfirst) hrest
  | @more _ t t' _ _ _ hfirst hcomma hmore =>
    have hfirst := hitem _ _ hfirst
    have hlt := Nat.lt_of_lt_of_le hcomma.length hfirst.tail.length
    exact .more hfirst hcomma (hitems t' hlt _ _ hmore)

end Read

/-- How the readers call each other without taking a token. -/
def Phrase.rank : Phrase → Nat
  | atom _       => 1
  | operand _    => 2
  | operands _   => 3
  | expression _ => 4
  | bare         => 5
  | output       => 6
  | orderKey     => 5
  | origin       => 1
  | items item   => item.rank + 1
  | _            => 0

open Phrase Read in
/-- **What a reader gives starts with its phrase.** -/
theorem Derives.of_reads (o : ParserOptions) : ∀ (k : Phrase) (depth : Nat) (ts : Tokens),
    Sound o k depth ts
  | .operands nested, depth, ts => operands_sound (of_reads o (.operand nested) depth ts)
      fun t _ => of_reads o (.following nested) depth t
  | .following nested, depth, ts => following_sound fun t _ => of_reads o (.operands nested) depth t
  | .operand nested, depth, ts => operand_sound (of_reads o (.atom nested) depth ts)
      fun t _ => of_reads o .arguments depth t
  | .atom nested, depth, ts => atom_sound (fun t _ => of_reads o (.operands true) (depth + 1) t)
      fun t _ => of_reads o .select (depth + 1) t
  | .arguments, depth, ts => arguments_sound fun t _ => of_reads o (.items .plain) (depth + 1) t
  | .expression _, depth, ts => expression_sound (of_reads o (.operands false) depth ts)
  | .bare, depth, ts => bare_sound (of_reads o (.expression true) depth ts)
  | .output, depth, ts => output_sound (of_reads o .bare depth ts)
  | .source, depth, ts => source_sound fun t _ => of_reads o .select (depth + 1) t
  | .joins, depth, ts => joins_sound (fun t _ => of_reads o .source depth t)
      (fun t _ => of_reads o (.optional .onWord .plain) depth t)
      fun t _ => of_reads o .joins depth t
  | .origin, depth, ts => by
    rintro ⟨s, js⟩ rest ⟨t, hs, hjs⟩
    have hs := of_reads o .source depth ts s t hs
    have hle := hs.tail.length
    exact .origin hs (of_reads o .joins depth t js rest hjs)
  | .orderKey, depth, ts => orderKey_sound (of_reads o .plain depth ts)
  | .rowCount, _, _ => fun _ _ h => .rowCount h
  | .select, depth, ts => select_sound (fun t _ => of_reads o (.items .output) depth t)
      fun word k t _ => of_reads o (.optional word k) depth t
  | .row, depth, ts => by
    rintro row rest ⟨t, t', h, hrow, hclose⟩
    have hlt := h.length
    exact .row h (of_reads o (.items .plain) depth t row t' (gives_expressions.1 hrow)) hclose
  | .assignment, depth, ts => by
    rintro ⟨column, _, value, _⟩ rest ⟨t, t', h, hsign, hvalue, rfl, rfl⟩
    have hlt := Nat.lt_trans hsign.length h.prop
    exact .assignment h hsign (of_reads o .plain depth t' value rest hvalue)
  | .name, _, _ => fun _ _ h => .name h
  | .column, _, _ => fun _ _ h => .column h
  | .columns, depth, ts => by
    rintro names rest (⟨h, rfl, rfl⟩ | ⟨t, t', h, hnames, hclose⟩)
    · exact .noColumns h
    · have hlt := h.length
      have hnames := of_reads o (.items .name) depth t names t' (gives_separated.1 hnames)
      exact .columns h hnames hclose
  | .items item, depth, ts => items_sound (of_reads o item depth ts)
      fun t _ => of_reads o (.items item) depth t
  | .optional _ k, depth, ts => by
    rintro a rest (⟨h, rfl, rfl⟩ | ⟨t, b, h, hb, rfl⟩)
    · exact .absent h
    · have hlt := h.length
      exact .present h (of_reads o k depth t b rest hb)
  | .after _ k, depth, ts => by
    rintro a rest ⟨t, h, ha⟩
    have hlt := h.length
    exact .after h (of_reads o k depth t a rest ha)
termination_by k _ ts => (ts.length, k.rank)
decreasing_by
  all_goals
    rw [Prod.lex_def]
    first
    | exact .inl (by omega)
    | exact .inr ⟨rfl, by simp [Phrase.rank]⟩
    | simp [Phrase.rank]; omega

/-! ### What starts with a phrase is read -/

namespace Read

variable {o : ParserOptions} {depth : Nat} {nested : Bool} {ts t rest : Tokens}

theorem following_of_ends (h : ts.current.ends = true) :
    Gives (following o depth false ts) [] ts := by
  cases ts with
  | finish | broken => rw [following] <;> first | exact gives_ok.2 ⟨rfl, rfl⟩ | simp
  | next l after =>
    obtain ⟨start, gap, spelling, token⟩ := l
    simp only [Tokens.current] at h
    rw [following]
    dsimp only
    split
    case h_6 m _ _ =>
      cases hop : m.operator? with
      | some op => simp [Token.ends, hop] at h
      | none => exact gives_ok.2 ⟨rfl, rfl⟩
    case h_13 word _ _ _ _ _ _ =>
      have htype : word.isType = false := by
        simp only [Token.ends, Bool.and_eq_true, Bool.not_eq_true'] at h
        exact h.1
      rw [if_neg (by simp [htype])]
      exact gives_ok.2 ⟨rfl, rfl⟩
    all_goals first
      | exact gives_ok.2 ⟨rfl, rfl⟩
      | cases h

theorem following_of_closes (h : ts.Takes (· == .mark .closeParen) rest) :
    Gives (following o depth true ts) [] rest := by
  obtain ⟨⟨start, gap, spelling, token⟩, rfl, hp, hcheck⟩ := h
  obtain rfl : token = .mark .closeParen := beq_iff_eq.1 hp
  rw [following]
  exact gives_unit.2 ⟨hcheck, gives_ok.2 ⟨rfl, rfl⟩⟩

theorem following_of_operator {op : Operator} {more : List Node}
    (h : ts.Takes (·.operator? == some op) t)
    (hmore : Gives (operands o depth nested t) more rest) :
    Gives (following o depth nested ts) (.operator op :: more) rest := by
  obtain ⟨⟨start, gap, spelling, token⟩, rfl, hp, hcheck⟩ := h
  have hop : token.operator? = some op := beq_iff_eq.1 hp
  have hthen {out : List Node × t.After → (Tokens.next ⟨start, gap, spelling, token⟩ t).UpTo}
      (hout : ∀ p, (out p).1 = p.2.1) :
      Gives (t.check >>= fun _ => operands o depth nested t >>= fun p =>
        .ok (Node.operator op :: p.1, out p)) (.operator op :: more) rest := by
    simp only [gives_unit, gives_bind, gives_ok, hout]
    exact ⟨hcheck, more, rest, hmore.prop, hmore, rfl, rfl⟩
  rw [following]
  dsimp only
  split
  case h_1 | h_2 =>
    obtain rfl := Option.some.inj hop
    exact hthen fun _ => rfl
  case h_6 m _ _ =>
    have hop : m.operator? = some op := hop
    rw [hop]
    exact hthen fun _ => rfl
  case h_13 word hand hor _ _ _ _ => cases word <;> contradiction
  case h_14 => cases token <;> first | cases hop | simp_all
  all_goals cases hop

theorem operand_of_atom {nodes : List Node} (h : Gives (atom o depth nested ts) nodes rest)
    (hrest : rest.current ≠ .mark .openParen) : Gives (operand o depth nested ts) nodes rest := by
  rw [operand]
  simp only [gives_bind]
  refine ⟨nodes, rest, h.prop, h, ?_⟩
  split
  next hopen => exact absurd hopen hrest
  next => exact gives_ok.2 ⟨rfl, rfl⟩

theorem operand_of_call {nodes : List Node} {r : ColumnRef} {args : List Expr}
    (h : Gives (atom o depth nested ts) nodes t) (hname : functionName? nodes = some r)
    (hargs : Gives (arguments o depth t) args rest) (hopen : t.current = .mark .openParen)
    (hrest : rest.current ≠ .mark .openParen) :
    Gives (operand o depth nested ts) [callOf r args] rest := by
  rw [operand]
  simp only [gives_bind]
  refine ⟨nodes, t, h.prop, h, ?_⟩
  rw [hopen, hname]
  simp only [gives_bind]
  refine ⟨args, rest, hargs.prop, hargs, ?_⟩
  split
  next h => exact absurd h hrest
  next => exact gives_ok.2 ⟨rfl, rfl⟩

theorem atom_of_value {n : Node} (hvalue : ts.current.value? = some n)
    (h : ts.Takes (fun _ => true) rest) : Gives (atom o depth nested ts) [n] rest := by
  obtain ⟨⟨start, gap, spelling, token⟩, rfl, -, hcheck⟩ := h
  have halone {n' : Node} (hn : token.value? = some n')
      {out : (Tokens.next ⟨start, gap, spelling, token⟩ rest).After} (hout : out.1 = rest) :
      Gives (rest.check >>= fun _ => .ok ([n'], out)) [n] rest := by
    obtain rfl := Option.some.inj (hn.symm.trans hvalue)
    exact gives_unit.2 ⟨hcheck, gives_ok.2 ⟨rfl, hout.symm⟩⟩
  simp only [Tokens.current] at hvalue
  rw [atom.eq_def]
  dsimp only
  cases token with
  | number literal =>
    obtain ⟨x, hx, rfl⟩ := Option.map_eq_some_iff.1 hvalue
    simp only [gives_step, numberValue_eq_ok]
    exact ⟨x, hx, (), hcheck, gives_ok.2 ⟨rfl, rfl⟩⟩
  | string => exact halone rfl rfl
  | keyword word => cases word <;> first | exact halone rfl rfl | cases hvalue
  | _ => cases hvalue

theorem atom_of_reference {l : Lexeme} {r : ColumnRef} (hname : l.token.isName = true)
    (hplain : ∀ word, l.token = .keyword word → t.current ≠ .mark .openParen)
    (h : Gives (column l t) r rest) : Gives (atom o depth nested (.next l t)) [.column r] rest := by
  have hreference :
      Gives (column l t >>= fun p => .ok ([Node.column p.1], p.2)) [.column r] rest := by
    simp only [gives_bind, gives_ok]
    exact ⟨r, rest, h.prop, h, rfl, rfl⟩
  rw [atom.eq_def]
  dsimp only
  cases hl : l.token with
  | name => exact hreference
  | keyword word =>
    have htype : word.isType = true := by
      rw [hl] at hname
      exact hname
    have hopen : (t.current == .mark .openParen) = false := by simpa using hplain word hl
    cases word <;> first | (simp only [hopen]; exact hreference) | cases htype
  | _ =>
    rw [hl] at hname
    cases hname

theorem atom_of_word {l : Lexeme} {word : Keyword} (hword : l.token = .keyword word)
    (hother : l.token.isExpressionWord = false) (hopen : rest.current = .mark .openParen)
    (h : rest.check = .ok ()) : Gives (atom o depth nested (.next l rest))
      [.column { qualifier := none, column := word.text, offset := l.start }] rest := by
  rw [hword] at hother
  rw [atom.eq_def]
  dsimp only
  rw [hword]
  cases word <;> first
    | (simp only [hopen, beq_self_eq_true, if_true]
       exact gives_unit.2 ⟨h, gives_ok.2 ⟨rfl, rfl⟩⟩)
    | cases hother

theorem atom_of_negative {literal : String} {x : Float} (h : ts.Takes (· == .mark .minus) t)
    (hnumber : t.current = .number literal) (hvalue : Number.ofLiteral? literal = some x)
    (hrest : t.Takes (fun _ => true) rest) :
    Gives (atom o depth nested ts) [.number (-x)] rest := by
  obtain ⟨⟨start, gap, spelling, token⟩, rfl, hp, hcheck⟩ := h
  obtain ⟨⟨start', gap', spelling', token'⟩, rfl, -, hcheck'⟩ := hrest
  obtain rfl : token = .mark .minus := beq_iff_eq.1 hp
  obtain rfl : token' = .number literal := hnumber
  rw [atom.eq_def]
  simp only [gives_step, numberValue_eq_ok]
  exact ⟨(), hcheck, x, hvalue, (), hcheck', gives_ok.2 ⟨rfl, rfl⟩⟩

theorem atom_of_group {nodes : List Node} (hdepth : depth < o.maxDepth)
    (h : ts.Takes (· == .mark .openParen) t) (hplain : t.current ≠ .keyword .select)
    (hnodes : Gives (operands o (depth + 1) true t) nodes rest) :
    Gives (atom o depth nested ts) (.openParen :: nodes ++ [.closeParen]) rest := by
  obtain ⟨⟨start, gap, spelling, token⟩, rfl, hp, hcheck⟩ := h
  obtain rfl : token = .mark .openParen := beq_iff_eq.1 hp
  have hword : (t.current == .keyword .select) = false := by simpa using hplain
  rw [atom.eq_def]
  simp only [hword, Bool.false_eq_true, if_false, gives_unit, gives_bind, gives_ok, enter_eq_ok]
  exact ⟨hdepth, hcheck, nodes, rest, hnodes.prop, hnodes, rfl, rfl⟩

theorem atom_of_select {t' : Tokens} {s : Select} (hvalues : o.subSelectValues = true)
    (hdepth : depth < o.maxDepth) (h : ts.Takes (· == .mark .openParen) t)
    (hword : t.current = .keyword .select) (hs : Gives (select o (depth + 1) t) s t')
    (hclose : t'.Takes (· == .mark .closeParen) rest) :
    Gives (atom o depth nested ts) [.select s] rest := by
  obtain ⟨⟨start, gap, spelling, token⟩, rfl, hp, hcheck⟩ := h
  obtain rfl : token = .mark .openParen := beq_iff_eq.1 hp
  rw [atom.eq_def]
  simp only [hword, hvalues, beq_self_eq_true, Bool.not_true, Bool.false_eq_true, if_true,
    if_false, gives_unit, gives_bind, gives_take, gives_ok, enter_eq_ok, expectMark_eq_ok]
  exact ⟨hdepth, hcheck, s, t', hs.prop, hs, rest, hclose.length, hclose, rfl, rfl⟩

theorem arguments_of_none (hdepth : depth < o.maxDepth) (h : ts.Takes (· == .mark .openParen) t)
    (hclose : t.Takes (· == .mark .closeParen) rest) : Gives (arguments o depth ts) [] rest := by
  rw [arguments]
  simp only [gives_unit, gives_take, gives_takeIf, enter_eq_ok, expectMark_eq_ok]
  exact ⟨hdepth, t, h.length, h, .inr ⟨rest, hclose.length, hclose, gives_ok.2 ⟨rfl, rfl⟩⟩⟩

theorem arguments_of_star {t' : Tokens} (hdepth : depth < o.maxDepth)
    (h : ts.Takes (· == .mark .openParen) t) (hstar : t.Takes (· == .mark .star) t')
    (hclose : t'.Takes (· == .mark .closeParen) rest) : Gives (arguments o depth ts) [] rest := by
  obtain ⟨l, rfl, hp, -⟩ := id hstar
  have hp' : l.token = .mark .star := beq_iff_eq.1 hp
  have hsecond : t'.current = .mark .closeParen := beq_iff_eq.1 hclose.current
  rw [arguments]
  simp only [gives_unit, gives_take, gives_takeIf, gives_ite, enter_eq_ok, expectMark_eq_ok]
  refine ⟨hdepth, _, h.length, h, .inl ⟨?_, .inl ⟨?_, t', hstar.length, hstar, rest, hclose.length,
    hclose, gives_ok.2 ⟨rfl, rfl⟩⟩⟩⟩
  · rw [Tokens.lacks_next, hp']
    rfl
  · rw [Bool.and_eq_true, beq_iff_eq, beq_iff_eq]
    exact ⟨hp', hsecond⟩

theorem arguments_of_list {t' : Tokens} {args : List Expr} (hdepth : depth < o.maxDepth)
    (h : ts.Takes (· == .mark .openParen) t) (hsome : t.Lacks (· == .mark .closeParen))
    (hplain : ¬ (t.current = .mark .star ∧ t.second = .mark .closeParen))
    (hargs : Gives (expressions o (depth + 1) t) args t')
    (hclose : t'.Takes (· == .mark .closeParen) rest) : Gives (arguments o depth ts) args rest := by
  rw [arguments]
  simp only [gives_unit, gives_bind, gives_take, gives_takeIf, gives_ite, gives_ok, enter_eq_ok,
    expectMark_eq_ok]
  exact ⟨hdepth, t, h.length, h, .inl ⟨hsome, .inr ⟨by simpa using hplain, args, t', hargs.prop,
    hargs, rest, hclose.length, hclose, rfl, rfl⟩⟩⟩

theorem expression_of_operands {wildcard : Bool} {nodes : List Node}
    (h : Gives (operands o depth false ts) nodes rest)
    (hwildcard : (Expr.ofNodes nodes (ts.textUntil rest) ts.start).containsWildcard = true →
      wildcard = true ∧ (Expr.ofNodes nodes (ts.textUntil rest) ts.start).isWildcard = true) :
    Gives (expression o depth wildcard ts) (.ofNodes nodes (ts.textUntil rest) ts.start) rest := by
  rw [expression]
  simp only [gives_bind, gives_ite, gives_error, gives_ok, and_false, false_or]
  refine ⟨nodes, rest, h.prop, h, ?_, rfl, rfl⟩
  simpa using hwildcard

theorem output_of_bare {e : Expr} (h : Phrase.Reads o .bare depth ts e rest)
    (has : rest.Lacks (· == .keyword .asWord)) : Gives (output o depth ts) e rest := by
  have hbare := gives_bare.1 h
  have hword : ¬ (rest.current == .keyword .asWord && e.isWildcard) = true := by
    have hcurrent : (rest.current == .keyword .asWord) = false := has.current rfl
    rw [hcurrent]
    exact Bool.false_ne_true
  rw [output]
  simp only [gives_bind]
  refine ⟨e, rest, hbare.prop, hbare, ?_⟩
  rw [if_neg hword]
  simp only [takeKeyword, gives_takeIf]
  exact .inl ⟨has, gives_ok.2 ⟨rfl, rfl⟩⟩

theorem output_of_named {e : Expr} {name : String} {t' : Tokens}
    (h : Phrase.Reads o .bare depth ts e t) (hplain : e.isWildcard = false)
    (has : t.Takes (· == .keyword .asWord) t') (hname : Gives (expectName t') name rest) :
    Gives (output o depth ts) { e with aliasName := some name } rest := by
  have hbare := gives_bare.1 h
  have hword : ¬ (t.current == .keyword .asWord && e.isWildcard) = true := by
    rw [hplain, Bool.and_false]
    exact Bool.false_ne_true
  rw [output]
  simp only [gives_bind]
  refine ⟨e, t, hbare.prop, hbare, ?_⟩
  rw [if_neg hword]
  simp only [takeKeyword, gives_takeIf, gives_bind]
  exact .inr ⟨t', has.length, has, name, rest, hname.prop, hname, gives_ok.2 ⟨rfl, rfl⟩⟩

theorem source_of_table {table : String} {aliasName : Option String}
    (h : Gives (expectName ts) table t) (halias : Gives (sourceAlias t) aliasName rest) :
    Gives (source o depth ts) (.table table aliasName none ts.start) rest := by
  have hplain : ¬ (ts.current == .mark .openParen && ts.second == .keyword .select) = true := by
    intro hopen
    rw [Bool.and_eq_true, beq_iff_eq] at hopen
    have hname := (gives_expectName.1 h).1.current
    rw [hopen.1] at hname
    cases hname
  rw [source, if_neg hplain]
  simp only [gives_bind, gives_ok]
  exact ⟨table, t, h.prop, h, aliasName, rest, halias.prop, halias, rfl, rfl⟩

theorem source_of_select {t' t'' : Tokens} {s : Select} {aliasName : Option String}
    (hdepth : depth < o.maxDepth) (h : ts.Takes (· == .mark .openParen) t)
    (hword : t.current = .keyword .select) (hs : Gives (select o (depth + 1) t) s t')
    (hclose : t'.Takes (· == .mark .closeParen) t'')
    (halias : Gives (sourceAlias t'') aliasName rest) :
    Gives (source o depth ts) (.select s aliasName ts.start) rest := by
  have hopen : (ts.current == .mark .openParen && ts.second == .keyword .select) = true := by
    obtain ⟨l, rfl, hp, -⟩ := id h
    rw [Bool.and_eq_true]
    exact ⟨hp, beq_iff_eq.2 hword⟩
  rw [source, if_pos hopen]
  simp only [gives_unit, gives_bind, gives_take, gives_ok, enter_eq_ok, expectMark_eq_ok]
  exact ⟨hdepth, t, h.length, h, s, t', hs.prop, hs, t'', hclose.length, hclose, aliasName, rest,
    halias.prop, halias, rfl, rfl⟩

theorem joins_of_join {t' t'' : Tokens} {kind : JoinKind} {s : Source} {condition : Option Expr}
    {more : List Join} {hlt : t.length < ts.length}
    (h : joinKind ts = .ok (some (kind, ⟨t, hlt⟩))) (hs : Gives (source o depth t) s t')
    (hcondition : Phrase.Reads o (.optional .onWord .plain) depth t' condition t'')
    (hmore : Gives (joins o depth t'') more rest) :
    Gives (joins o depth ts) (⟨s, kind, condition⟩ :: more) rest := by
  rw [joins, gives_step]
  refine ⟨_, h, ?_⟩
  simp only [gives_bind, gives_takeIf, takeKeyword, gives_ok, Tokens.After.since,
    Tokens.After.upTo]
  have hlast := hmore.prop
  rcases hcondition with ⟨hlacks, rfl, rfl⟩ | ⟨t₁, e, hword, he, rfl⟩
  · exact ⟨s, _, hs.prop, hs, none, _, Nat.le_refl _, .inl ⟨hlacks, rfl, rfl⟩, more, rest, hlast,
      hmore, rfl, rfl⟩
  · have he' : Gives (expression o depth false t₁) e t'' := he
    have hle := Nat.le_of_lt (Nat.lt_trans he'.prop hword.length)
    exact ⟨s, t', hs.prop, hs, some e, t'', hle, .inr ⟨t₁, hword.length, hword, e, t'', he'.prop,
      he', rfl, rfl⟩, more, rest, hlast, hmore, rfl, rfl⟩

theorem orderKey_of_expression {e : Expr} {ascending : Bool}
    (h : Gives (expression o depth false ts) e t)
    (hkey : t.Takes (· == .keyword .desc) rest ∧ ascending = false ∨
      t.Lacks (· == .keyword .desc) ∧ (∃ b, t.Maybe (· == .keyword .asc) b rest) ∧
        ascending = true) : Gives (orderKey o depth ts) ⟨e, ascending⟩ rest := by
  rw [orderKey]
  simp only [gives_bind, gives_takeIf, takeKeyword, gives_take, skipKeyword_eq_ok, gives_ok,
    Tokens.After.upTo]
  rcases hkey with ⟨hdesc, rfl⟩ | ⟨hdesc, ⟨b, hasc⟩, rfl⟩
  · exact ⟨e, t, h.prop, h, false, rest, Nat.le_of_lt hdesc.length,
      .inr ⟨rest, hdesc.length, hdesc, rfl, rfl⟩, rfl, rfl⟩
  · exact ⟨e, t, h.prop, h, true, rest, hasc.tail.length,
      .inl ⟨hdesc, rest, hasc.tail.length, ⟨b, hasc⟩, rfl, rfl⟩, rfl, rfl⟩

theorem clause_of_optional {word : Keyword} {e : Option Expr}
    (h : Phrase.Reads o (.optional word .plain) depth ts e rest) :
    Gives (clause o depth word ts) e rest := by
  rw [clause]
  simp only [gives_bind, gives_takeIf, takeKeyword, gives_ok, Tokens.After.since,
    Tokens.After.upTo]
  rcases h with ⟨hlacks, rfl, rfl⟩ | ⟨t, e, hword, he, rfl⟩
  · exact .inl ⟨hlacks, rfl, rfl⟩
  · have he : Gives (expression o depth false t) e rest := he
    exact .inr ⟨t, hword.length, hword, e, rest, he.prop, he, rfl, rfl⟩

theorem select_of_clauses {t₁ t₂ t₃ t₄ t₅ t₆ t₇ : Tokens} {distinct : Bool} {output : List Expr}
    {origin : Option (Source × List Join)} {filter : Option Expr} {groupBy : Option (List Expr)}
    {orderBy : Option (List OrderKey)} {limit : Option Nat}
    (h : ts.Takes (· == .keyword .select) t₁)
    (hdistinct : t₁.Maybe (· == .keyword .distinct) distinct t₂)
    (houtput : Phrase.Reads o (.items .output) depth t₂ output t₃)
    (horigin : Phrase.Reads o (.optional .fromWord .origin) depth t₃ origin t₄)
    (hfilter : Phrase.Reads o (.optional .whereWord .plain) depth t₄ filter t₅)
    (hgroup : Phrase.Reads o (.optional .group (.after .byWord (.items .plain))) depth t₅ groupBy
      t₆)
    (horder : Phrase.Reads o (.optional .order (.after .byWord (.items .orderKey))) depth t₆ orderBy
      t₇)
    (hlimit : Phrase.Reads o (.optional .limit .rowCount) depth t₇ limit rest)
    (h₄ : t₄.length ≤ t₃.length) (h₆ : t₆.length ≤ t₅.length) (h₇ : t₇.length ≤ t₆.length)
    (h₈ : rest.length ≤ t₇.length) :
    Gives (select o depth ts) ⟨ts.textUntil rest, distinct, output, origin.map Prod.fst,
      (origin.map Prod.snd).getD [], filter, groupBy.getD [], orderBy.getD [], limit, ts.start⟩
      rest := by
  have houtput : Gives (outputs o depth t₂) output t₃ := gives_outputs.2 houtput
  have hwhere := clause_of_optional hfilter
  rw [select]
  simp only [gives_bind, gives_take, gives_takeIf, takeKeyword, gives_ok, expectKeyword_eq_ok,
    Tokens.After.since, Tokens.After.upTo]
  refine ⟨t₁, h.length, h, distinct, t₂, hdistinct.tail.length, ?_, output, t₃, houtput.prop,
    houtput, (origin.map Prod.fst, (origin.map Prod.snd).getD []), t₄, h₄, ?_, filter, t₅,
    hwhere.prop, hwhere, groupBy.getD [], t₆, h₆, ?_, orderBy.getD [], t₇, h₇, ?_, limit, rest, h₈,
    ?_, rfl, rfl⟩
  · cases hdistinct with
    | taken hword => exact .inr ⟨t₂, hword.length, hword, rfl, rfl⟩
    | absent hlacks => exact .inl ⟨hlacks, rfl, rfl⟩
  · rcases horigin with ⟨hlacks, rfl, rfl⟩ | ⟨t, ⟨s, js⟩, hword, ⟨t', hs, hjs⟩, rfl⟩
    · exact .inl ⟨hlacks, rfl, rfl⟩
    · exact .inr ⟨t, hword.length, hword, s, t', hs.prop, hs, js, t₄, hjs.prop, hjs, rfl, rfl⟩
  · rcases hgroup with ⟨hlacks, rfl, rfl⟩ | ⟨t, es, hword, ⟨t', hby, hes⟩, rfl⟩
    · exact .inl ⟨hlacks, rfl, rfl⟩
    · have hes : Gives (expressions o depth t') es t₆ := gives_expressions.2 hes
      exact .inr ⟨t, hword.length, hword, t', hby.length, hby, es, t₆, hes.prop, hes, rfl, rfl⟩
  · rcases horder with ⟨hlacks, rfl, rfl⟩ | ⟨t, ks, hword, ⟨t', hby, hks⟩, rfl⟩
    · exact .inl ⟨hlacks, rfl, rfl⟩
    · have hks : Gives (orderKeys o depth t') ks t₇ := gives_orderKeys.2 hks
      exact .inr ⟨t, hword.length, hword, t', hby.length, hby, ks, t₇, hks.prop, hks, rfl, rfl⟩
  · rcases hlimit with ⟨hlacks, rfl, rfl⟩ | ⟨t, n, hword, hn, rfl⟩
    · exact .inl ⟨hlacks, rfl, rfl⟩
    · have hn : Gives (rowCount t) n rest := hn
      exact .inr ⟨t, hword.length, hword, n, rest, hn.prop, hn, rfl, rfl⟩

end Read

/-- Arguments start with their opening parenthesis. -/
theorem Derives.current_of_arguments {o : ParserOptions} {depth : Nat} {ts rest : Tokens}
    {args : List Expr} (h : Derives o .arguments depth ts args rest) :
    ts.current = .mark .openParen := by
  cases h with
  | noArguments _ h | allRows _ h | arguments _ h => exact beq_iff_eq.1 h.current

open Read in
/-- **What starts with a phrase is read as the phrase.** -/
theorem Derives.reads {o : ParserOptions} {k : Phrase} {depth : Nat} {ts rest : Tokens}
    {a : k.Value} (h : Derives o k depth ts a rest) : k.Reads o depth ts a rest := by
  induction h with
  | @operands nested depth ts t rest first more _ _ ih ih' =>
    have hfirst : Gives (Read.operand o depth nested ts) first t := ih
    have hmore : Gives (Read.following o depth nested t) more rest := ih'
    show Gives (Read.operands o depth nested ts) (first ++ more) rest
    rw [Read.operands]
    simp only [gives_bind, gives_ok]
    exact ⟨first, t, hfirst.prop, hfirst, more, rest, hmore.prop, hmore, rfl, rfl⟩
  | ends h => exact following_of_ends h
  | closes h => exact following_of_closes h
  | operator h _ ih => exact following_of_operator h ih
  | operand _ hrest ih => exact operand_of_atom ih hrest
  | call _ hname hargs hrest ih ih' =>
    exact operand_of_call ih hname ih' hargs.current_of_arguments hrest
  | value hvalue h => exact atom_of_value hvalue h
  | reference hname hplain h => exact atom_of_reference hname hplain h
  | word hword hother hopen h => exact atom_of_word hword hother hopen h
  | negative h hnumber hvalue hrest => exact atom_of_negative h hnumber hvalue hrest
  | group hdepth h hplain _ ih => exact atom_of_group hdepth h hplain ih
  | valueSelect hvalues hdepth h hword _ hclose ih =>
    exact atom_of_select hvalues hdepth h hword ih hclose
  | noArguments hdepth h hclose => exact arguments_of_none hdepth h hclose
  | allRows hdepth h hstar hclose => exact arguments_of_star hdepth h hstar hclose
  | arguments hdepth h hsome hplain _ hclose ih =>
    exact arguments_of_list hdepth h hsome hplain (gives_expressions.2 ih) hclose
  | expression _ hwildcard ih => exact expression_of_operands ih hwildcard
  | star h => exact .inl ⟨h, rfl⟩
  | bare hplain _ ih => exact .inr ⟨hplain, ih⟩
  | output _ hrest ih => exact output_of_bare ih hrest
  | named _ hplain has hname ih => exact output_of_named ih hplain has hname
  | table h halias => exact source_of_table h halias
  | subSelect hdepth h hword _ hclose halias ih =>
    exact source_of_select hdepth h hword ih hclose halias
  | @noJoin depth ts h =>
    show Gives (Read.joins o depth ts) [] ts
    rw [Read.joins, gives_step]
    exact ⟨none, h, gives_ok.2 ⟨rfl, rfl⟩⟩
  | join h _ _ _ ih ih' ih'' => exact joins_of_join h ih ih' ih''
  | origin _ _ ih ih' => exact ⟨_, ih, ih'⟩
  | descending _ hdesc ih => exact orderKey_of_expression ih (.inl ⟨hdesc, rfl⟩)
  | ascending _ hdesc hasc ih => exact orderKey_of_expression ih (.inr ⟨hdesc, ⟨_, hasc⟩, rfl⟩)
  | rowCount h => exact h
  | select h hdistinct houtput horigin hfilter hgroup horder hlimit ih ih₁ ih₂ ih₃ ih₄ ih₅ =>
    exact select_of_clauses h hdistinct ih ih₁ ih₂ ih₃ ih₄ ih₅ horigin.tail.length
      hgroup.tail.length horder.tail.length hlimit.tail.length
  | row h _ hclose ih => exact ⟨_, _, h, gives_expressions.2 ih, hclose⟩
  | assignment h hsign _ ih => exact ⟨_, _, h, hsign, ih, rfl, rfl⟩
  | name h => exact h
  | column h => exact h
  | noColumns h => exact .inl ⟨h, rfl, rfl⟩
  | columns h _ hclose ih => exact .inr ⟨_, _, h, gives_separated.2 ih, hclose⟩
  | last _ hrest ih => exact .last ih hrest
  | more _ hcomma _ ih ih' => exact .more ih hcomma ih'
  | absent h => exact .inl ⟨h, rfl, rfl⟩
  | present h _ ih => exact .inr ⟨_, _, h, ih, rfl⟩
  | after h _ ih => exact ⟨_, h, ih⟩

/-! ### Statements -/

/-- The tokens start with a statement, and what is left after it. -/
inductive Forms (o : ParserOptions) : Tokens → Statement → Tokens → Prop
  | select {ts rest : Tokens} {s : Select} (h : Derives o .select 0 ts s rest) :
      Forms o ts (.select s) rest
  | insert {ts t₁ t₂ t₃ t₄ t₅ rest : Tokens} {table : String} {columns : List String}
      {rows : List (List Expr)} (h : ts.Takes (· == .keyword .insert) t₁)
      (hinto : t₁.Takes (· == .keyword .into) t₂) (htable : Gives (Read.expectName t₂) table t₃)
      (hcolumns : Derives o .columns 0 t₃ columns t₄)
      (hvalues : t₄.Takes (· == .keyword .values) t₅)
      (hrows : Derives o (.items .row) 0 t₅ rows rest) :
      Forms o ts (.insert ⟨ts.textUntil rest, table, none, columns, [], rows, ts.start⟩) rest
  | update {ts t₁ t₂ t₃ t₄ rest : Tokens} {table : String} {assignments : List Assignment}
      {filter : Option Expr} (h : ts.Takes (· == .keyword .update) t₁)
      (htable : Gives (Read.expectName t₁) table t₂) (hset : t₂.Takes (· == .keyword .set) t₃)
      (hassignments : Derives o (.items .assignment) 0 t₃ assignments t₄)
      (hfilter : Derives o (.optional .whereWord .plain) 0 t₄ filter rest) :
      Forms o ts (.update ⟨ts.textUntil rest, table, none, assignments, filter, ts.start⟩) rest
  | delete {ts t₁ t₂ t₃ rest : Tokens} {table : String} {filter : Option Expr}
      (h : ts.Takes (· == .keyword .delete) t₁) (hfrom : t₁.Takes (· == .keyword .fromWord) t₂)
      (htable : Gives (Read.expectName t₂) table t₃)
      (hfilter : Derives o (.optional .whereWord .plain) 0 t₃ filter rest) :
      Forms o ts (.delete ⟨ts.textUntil rest, table, none, filter, ts.start⟩) rest
  | create {ts t₁ t₂ t₃ t₄ t₅ rest : Tokens} {table : String} {columns : List ColumnClause}
      (h : ts.Takes (· == .keyword .create) t₁) (hword : t₁.Takes (· == .keyword .table) t₂)
      (htable : Gives (Read.expectName t₂) table t₃) (hopen : t₃.Takes (· == .mark .openParen) t₄)
      (hcolumns : Derives o (.items .column) 0 t₄ columns t₅)
      (hclose : t₅.Takes (· == .mark .closeParen) rest) :
      Forms o ts (.create ⟨ts.textUntil rest, table, columns, ts.start⟩) rest

/-- The reader of a phrase, and the phrase. -/
theorem Derives.iff_reads {o : ParserOptions} {k : Phrase} {depth : Nat} {ts rest : Tokens}
    {a : k.Value} : Derives o k depth ts a rest ↔ k.Reads o depth ts a rest :=
  ⟨Derives.reads, Derives.of_reads o k depth ts a rest⟩

namespace Read

variable {o : ParserOptions} {ts rest : Tokens}

theorem eq_ok_iff_gives {P : Tokens → Prop} {x : Except Error (α × { rest // P rest })} {a : α}
    {h : P rest} : x = .ok (a, ⟨rest, h⟩) ↔ Gives x a rest :=
  ⟨fun hx => gives_iff.2 ⟨h, hx⟩, fun hx => (gives_iff.1 hx).2⟩

theorem gives_rows {rows : List (List Expr)} :
    Gives (separated (valueRow o) ts) rows rest ↔ Derives o (.items .row) 0 ts rows rest := by
  have hrow {ts rest : Tokens} {row : List Expr} :
      Gives (valueRow o ts) row rest ↔ Phrase.Reads o .row 0 ts row rest := by
    rw [valueRow]
    simp only [gives_take, gives_bind, gives_ok, expectMark_eq_ok, Tokens.After.since]
    constructor
    · rintro ⟨t, _, h, _, t', _, hrow, _, _, hclose, rfl, rfl⟩
      exact ⟨t, t', h, hrow, hclose⟩
    · rintro ⟨t, t', h, hrow, hclose⟩
      exact ⟨t, h.length, h, row, t', hrow.prop, hrow, rest, hclose.length, hclose, rfl, rfl⟩
  rw [gives_separated]
  simp only [hrow]
  exact (Derives.iff_reads (k := .items .row)).symm

theorem gives_assignments {assignments : List Assignment} :
    Gives (separated (assignment o) ts) assignments rest ↔
      Derives o (.items .assignment) 0 ts assignments rest := by
  have hassignment {ts rest : Tokens} {a : Assignment} :
      Gives (assignment o ts) a rest ↔ Phrase.Reads o .assignment 0 ts a rest := by
    rw [assignment]
    simp only [gives_take, gives_bind, gives_ok, expectMark_eq_ok, Tokens.After.since]
    constructor
    · rintro ⟨_, t, _, h, t', _, hsign, _, _, _, hvalue, rfl, rfl⟩
      exact ⟨t, t', h, hsign, hvalue, rfl, rfl⟩
    · obtain ⟨column, position, value, offset⟩ := a
      rintro ⟨t, t', h, hsign, hvalue, rfl, rfl⟩
      exact ⟨column, t, h.prop, h, t', hsign.length, hsign, value, rest, hvalue.prop, hvalue, rfl,
        rfl⟩
  rw [gives_separated]
  simp only [hassignment]
  exact (Derives.iff_reads (k := .items .assignment)).symm

theorem gives_columns {columns : List ColumnClause} :
    Gives (separated columnClause ts) columns rest ↔
      Derives o (.items .column) 0 ts columns rest :=
  gives_separated.trans (Derives.iff_reads (k := .items .column)).symm

theorem gives_clause {word : Keyword} {e : Option Expr} : Gives (clause o 0 word ts) e rest ↔
    Derives o (.optional word .plain) 0 ts e rest := by
  refine ⟨fun h => Derives.iff_reads.2 ?_, fun h => clause_of_optional h.reads⟩
  rw [clause] at h
  simp only [gives_bind, gives_takeIf, takeKeyword, gives_ok, Tokens.After.since,
    Tokens.After.upTo] at h
  rcases h with ⟨hlacks, rfl, rfl⟩ | ⟨t, _, hword, e, _, _, he, rfl, rfl⟩
  · exact .inl ⟨hlacks, rfl, rfl⟩
  · exact .inr ⟨t, e, hword, he, rfl⟩

theorem insert_eq_ok_iff {s : Insert} :
    insert o ts = .ok (s, rest) ↔ Forms o ts (.insert s) rest := by
  rw [insert]
  simp only [bind_eq_ok_iff, Option.exists, Subtype.exists, Prod.exists, takeIf_eq_none,
    takeIf_eq_some, expectKeyword_eq_ok, expectMark_eq_ok, eq_ok_iff_gives, gives_rows,
    Except.ok.injEq, Prod.mk.injEq]
  constructor
  · rintro ⟨t₁, _, h, t₂, _, hinto, table, t₃, _, htable, columns, t₄, hcolumns, t₅, _, hvalues,
      rows, _, _, hrows, rfl, rfl⟩
    refine .insert h hinto htable ?_ hvalues hrows
    rcases hcolumns with ⟨hlacks, rfl, rfl⟩ | ⟨t, _, hopen, _, t', _, hnames, _, _, hclose, rfl,
      rfl⟩
    · exact .noColumns hlacks
    · exact .columns hopen (Derives.iff_reads.2 (gives_separated.1 hnames)) hclose
  · rintro (_ | ⟨h, hinto, htable, hcolumns, hvalues, hrows⟩)
    refine ⟨_, h.length, h, _, hinto.length, hinto, _, _, htable.prop, htable, _, _, ?_, _,
      hvalues.length, hvalues, _, _, (gives_rows.2 hrows).prop, hrows, rfl, rfl⟩
    rcases hcolumns.reads with ⟨hlacks, rfl, rfl⟩ | ⟨t, t', hopen, hnames, hclose⟩
    · exact .inl ⟨hlacks, rfl, rfl⟩
    · exact .inr ⟨t, hopen.length, hopen, _, t', hnames.prop, hnames, _, hclose.length, hclose,
        rfl, rfl⟩

theorem update_eq_ok_iff {s : Update} :
    update o ts = .ok (s, rest) ↔ Forms o ts (.update s) rest := by
  rw [update]
  simp only [bind_eq_ok_iff, Subtype.exists, Prod.exists, expectKeyword_eq_ok, eq_ok_iff_gives,
    gives_assignments, gives_clause, Except.ok.injEq, Prod.mk.injEq]
  constructor
  · rintro ⟨t₁, _, h, table, t₂, _, htable, t₃, _, hset, list, t₄, _, hlist, filter, _, _,
      hfilter, rfl, rfl⟩
    exact .update h htable hset hlist hfilter
  · rintro (_ | _ | ⟨h, htable, hset, hlist, hfilter⟩)
    exact ⟨_, h.length, h, _, _, htable.prop, htable, _, hset.length, hset, _, _,
      (gives_assignments.2 hlist).prop, hlist, _, _, (gives_clause.2 hfilter).prop, hfilter, rfl,
      rfl⟩

theorem delete_eq_ok_iff {s : Delete} :
    delete o ts = .ok (s, rest) ↔ Forms o ts (.delete s) rest := by
  rw [delete]
  simp only [bind_eq_ok_iff, Subtype.exists, Prod.exists, expectKeyword_eq_ok, eq_ok_iff_gives,
    gives_clause, Except.ok.injEq, Prod.mk.injEq]
  constructor
  · rintro ⟨t₁, _, h, t₂, _, hfrom, table, t₃, _, htable, filter, _, _, hfilter, rfl, rfl⟩
    exact .delete h hfrom htable hfilter
  · rintro (_ | _ | _ | ⟨h, hfrom, htable, hfilter⟩)
    exact ⟨_, h.length, h, _, hfrom.length, hfrom, _, _, htable.prop, htable, _, _,
      (gives_clause.2 hfilter).prop, hfilter, rfl, rfl⟩

theorem create_eq_ok_iff {s : Create} :
    create ts = .ok (s, rest) ↔ Forms o ts (.create s) rest := by
  rw [create]
  simp only [bind_eq_ok_iff, Subtype.exists, Prod.exists, expectKeyword_eq_ok, expectMark_eq_ok,
    eq_ok_iff_gives, gives_columns (o := o), Except.ok.injEq, Prod.mk.injEq]
  constructor
  · rintro ⟨t₁, _, h, t₂, _, hword, table, t₃, _, htable, t₄, _, hopen, list, t₅, _, hlist, _, _,
      hclose, rfl, rfl⟩
    exact .create h hword htable hopen hlist hclose
  · rintro (_ | _ | _ | _ | ⟨h, hword, htable, hopen, hlist, hclose⟩)
    exact ⟨_, h.length, h, _, hword.length, hword, _, _, htable.prop, htable, _, hopen.length,
      hopen, _, _, (gives_columns.2 hlist).prop, hlist, _, hclose.length, hclose, rfl, rfl⟩

/-- **The reader of statements gives a statement** iff the tokens start with it. -/
theorem statement_eq_ok_iff {s : Statement} :
    statement o ts = .ok (s, rest) ↔ Forms o ts s rest := by
  have hword {word : Keyword} {t : Tokens} (h : ts.Takes (· == .keyword word) t) :
      ts.current = .keyword word := beq_iff_eq.1 h.current
  constructor
  · intro h
    rw [statement] at h
    split at h
    · simp only [bind_eq_ok_iff, Subtype.exists, Prod.exists, eq_ok_iff_gives, Except.ok.injEq,
        Prod.mk.injEq] at h
      obtain ⟨s, _, _, hs, rfl, rfl⟩ := h
      exact .select (Derives.iff_reads.2 hs)
    · obtain ⟨⟨s, _⟩, hs, ⟨⟩⟩ := map_eq_ok_iff.1 h
      exact insert_eq_ok_iff.1 hs
    · obtain ⟨⟨s, _⟩, hs, ⟨⟩⟩ := map_eq_ok_iff.1 h
      exact update_eq_ok_iff.1 hs
    · obtain ⟨⟨s, _⟩, hs, ⟨⟩⟩ := map_eq_ok_iff.1 h
      exact delete_eq_ok_iff.1 hs
    · obtain ⟨⟨s, _⟩, hs, ⟨⟩⟩ := map_eq_ok_iff.1 h
      exact create_eq_ok_iff.1 hs
    · cases h
  · intro h
    have hs := h
    rw [statement]
    cases h with
    | select h =>
      have hread : Gives (Read.select o 0 ts) _ rest := h.reads
      cases h with
      | select hselect =>
        rw [hword hselect]
        simp only [bind_eq_ok_iff, Subtype.exists, Prod.exists, eq_ok_iff_gives]
        exact ⟨_, rest, hread.prop, hread, rfl⟩
    | insert h =>
      rw [hword h]
      exact map_eq_ok_iff.2 ⟨_, insert_eq_ok_iff.2 hs, rfl⟩
    | update h =>
      rw [hword h]
      exact map_eq_ok_iff.2 ⟨_, update_eq_ok_iff.2 hs, rfl⟩
    | delete h =>
      rw [hword h]
      exact map_eq_ok_iff.2 ⟨_, delete_eq_ok_iff.2 hs, rfl⟩
    | create h =>
      rw [hword h]
      exact map_eq_ok_iff.2 ⟨_, create_eq_ok_iff.2 hs, rfl⟩

end Read

open Read in
/-- **A text is a statement** iff its tokens start with the statement and nothing but a semicolon
comes after it. -/
theorem Statement.ofTokens_eq_ok_iff {o : ParserOptions} {ts : Tokens} {s : Statement} :
    ofTokens o ts = .ok s ↔ ts.check = .ok () ∧ ∃ rest last b, Forms o ts s rest ∧
      rest.Maybe (· == .semicolon) b last ∧ last.current = .finish := by
  have hend {s' : Statement} {t : Tokens} :
      (if t.current == .finish then .ok s' else .error (t.fault .expectedEnd)) = Except.ok s ↔
        s' = s ∧ t.current = .finish := by
    by_cases h : t.current = .finish <;> simp [h]
  rw [ofTokens]
  simp only [bind_eq_ok_iff, Prod.exists, statement_eq_ok_iff, Option.exists, Subtype.exists,
    takeIf_eq_none, takeIf_eq_some, hend, Except.ok.injEq]
  constructor
  · rintro ⟨_, hcheck, s, rest, hs, hrest⟩
    rcases hrest with ⟨hlacks, _, rfl, rfl, hlast⟩ | ⟨last, _, hsemi, _, rfl, rfl, hlast⟩
    · exact ⟨hcheck, rest, rest, false, hs, .absent hlacks, hlast⟩
    · exact ⟨hcheck, rest, last, true, hs, .taken hsemi, hlast⟩
  · rintro ⟨hcheck, rest, last, b, hs, hsemi | hlacks, hlast⟩
    · exact ⟨(), hcheck, s, rest, hs, .inr ⟨last, hsemi.length, hsemi, last, rfl, rfl, hlast⟩⟩
    · exact ⟨(), hcheck, s, rest, hs, .inl ⟨hlacks, rest, rfl, rfl, hlast⟩⟩

end SqlEngine

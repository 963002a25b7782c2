import SqlEngine.Proofs.Statement.Places

/-!
# Statements — one condition in three statements

A SELECT, a DELETE and an UPDATE may end with the same text as their condition.  Each of them is
then read with the condition that the text is when it stands alone, only further on; and where the
text alone cannot be read as a condition, they fail with that error.

* `Statement.parse_select`, `Statement.parse_delete`, `Statement.parse_update`: the three
  statements.
-/

namespace SqlEngine

variable {d k : Nat} {o : ParserOptions} {w name f : String}

/-- No token is left. -/
def Tokens.AtEnd (ts : Tokens) : Prop :=
  ∃ gap start, ts = .finish gap start

/-- The text is an expression and nothing else; a wildcard may stand alone. -/
def Expr.Whole (o : ParserOptions) (text : String) : Prop :=
  (Tokens.ofText text).check = .ok () ∧ ∃ e rest,
    Read.expression o 0 true (Tokens.ofText text) = .ok (e, rest) ∧ rest.1.AtEnd

/-- The text is a list of assignments, which ends where WHERE and a condition come after it. -/
def Assignment.Whole (o : ParserOptions) (text f : String) (list : List Assignment) : Prop :=
  (Tokens.ofText (text ++ " WHERE " ++ f)).check = .ok () ∧ ∃ rest,
    Read.separated (Read.assignment o) (Tokens.ofText (text ++ " WHERE " ++ f)) = .ok (list, rest) ∧
      rest.1 = Tokens.ofChars (Text.byteLength text.toList) (" WHERE " ++ f).toList

/-- The SELECT of a number from a table, for each row that the condition picks. -/
def Select.OfNumber (x : Float) (table : String) (filter : Option Expr) (s : Select) : Prop :=
  ∃ text source offset tableOffset start, s =
    ⟨text, false, [.ofNodes [.number x] source offset], some (.table table none none tableOffset),
      [], filter, [], [], none, start⟩

namespace Tokens

variable {l : Lexeme} {ts ts' rest : Tokens}

/-- What is left is `WHERE` and then the text, which stands at `d`. -/
def Where (d : Nat) (f : String) (ts : Tokens) : Prop :=
  ∃ l rest, ts = next l rest ∧ l.token = .keyword .whereWord ∧ Moved d (ofText f) rest

/-! ### Tokens that may be gone on with -/

theorem check_next (hclosed : l.token.openFault? = none) (hstray : ∀ c, l.token ≠ .stray c)
    (hrest : rest.check = .ok ()) : check (next l rest) = .ok () := by
  obtain ⟨start, gap, spelling, token⟩ := l
  cases rest with
  | broken => cases hrest
  | finish | next =>
    cases token with
    | stray c => exact absurd rfl (hstray c)
    | string content closed | name text closed =>
      cases closed with
      | true => rfl
      | false => cases hclosed
    | number | keyword | mark | comma | semicolon | dot | finish => rfl

theorem check_keyword {word : Keyword} (h : l.token = .keyword word) (hrest : rest.check = .ok ()) :
    check (next l rest) = .ok () :=
  check_next (by rw [h]; rfl) (by rw [h]; nofun) hrest

theorem check_number {literal : String} (h : l.token = .number literal)
    (hrest : rest.check = .ok ()) : check (next l rest) = .ok () :=
  check_next (by rw [h]; rfl) (by rw [h]; nofun) hrest

theorem check_name (hname : l.token.isName = true) (hclosed : l.token.openFault? = none)
    (hrest : rest.check = .ok ()) : check (next l rest) = .ok () :=
  check_next hclosed (fun c hc => by rw [hc] at hname; cases hname) hrest

theorem Moved.check_eq_ok (h : Moved d ts ts') (hts : ts.check = .ok ()) : ts'.check = .ok () := by
  have hapart := h.check
  rw [hts] at hapart
  generalize ts'.check = x at hapart ⊢
  cases hapart
  rfl

theorem Moved.atEnd (h : Moved d ts ts') (hts : ts.AtEnd) : ts'.AtEnd := by
  obtain ⟨gap, start, rfl⟩ := hts
  cases h
  exact ⟨_, _, rfl⟩

/-! ### The tokens of a condition -/

theorem Moved.where (h : Moved k ts ts') (hts : Where d f ts) : Where (d + k) f ts' := by
  obtain ⟨l, rest, rfl, hl, hrest⟩ := hts
  cases h with
  | next => exact ⟨_, _, rfl, hl, hrest.trans (moved_moved k rest)⟩

theorem Where.check (h : Where d f ts) (hf : (ofText f).check = .ok ()) : ts.check = .ok () := by
  obtain ⟨l, rest, rfl, hl, hrest⟩ := h
  exact check_keyword hl (hrest.check_eq_ok hf)

theorem toList_where (f : String) :
    (" WHERE " ++ f).toList = ' ' :: ("WHERE".toList ++ ' ' :: f.toList) := by
  simp

/-- A condition after other text. -/
theorem where_ofChars (start : Nat) (f : String) :
    Where (start + 7) f (ofChars start (" WHERE " ++ f).toList) := by
  rw [toList_where]
  have hword : Token.read 'W' ("HERE".toList ++ ' ' :: f.toList) =
      .ok ⟨.keyword .whereWord, "WHERE".toList, ' ' :: f.toList⟩ := rfl
  refine ⟨_, _, ofChars_of_read start [' '] Text.isBlank_space (by decide) hword, rfl, ?_⟩
  have hmoved := moved_ofChars_cons (d := start + 6) (b := ' ') (by decide) 0 f.toList
  rw [Nat.zero_add] at hmoved
  exact hmoved

end Tokens

/-! ### The readers on these tokens -/

namespace Read

variable {l : Lexeme} {ts rest : Tokens}

theorem takeIf_next {p : Token → Bool} (hp : p l.token = true) (hrest : rest.check = .ok ()) :
    takeIf p (.next l rest) = .ok (some ⟨rest, Nat.lt_succ_self _⟩) := by
  simp only [takeIf, hp, if_true, hrest, ok_bind]

theorem takeIf_none {p : Token → Bool} (hp : p l.token = false) :
    takeIf p (.next l rest) = .ok none := by
  simp only [takeIf, hp, Bool.false_eq_true, if_false]

theorem takeKeyword_next {word : Keyword} (h : l.token = .keyword word)
    (hrest : rest.check = .ok ()) :
    takeKeyword word (.next l rest) = .ok (some ⟨rest, Nat.lt_succ_self _⟩) :=
  takeIf_next (beq_iff_eq.2 h) hrest

theorem expectKeyword_next {word : Keyword} (h : l.token = .keyword word)
    (hrest : rest.check = .ok ()) :
    expectKeyword word (.next l rest) = .ok ⟨rest, Nat.lt_succ_self _⟩ := by
  simp only [expectKeyword, takeKeyword_next h hrest, ok_bind]

theorem expectName_next (h : l.token.isName = true) (hrest : rest.check = .ok ()) :
    expectName (.next l rest) = .ok (l.token.asName, ⟨rest, Nat.lt_succ_self _⟩) := by
  simp only [expectName, takeIf_next h hrest, ok_bind]
  rfl

/-- A whole text is read as a condition to its end, if it is read as one. -/
theorem expression_whole (hf : Expr.Whole o f) :
    ∀ e rest, expression o 0 false (Tokens.ofText f) = .ok (e, rest) → rest.1.AtEnd := by
  obtain ⟨-, e, last, hread, hlast⟩ := hf
  intro e' rest h
  rw [expression] at h hread
  obtain ⟨⟨nodes, after⟩, hnodes, hread⟩ := bind_eq_ok_iff.1 hread
  rw [hnodes, ok_bind] at h
  simp only at h hread
  split at h
  · cases h
  split at hread
  · cases hread
  · obtain ⟨-, rfl⟩ := Prod.mk.inj (Except.ok.inj h)
    obtain ⟨-, rfl⟩ := Prod.mk.inj (Except.ok.inj hread)
    exact hlast

/-- The condition is read as it is alone, and nothing is left. -/
theorem clause_where (hf : Expr.Whole o f) (h : Tokens.Where d f ts) :
    Apart d (fun e p => p.1 = some (e.moved d) ∧ p.2.1.AtEnd)
      (Expr.parse o false f) (clause o 0 .whereWord ts) := by
  obtain ⟨l, rest, rfl, hl, hrest⟩ := h
  have hcheck := hrest.check_eq_ok hf.1
  have hapart := expression_moved (o := o) 0 false hrest
  rw [clause]
  simp only [takeKeyword_next hl hcheck, ok_bind, Expr.parse, hf.1]
  cases hread : expression o 0 false (Tokens.ofText f) with
  | error e =>
    rw [hread] at hapart
    generalize expression o 0 false rest = x at hapart ⊢
    cases hapart
    exact .error e
  | ok p =>
    obtain ⟨e, after⟩ := p
    rw [hread] at hapart
    generalize expression o 0 false rest = x at hapart ⊢
    cases hapart with
    | @ok _ p h =>
      obtain ⟨hmoved, hrest⟩ := h
      exact .ok ⟨congrArg some hmoved, hrest.atEnd (expression_whole hf e after hread)⟩

/-- A number before FROM is read as the one output. -/
theorem outputs_number (depth : Nat) {l' : Lexeme} {literal : String} {x : Float}
    (h : l.token = .number literal) (hx : Number.ofLiteral? literal = some x)
    (h' : l'.token = .keyword .fromWord) (hrest : rest.check = .ok ()) :
    ∃ source, outputs o depth (.next l (.next l' rest)) =
      .ok ([.ofNodes [.number x] source l.start], ⟨.next l' rest, Nat.lt_succ_self _⟩) := by
  have hfrom := Tokens.check_keyword h' hrest
  have hatom : atom o depth false (.next l (.next l' rest)) =
      .ok ([.number x], ⟨.next l' rest, Nat.lt_succ_self _⟩) := by
    rw [atom.eq_def]
    simp only [h, numberValue, hx, ok_bind, hfrom]
  have hfollowing : following o depth false (.next l' rest) =
      .ok ([], ⟨.next l' rest, Nat.le_refl _⟩) := by
    rw [following.eq_def]
    simp only [h']
    rfl
  have hoperands : operands o depth false (.next l (.next l' rest)) =
      .ok ([.number x], ⟨.next l' rest, Nat.lt_succ_self _⟩) := by
    rw [operands, operand, hatom]
    simp only [ok_bind, Tokens.current, h', hfollowing, List.append_nil]
  have hexpression : expression o depth true (.next l (.next l' rest)) =
      .ok (.ofNodes [.number x] (Tokens.textUntil (.next l (.next l' rest)) (.next l' rest))
        l.start, ⟨.next l' rest, Nat.lt_succ_self _⟩) := by
    rw [expression, hoperands]
    rfl
  have hstar : takeIf (· == .mark .star) (.next l (.next l' rest)) = .ok none :=
    takeIf_none (by rw [h]; rfl)
  have has : takeKeyword .asWord (.next l' rest) = .ok none := takeIf_none (by rw [h']; rfl)
  have hcomma : takeComma (.next l' rest) = .ok none := takeIf_none (by rw [h']; rfl)
  refine ⟨Tokens.textUntil (.next l (.next l' rest)) (.next l' rest), ?_⟩
  have hword : ((Tokens.next l' rest).current == .keyword .asWord) = false := by
    rw [Tokens.current, h']
    rfl
  rw [outputs, output]
  simp only [hstar, ok_bind, hexpression, hword, Bool.false_and, Bool.false_eq_true, if_false, has,
    hcomma]

/-- Before WHERE there are no alias and no joins. -/
theorem source_where {depth : Nat} (h : Tokens.Where d f ts) (hl : l.token.isName = true)
    (hts : ts.check = .ok ()) :
    source o depth (.next l ts) =
      .ok (.table l.token.asName none none l.start, ⟨ts, Nat.lt_succ_self _⟩) := by
  obtain ⟨l', rest, rfl, hl', -⟩ := h
  have has : takeKeyword .asWord (.next l' rest) = .ok none := takeIf_none (by rw [hl']; rfl)
  have halias : sourceAlias (.next l' rest) = .ok (none, ⟨.next l' rest, Nat.le_refl _⟩) := by
    simp only [sourceAlias, has, ok_bind, Tokens.current, hl']
  have hparen : ((Tokens.next l (.next l' rest)).current == .mark .openParen) = false := by
    cases htoken : l.token with
    | mark m => rw [htoken] at hl; cases hl
    | number | string | name | keyword | comma | semicolon | dot | finish | stray =>
      simp only [Tokens.current, htoken]
      rfl
  rw [source]
  simp only [hparen, Bool.false_and, Bool.false_eq_true, if_false, expectName_next hl hts, ok_bind,
    halias]
  rfl

theorem joins_where {depth : Nat} (h : Tokens.Where d f ts) :
    joins o depth ts = .ok ([], ⟨ts, Nat.le_refl _⟩) := by
  obtain ⟨l, rest, rfl, hl, -⟩ := h
  have hkind : joinKind (.next l rest) = .ok none := by
    simp only [joinKind, hl]
    rfl
  rw [joins, hkind]
  rfl

/-! ### The three statements -/

section Statements

variable {l₁ l₂ l₃ l₄ : Lexeme}

theorem delete_where (hf : Expr.Whole o f) (h : Tokens.Where d f ts)
    (h₁ : l₁.token = .keyword .delete) (h₂ : l₂.token = .keyword .fromWord)
    (h₃ : l₃.token.isName = true) (hclosed : l₃.token.openFault? = none) :
    Apart d (fun e (p : Delete × Tokens) => (∃ text offset,
        p.1 = ⟨text, l₃.token.asName, none, some (e.moved d), offset⟩) ∧ p.2.AtEnd)
      (Expr.parse o false f) (delete o (.next l₁ (.next l₂ (.next l₃ ts)))) := by
  have hts := h.check hf.1
  have hname := Tokens.check_name h₃ hclosed hts
  have hfrom := Tokens.check_keyword h₂ hname
  simp only [delete, expectKeyword_next h₁ hfrom, expectKeyword_next h₂ hname,
    expectName_next h₃ hts, ok_bind]
  refine (clause_where hf h).bindRight fun e p hp => ?_
  obtain ⟨hfilter, hrest⟩ := hp
  exact ⟨_, rfl, ⟨_, _, by rw [hfilter]⟩, hrest⟩

theorem takeKeyword_atEnd (h : ts.AtEnd) (word : Keyword) : takeKeyword word ts = .ok none := by
  obtain ⟨gap, start, rfl⟩ := h
  rfl

theorem select_where {literal : String} {x : Float} (hf : Expr.Whole o f) (h : Tokens.Where d f ts)
    (h₁ : l₁.token = .keyword .select) (h₂ : l₂.token = .number literal)
    (hx : Number.ofLiteral? literal = some x) (h₃ : l₃.token = .keyword .fromWord)
    (h₄ : l₄.token.isName = true) (hclosed : l₄.token.openFault? = none) :
    Apart d (fun e p => Select.OfNumber x l₄.token.asName (some (e.moved d)) p.1 ∧ p.2.1.AtEnd)
      (Expr.parse o false f) (select o 0 (.next l₁ (.next l₂ (.next l₃ (.next l₄ ts))))) := by
  have hts := h.check hf.1
  have hname := Tokens.check_name h₄ hclosed hts
  have hfrom := Tokens.check_keyword h₃ hname
  have hnumber : Tokens.check (.next l₂ (.next l₃ (.next l₄ ts))) = .ok () :=
    Tokens.check_number h₂ hfrom
  have hdistinct : takeKeyword .distinct (.next l₂ (.next l₃ (.next l₄ ts))) = .ok none :=
    takeIf_none (by rw [h₂]; rfl)
  obtain ⟨source, houtputs⟩ := outputs_number (o := o) 0 h₂ hx h₃ hname
  rw [select]
  simp only [expectKeyword_next h₁ hnumber, hdistinct, ok_bind, houtputs,
    takeKeyword_next h₃ hname, source_where h h₄ hts, joins_where h]
  refine (clause_where hf h).bindRight fun e p hp => ?_
  obtain ⟨hfilter, hrest⟩ := hp
  simp only [takeKeyword_atEnd hrest, ok_bind]
  exact ⟨_, rfl, ⟨_, _, _, _, _, by rw [hfilter]⟩, hrest⟩

theorem update_where {sets : String} {list : List Assignment} (hf : Expr.Whole o f)
    (hsets : Assignment.Whole o sets f list)
    (h : Tokens.Moved k (Tokens.ofText (sets ++ " WHERE " ++ f)) ts)
    (h₁ : l₁.token = .keyword .update) (h₂ : l₂.token.isName = true)
    (hclosed : l₂.token.openFault? = none) (h₃ : l₃.token = .keyword .set) :
    ∃ d, Apart d (fun e (p : Update × Tokens) => (∃ text offset, p.1 = ⟨text, l₂.token.asName,
        none, list.map (Assignment.moved k), some (e.moved d), offset⟩) ∧ p.2.AtEnd)
      (Expr.parse o false f) (update o (.next l₁ (.next l₂ (.next l₃ ts)))) := by
  obtain ⟨hcheck, rest, hread, hrest⟩ := hsets
  have hts := h.check_eq_ok hcheck
  have hset := Tokens.check_keyword h₃ hts
  have hname := Tokens.check_name h₂ hclosed hset
  have hwhere := Tokens.where_ofChars (Text.byteLength sets.toList) f
  -- the assignments are read to the same place
  have hapart := assignments_moved (o := o) h
  rw [hread] at hapart
  obtain ⟨p, hp, hlist, hafter⟩ : ∃ p, separated (assignment o) ts = .ok p ∧
      p.1 = list.map (Assignment.moved k) ∧ Tokens.Moved k rest.1 p.2.1 := by
    generalize separated (assignment o) ts = x at hapart
    cases hapart with
    | ok h => exact ⟨_, rfl, h⟩
  simp only [update, expectKeyword_next h₁ hname, expectName_next h₂ hset,
    expectKeyword_next h₃ hts, ok_bind, hp]
  rw [hrest] at hafter
  refine ⟨Text.byteLength sets.toList + 7 + k, ?_⟩
  refine (clause_where hf (hafter.where hwhere)).bindRight fun e q hq => ?_
  obtain ⟨hfilter, hend⟩ := hq
  exact ⟨_, rfl, ⟨_, _, by rw [hfilter, hlist]⟩, hend⟩

end Statements

end Read

/-! ### The texts -/

namespace Tokens

/-- A keyword at the front of a text, or after a blank. -/
theorem ofChars_word (c : Char) (cs : List Char) (word : Keyword) (start : Nat) (gap : List Char)
    (hgap : ∀ b ∈ gap, Text.isBlank b = true) (hc : Text.isBlank c = false) (rest : List Char)
    (hr : Token.read c (cs ++ ' ' :: rest) = .ok ⟨.keyword word, c :: cs, ' ' :: rest⟩) :
    ∃ l, l.token = .keyword word ∧ ofChars start (gap ++ c :: (cs ++ ' ' :: rest)) =
      next l (ofChars (start + Text.byteLength gap + Text.byteLength (c :: cs)) (' ' :: rest)) :=
  ⟨_, rfl, ofChars_of_read start gap hgap hc hr⟩

/-- The name of a table, and then a condition. -/
theorem Spells.exists_where (hw : Spells w name) (start : Nat) (f : String) :
    ∃ l d ts, l.token.isName = true ∧ l.token.openFault? = none ∧ l.token.asName = name ∧
      Where d f ts ∧
      Tokens.ofChars start (' ' :: (w.toList ++ (" WHERE " ++ f).toList)) = next l ts := by
  obtain ⟨l, hname, hclosed, hasName, hl⟩ :=
    hw.ofChars start [' '] Text.isBlank_space (b := ' ') (by decide)
      ("WHERE".toList ++ ' ' :: f.toList)
  rw [← toList_where] at hl
  exact ⟨l, _, _, hname, hclosed, hasName, where_ofChars _ f, hl⟩

/-- The name of a table, and then SET and more text. -/
theorem Spells.exists_set (hw : Spells w name) (start : Nat) (rest : List Char) :
    ∃ l l' d ts, l.token.isName = true ∧ l.token.openFault? = none ∧ l.token.asName = name ∧
      l'.token = .keyword .set ∧ Moved d (Tokens.ofChars 0 rest) ts ∧
      Tokens.ofChars start (' ' :: (w.toList ++ ' ' :: ("SET".toList ++ ' ' :: rest))) =
        next l (next l' ts) := by
  obtain ⟨l, hname, hclosed, hasName, hl⟩ :=
    hw.ofChars start [' '] Text.isBlank_space (b := ' ') (by decide)
      ("SET".toList ++ ' ' :: rest)
  obtain ⟨l', hset, hl'⟩ := ofChars_word 'S' "ET".toList .set
    (start + Text.byteLength [' '] + Text.byteLength w.toList) [' '] Text.isBlank_space
    (by decide) rest rfl
  have hmoved := moved_ofChars_cons (d := start + Text.byteLength [' '] +
    Text.byteLength w.toList + Text.byteLength [' '] + Text.byteLength ('S' :: "ET".toList))
    (b := ' ') (by decide) 0 rest
  rw [Nat.zero_add] at hmoved
  exact ⟨l, l', _, _, hname, hclosed, hasName, hset, hmoved, hl.trans (congrArg (next l) hl')⟩

end Tokens

namespace Statement

/-- A statement after which nothing is left is the statement of the text. -/
theorem parse_atEnd {α : Type} {Q : α → Statement → Prop} {x : Except Error α} {text : String}
    (hcheck : (Tokens.ofText text).check = .ok ())
    (h : Apart d (fun a p => Q a p.1 ∧ p.2.AtEnd) x (Read.statement o (Tokens.ofText text))) :
    Apart d Q x (parse o text) := by
  simp only [parse, hcheck, ok_bind]
  refine h.bindRight fun a p hp => ?_
  obtain ⟨s, rest⟩ := p
  obtain ⟨hQ, gap, start, rfl⟩ := hp
  exact ⟨s, rfl, hQ⟩

theorem parse_delete (hw : Tokens.Spells w name) (hf : Expr.Whole o f) :
    ∃ d, Apart d
      (fun e s => ∃ text offset, s = .delete ⟨text, name, none, some (e.moved d), offset⟩)
      (Expr.parse o false f) (parse o ("DELETE FROM " ++ w ++ " WHERE " ++ f)) := by
  have htext : ("DELETE FROM " ++ w ++ " WHERE " ++ f).toList = [] ++ 'D' :: ("ELETE".toList ++
      ' ' :: ("FROM".toList ++ ' ' :: (w.toList ++ (" WHERE " ++ f).toList))) := by
    simp
  obtain ⟨l₁, h₁, hdelete⟩ := Tokens.ofChars_word 'D' "ELETE".toList .delete 0 []
    (List.forall_mem_nil _) (by decide)
    ("FROM".toList ++ ' ' :: (w.toList ++ (" WHERE " ++ f).toList)) rfl
  obtain ⟨l₂, h₂, hfrom⟩ := Tokens.ofChars_word 'F' "ROM".toList .fromWord 6 [' ']
    Text.isBlank_space (by decide) (w.toList ++ (" WHERE " ++ f).toList) rfl
  obtain ⟨l₃, d, ts, h₃, hclosed, rfl, hts, hname⟩ := hw.exists_where 11 f
  have htokens : Tokens.ofText ("DELETE FROM " ++ w ++ " WHERE " ++ f) =
      .next l₁ (.next l₂ (.next l₃ ts)) := by
    rw [Tokens.ofText, htext, hdelete]
    exact congrArg (Tokens.next l₁) (hfrom.trans (congrArg (Tokens.next l₂) hname))
  have hcheck := Tokens.check_keyword h₁ (Tokens.check_keyword h₂
    (Tokens.check_name h₃ hclosed (hts.check hf.1)))
  refine ⟨d, parse_atEnd (htokens ▸ hcheck) ?_⟩
  rw [htokens]
  simp only [Read.statement, Tokens.current, h₁]
  refine (Read.delete_where hf hts h₁ h₂ h₃ hclosed).mapRight ?_
  rintro e p ⟨⟨text, offset, hp⟩, hend⟩
  exact ⟨⟨text, offset, congrArg Statement.delete hp⟩, hend⟩

/-- The SELECT is one of the number 1. -/
theorem parse_select (hw : Tokens.Spells w name) (hf : Expr.Whole o f) :
    ∃ d x, Apart d
      (fun e s => ∃ q, s = .select q ∧ q.OfNumber x name (some (e.moved d)))
      (Expr.parse o false f) (parse o ("SELECT 1 FROM " ++ w ++ " WHERE " ++ f)) := by
  have htext : ("SELECT 1 FROM " ++ w ++ " WHERE " ++ f).toList = [] ++ 'S' :: ("ELECT".toList ++
      ' ' :: ('1' :: ' ' :: ("FROM".toList ++ ' ' :: (w.toList ++ (" WHERE " ++ f).toList)))) := by
    simp
  obtain ⟨l₁, h₁, hselect⟩ := Tokens.ofChars_word 'S' "ELECT".toList .select 0 []
    (List.forall_mem_nil _) (by decide)
    ('1' :: ' ' :: ("FROM".toList ++ ' ' :: (w.toList ++ (" WHERE " ++ f).toList))) rfl
  have hone : Token.read '1' (' ' :: ("FROM".toList ++ ' ' :: (w.toList ++
      (" WHERE " ++ f).toList))) = .ok ⟨.number "1", ['1'], ' ' :: ("FROM".toList ++ ' ' ::
        (w.toList ++ (" WHERE " ++ f).toList))⟩ := rfl
  have hnumber := Tokens.ofChars_of_read 6 [' '] Text.isBlank_space (by decide) hone
  obtain ⟨l₃, h₃, hfrom⟩ := Tokens.ofChars_word 'F' "ROM".toList .fromWord 8 [' ']
    Text.isBlank_space (by decide) (w.toList ++ (" WHERE " ++ f).toList) rfl
  obtain ⟨l₄, d, ts, h₄, hclosed, rfl, hts, hname⟩ := hw.exists_where 13 f
  obtain ⟨x, hx⟩ : ∃ x, Number.ofLiteral? "1" = some x := ⟨_, rfl⟩
  have htokens : Tokens.ofText ("SELECT 1 FROM " ++ w ++ " WHERE " ++ f) =
      .next l₁ (.next ⟨7, [' '], ['1'], .number "1"⟩ (.next l₃ (.next l₄ ts))) := by
    rw [Tokens.ofText, htext, hselect]
    refine congrArg (Tokens.next l₁) (hnumber.trans ?_)
    exact congrArg (Tokens.next _) (hfrom.trans (congrArg (Tokens.next l₃) hname))
  have hcheck := Tokens.check_keyword h₁ (Tokens.check_number
    (l := ⟨7, [' '], ['1'], .number "1"⟩) rfl (Tokens.check_keyword h₃
      (Tokens.check_name h₄ hclosed (hts.check hf.1))))
  refine ⟨d, x, parse_atEnd (htokens ▸ hcheck) ?_⟩
  rw [htokens]
  simp only [Read.statement, Tokens.current, h₁]
  refine (Read.select_where hf hts h₁ rfl hx h₃ h₄ hclosed).bindRight ?_
  rintro e p ⟨hp, hend⟩
  exact ⟨_, rfl, ⟨p.1, rfl, hp⟩, hend⟩

theorem parse_update {sets : String} {list : List Assignment} (hw : Tokens.Spells w name)
    (hf : Expr.Whole o f) (hsets : Assignment.Whole o sets f list) :
    ∃ d k, Apart d
      (fun e s => ∃ text offset, s = .update ⟨text, name, none, list.map (Assignment.moved k),
        some (e.moved d), offset⟩)
      (Expr.parse o false f)
      (parse o ("UPDATE " ++ w ++ " SET " ++ sets ++ " WHERE " ++ f)) := by
  have htext : ("UPDATE " ++ w ++ " SET " ++ sets ++ " WHERE " ++ f).toList = [] ++ 'U' ::
      ("PDATE".toList ++ ' ' :: (w.toList ++ ' ' :: ("SET".toList ++
        ' ' :: (sets ++ " WHERE " ++ f).toList))) := by
    simp
  obtain ⟨l₁, h₁, hupdate⟩ := Tokens.ofChars_word 'U' "PDATE".toList .update 0 []
    (List.forall_mem_nil _) (by decide)
    (w.toList ++ ' ' :: ("SET".toList ++ ' ' :: (sets ++ " WHERE " ++ f).toList)) rfl
  obtain ⟨l₂, l₃, k, ts, h₂, hclosed, rfl, h₃, hmoved, hname⟩ :=
    hw.exists_set 6 (sets ++ " WHERE " ++ f).toList
  have htokens : Tokens.ofText ("UPDATE " ++ w ++ " SET " ++ sets ++ " WHERE " ++ f) =
      .next l₁ (.next l₂ (.next l₃ ts)) := by
    rw [Tokens.ofText, htext, hupdate]
    exact congrArg (Tokens.next l₁) hname
  have hcheck := Tokens.check_keyword h₁ (Tokens.check_name h₂ hclosed
    (Tokens.check_keyword h₃ (hmoved.check_eq_ok hsets.1)))
  obtain ⟨d, hread⟩ := Read.update_where hf hsets hmoved h₁ h₂ hclosed h₃
  refine ⟨d, k, parse_atEnd (htokens ▸ hcheck) ?_⟩
  rw [htokens]
  simp only [Read.statement, Tokens.current, h₁]
  refine hread.mapRight ?_
  rintro e p ⟨⟨text, offset, hp⟩, hend⟩
  exact ⟨⟨text, offset, congrArg Statement.update hp⟩, hend⟩

end Statement

end SqlEngine

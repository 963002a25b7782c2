import SqlEngine.Proofs.Statement.Nesting
import SqlEngine.Proofs.Statement.Places

/-!
# Statements — slices

The text that a statement records is the slice of its source from its first token to its last one,
and so is the text of each sub-select.  The slice alone is the same statement, with its places
counted from its own start.

* `Derives.before`, `Forms.before`: what comes behind a phrase has no part in it.
* `Statement.parse_slices`: a statement and all its sub-selects, and their slices.
-/

namespace SqlEngine

open Read (Gives)
open Tokens (Tail)

/-! ### Single tokens -/

namespace Read

variable {ts t rest root : Tokens} {stop : Nat}

theorem expectName_before {name : String} (h : Gives (expectName ts) name rest)
    (hrest : rest.Tail root) :
    Gives (expectName (ts.before root stop)) name (rest.before root stop) := by
  obtain ⟨hname, rfl⟩ := gives_expectName.1 h
  exact gives_expectName.2 ⟨hname.before hrest, by rw [(hname.front_before _ hrest).1]⟩

theorem column_before {l : Lexeme} {r : ColumnRef} (h : Gives (column l t) r rest)
    (hrest : rest.Tail root) :
    Gives (column l (t.before root stop)) r (rest.before root stop) := by
  obtain ⟨hcheck, hcases⟩ := gives_column.1 h
  have ht := (tail_of_column h).trans hrest
  refine gives_column.2 ⟨ht.check_before hcheck, ?_⟩
  rcases hcases with ⟨hdot, rfl, rfl⟩ | ⟨t', hdot, ⟨hstar, rfl⟩ | ⟨hstar, hname, rfl⟩⟩
  · exact .inl ⟨hdot.before ht, rfl, rfl⟩
  · exact .inr ⟨_, hdot.before (hstar.tail.trans hrest), .inl ⟨hstar.before hrest, rfl⟩⟩
  · have ht' := hname.tail.trans hrest
    exact .inr ⟨_, hdot.before ht', .inr ⟨hstar.before ht', hname.before hrest,
      by rw [(hname.front_before _ hrest).1]⟩⟩

theorem sourceAlias_before {aliasName : Option String} (h : Gives (sourceAlias ts) aliasName rest)
    (hrest : rest.Tail root) :
    Gives (sourceAlias (ts.before root stop)) aliasName (rest.before root stop) := by
  rw [gives_sourceAlias] at h ⊢
  rcases h with ⟨t, has, hname, rfl⟩ | ⟨has, ⟨hname, rfl⟩ | ⟨hplain, rfl, rfl⟩⟩
  · exact .inl ⟨_, has.before (hname.tail.trans hrest), hname.before hrest,
      by rw [(hname.front_before _ hrest).1]⟩
  · exact .inr ⟨has.before (hname.tail.trans hrest), .inl ⟨hname.before hrest,
      by rw [(hname.front_before _ hrest).1]⟩⟩
  · refine .inr ⟨has.before hrest, .inr ⟨?_, rfl, rfl⟩⟩
    rcases hrest.current_before stop with h | ⟨-, h⟩
    · rw [h, hplain]
    · rw [h]
      rfl

theorem joinKind_before {kind : JoinKind} {hlt : t.length < ts.length}
    (stop : Nat) (h : joinKind ts = .ok (some (kind, ⟨t, hlt⟩))) (ht : t.Tail root) :
    ∃ hlt', joinKind (ts.before root stop) = .ok (some (kind, ⟨t.before root stop, hlt'⟩)) := by
  have hts := (tail_of_joinKind h).trans ht
  have hlt' : (t.before root stop).length < (ts.before root stop).length := by
    have hle := ht.length
    rw [ht.length_before, hts.length_before]
    omega
  refine ⟨hlt', joinKind_eq_some.2 ?_⟩
  rcases joinKind_eq_some.1 h with ⟨hjoin, hkind⟩ | ⟨outer, t₁, t₂, hword, hskip, hjoin⟩
  · exact .inl ⟨hjoin.before ht, hkind⟩
  · have ht₂ := hjoin.tail.trans ht
    cases outer with
    | true =>
      obtain ⟨b, hskip⟩ := hskip
      exact .inr ⟨true, _, _, hword.before (hskip.tail.trans ht₂), ⟨b, hskip.before ht₂⟩,
        hjoin.before ht⟩
    | false =>
      obtain rfl : t₂ = t₁ := hskip
      exact .inr ⟨false, _, _, hword.before ht₂, rfl, hjoin.before ht⟩

theorem columnClause_before {c : ColumnClause} (h : Gives (columnClause ts) c rest)
    (hrest : rest.Tail root) :
    Gives (columnClause (ts.before root stop)) c (rest.before root stop) := by
  obtain ⟨t, hname, htype, hc⟩ := gives_columnClause.1 h
  have ht := htype.tail.trans hrest
  refine gives_columnClause.2 ⟨_, hname.before ht, htype.before hrest, ?_⟩
  obtain ⟨hcurrent, hstart⟩ := hname.front_before stop ht
  rw [hcurrent, hstart]
  exact hc

end Read

/-! ### Phrases -/

/-- The phrase ends with an atom that no operand is made of. -/
def Phrase.isAtom : Phrase → Bool
  | atom _                              => true
  | items k | optional _ k | after _ k  => k.isAtom
  | _                                   => false

namespace Derives

variable {o : ParserOptions} {depth : Nat} {ts rest : Tokens}

theorem select_lt {s : Select} (h : Derives o .select depth ts s rest) :
    rest.length < ts.length := by
  have hread : Gives (Read.select o depth ts) s rest := h.reads
  exact hread.prop

theorem arguments_lt {args : List Expr} (h : Derives o .arguments depth ts args rest) :
    rest.length < ts.length := by
  have hread : Gives (Read.arguments o depth ts) args rest := h.reads
  exact hread.prop

theorem operands_lt {nested : Bool} {nodes : List Node}
    (h : Derives o (.operands nested) depth ts nodes rest) : rest.length < ts.length := by
  have hread : Gives (Read.operands o depth nested ts) nodes rest := h.reads
  exact hread.prop

theorem expressions_lt {es : List Expr} (h : Derives o (.items .plain) depth ts es rest) :
    rest.length < ts.length :=
  (Read.gives_expressions.2 h.reads).prop

end Derives

open Read in
/-- **What comes behind a phrase has no part in it.**  An atom alone is an exception: a keyword is
an atom only in front of an opening parenthesis. -/
theorem Derives.before {o : ParserOptions} {k : Phrase} {depth : Nat} {ts rest root : Tokens}
    {a : k.Value} {stop : Nat} (h : Derives o k depth ts a rest) (hrest : rest.Tail root)
    (hlast : k.isAtom = true → rest = root → rest.current ≠ .mark .openParen) :
    Derives o k depth (ts.before root stop) a (rest.before root stop) := by
  induction h with
  | operands _ hmore ih ih' => exact .operands (ih (hmore.tail.trans hrest) nofun) (ih' hrest nofun)
  | ends h =>
    refine .ends ?_
    rcases hrest.current_before stop with hcurrent | ⟨-, hcurrent⟩
    · rwa [hcurrent]
    · rw [hcurrent]
      rfl
  | closes h => exact .closes (h.before hrest)
  | operator h hmore ih => exact .operator (h.before (hmore.tail.trans hrest)) (ih hrest nofun)
  | operand _ hopen ih =>
    exact .operand (ih hrest fun _ _ => hopen) (hrest.current_before_ne nofun hopen)
  | @call _ _ _ t rest _ _ _ _ hname hargs hopen ih ih' =>
    have ht := hargs.tail.trans hrest
    have hlt : root.length < t.length := Nat.lt_of_le_of_lt hrest.length hargs.arguments_lt
    refine .call (ih ht fun _ heq => ?_) hname (ih' hrest nofun)
      (hrest.current_before_ne nofun hopen)
    exact absurd hlt (heq ▸ Nat.lt_irrefl _)
  | value hvalue h => exact .value (by rw [(h.front_before _ hrest).1, hvalue]) (h.before hrest)
  | reference hname hplain h =>
    have ht := (tail_of_column h).trans hrest
    rw [ht.before_next]
    exact .reference hname (fun word hword => ht.current_before_ne nofun (hplain word hword))
      (column_before h hrest)
  | word hword hother hopen h =>
    rw [hrest.before_next]
    refine .word hword hother ?_ (hrest.check_before h)
    rcases hrest.current_before stop with hcurrent | ⟨heq, -⟩
    · rw [hcurrent, hopen]
    · exact absurd hopen (hlast rfl heq)
  | negative h hnumber hvalue h' =>
    exact .negative (h.before (h'.tail.trans hrest)) (by rw [(h'.front_before _ hrest).1, hnumber])
      hvalue (h'.before hrest)
  | group hdepth h hplain hnodes ih =>
    have ht := hnodes.tail.trans hrest
    exact .group hdepth (h.before ht) (ht.current_before_ne nofun hplain) (ih hrest nofun)
  | valueSelect hvalues hdepth h hword hs hclose ih =>
    have ht' := hclose.tail.trans hrest
    have ht := hs.tail.trans ht'
    exact .valueSelect hvalues hdepth (h.before ht)
      (by rw [(ht.front_before _ (Nat.lt_of_le_of_lt ht'.length hs.select_lt)).1, hword])
      (ih ht' nofun) (hclose.before hrest)
  | noArguments hdepth h hclose =>
    exact .noArguments hdepth (h.before (hclose.tail.trans hrest)) (hclose.before hrest)
  | allRows hdepth h hstar hclose =>
    have ht' := hclose.tail.trans hrest
    exact .allRows hdepth (h.before (hstar.tail.trans ht')) (hstar.before ht')
      (hclose.before hrest)
  | arguments hdepth h hsome hplain hargs hclose ih =>
    have ht' := hclose.tail.trans hrest
    have ht := hargs.tail.trans ht'
    refine .arguments hdepth (h.before ht) (hsome.before ht) ?_ (ih ht' nofun)
      (hclose.before hrest)
    rintro ⟨hstar, hsecond⟩
    rw [(ht.front_before _ (Nat.lt_of_le_of_lt ht'.length hargs.expressions_lt)).1] at hstar
    rcases ht.second_before stop with heq | heq
    · exact hplain ⟨hstar, heq.symm.trans hsecond⟩
    · cases heq.symm.trans hsecond
  | expression h hwildcard ih =>
    have hlt := Nat.lt_of_le_of_lt hrest.length h.operands_lt
    have hstart := ((h.tail.trans hrest).front_before stop hlt).2
    have hnodes := ih hrest nofun
    have htext := h.tail.textUntil_before stop hrest
    rw [← hstart, ← htext] at hwildcard ⊢
    exact .expression hnodes hwildcard
  | star h =>
    rw [← (h.front_before stop hrest).2]
    exact .star (h.before hrest)
  | bare hplain h ih => exact .bare (hplain.before (h.tail.trans hrest)) (ih hrest nofun)
  | output _ hplain ih => exact .output (ih hrest nofun) (hplain.before hrest)
  | named _ hplain has hname ih =>
    have ht' := (tail_of_expectName hname).trans hrest
    exact .named (ih (has.tail.trans ht') nofun) hplain (has.before ht')
      (expectName_before hname hrest)
  | table h halias =>
    have ht := (tail_of_sourceAlias halias).trans hrest
    rw [← ((gives_expectName.1 h).1.front_before stop ht).2]
    exact .table (expectName_before h ht) (sourceAlias_before halias hrest)
  | subSelect hdepth h hword hs hclose halias ih =>
    have ht'' := (tail_of_sourceAlias halias).trans hrest
    have ht' := hclose.tail.trans ht''
    have ht := hs.tail.trans ht'
    rw [← (h.front_before stop ht).2]
    exact .subSelect hdepth (h.before ht)
      (by rw [(ht.front_before _ (Nat.lt_of_le_of_lt ht'.length hs.select_lt)).1, hword])
      (ih ht' nofun) (hclose.before ht'') (sourceAlias_before halias hrest)
  | noJoin h =>
    rw [joinKind_eq_none] at h
    exact .noJoin (joinKind_eq_none.2 (h.before hrest))
  | join h hs hcondition hmore ih ih' ih'' =>
    have ht'' := hmore.tail.trans hrest
    have ht' := hcondition.tail.trans ht''
    obtain ⟨_, h⟩ := joinKind_before stop h (hs.tail.trans ht')
    exact .join h (ih ht' nofun) (ih' ht'' nofun) (ih'' hrest nofun)
  | origin _ hjoins ih ih' => exact .origin (ih (hjoins.tail.trans hrest) nofun) (ih' hrest nofun)
  | descending _ hdesc ih =>
    exact .descending (ih (hdesc.tail.trans hrest) nofun) (hdesc.before hrest)
  | ascending _ hdesc hasc ih =>
    have ht := hasc.tail.trans hrest
    exact .ascending (ih ht nofun) (hdesc.before ht) (hasc.before hrest)
  | rowCount h => exact .rowCount (gives_rowCount.2 ((gives_rowCount.1 h).before hrest))
  | select h hdistinct houtput horigin hfilter hgroup horder hlimit ih ih₁ ih₂ ih₃ ih₄ ih₅ =>
    have h₇ := hlimit.tail.trans hrest
    have h₆ := horder.tail.trans h₇
    have h₅ := hgroup.tail.trans h₆
    have h₄ := hfilter.tail.trans h₅
    have h₃ := horigin.tail.trans h₄
    have h₂ := houtput.tail.trans h₃
    have h₁ := hdistinct.tail.trans h₂
    have hto := hdistinct.tail.trans (houtput.tail.trans (horigin.tail.trans
      (hfilter.tail.trans (hgroup.tail.trans (horder.tail.trans hlimit.tail)))))
    rw [← (h.front_before stop h₁).2,
      ← (h.tail.trans hto).textUntil_before stop hrest]
    exact .select (h.before h₁) (hdistinct.before h₂) (ih h₃ nofun) (ih₁ h₄ nofun)
      (ih₂ h₅ nofun) (ih₃ h₆ nofun) (ih₄ h₇ nofun) (ih₅ hrest nofun)
  | row h hrow hclose ih =>
    have ht' := hclose.tail.trans hrest
    exact .row (h.before (hrow.tail.trans ht')) (ih ht' nofun) (hclose.before hrest)
  | assignment h hsign hvalue ih =>
    have ht' := hvalue.tail.trans hrest
    have ht := hsign.tail.trans ht'
    rw [← ((gives_expectName.1 h).1.front_before stop ht).2]
    exact .assignment (expectName_before h ht) (hsign.before ht') (ih hrest nofun)
  | name h => exact .name (expectName_before h hrest)
  | column h => exact .column (columnClause_before h hrest)
  | noColumns h => exact .noColumns (h.before hrest)
  | columns h hcolumns hclose ih =>
    have ht' := hclose.tail.trans hrest
    exact .columns (h.before (hcolumns.tail.trans ht')) (ih ht' nofun) (hclose.before hrest)
  | last _ hcomma ih => exact .last (ih hrest hlast) (hcomma.before hrest)
  | more _ hcomma hmore ih ih' =>
    have ht' := hmore.tail.trans hrest
    refine .more (ih (hcomma.tail.trans ht') fun _ _ hopen => ?_) (hcomma.before ht')
      (ih' hrest hlast)
    have hcurrent := hcomma.current
    rw [hopen] at hcurrent
    cases hcurrent
  | absent h => exact .absent (h.before hrest)
  | present h ha ih => exact .present (h.before (ha.tail.trans hrest)) (ih hrest hlast)
  | after h ha ih => exact .after (h.before (ha.tail.trans hrest)) (ih hrest hlast)

/-! ### Statements -/

namespace Statement

/-- The place of the first token of a statement. -/
def offset : Statement → Nat
  | select s => s.offset
  | insert s => s.offset
  | update s => s.offset
  | delete s => s.offset
  | create s => s.offset

/-- The text of the statement is the slice of a source from its first token to its last one, and
alone it is the same statement but for places. -/
structure SliceOf (o : ParserOptions) (source : String) (s : Statement) : Prop where
  tokens : ∃ ts rest, (Tokens.ofText source).Tail ts ∧ Read.statement o ts = .ok (s, rest) ∧
    s.text = ts.textUntil rest ∧ s.offset = ts.start
  slice : ∃ front back, source.toList = front ++ s.text.toList ++ back ∧
    Text.byteLength front = s.offset
  alone : ∃ s₀, parse o s.text = .ok s₀ ∧ s = s₀.moved s.offset

end Statement

namespace Forms

open Read

variable {o : ParserOptions} {ts rest root : Tokens} {s : Statement} {stop : Nat}

/-- What comes behind a statement has no part in it. -/
theorem before (h : Forms o ts s rest) (hrest : rest.Tail root) :
    Forms o (ts.before root stop) s (rest.before root stop) := by
  cases h with
  | select h => exact .select (h.before hrest nofun)
  | insert h hinto htable hcolumns hvalues hrows =>
    have h₅ := hrows.tail.trans hrest
    have h₄ := hvalues.tail.trans h₅
    have h₃ := hcolumns.tail.trans h₄
    have h₂ := (tail_of_expectName htable).trans h₃
    have h₁ := hinto.tail.trans h₂
    have hto := h.tail.trans (hinto.tail.trans ((tail_of_expectName htable).trans
      (hcolumns.tail.trans (hvalues.tail.trans hrows.tail))))
    rw [← (h.front_before stop h₁).2, ← hto.textUntil_before stop hrest]
    exact .insert (h.before h₁) (hinto.before h₂) (expectName_before htable h₃)
      (hcolumns.before h₄ nofun) (hvalues.before h₅) (hrows.before hrest nofun)
  | update h htable hset hassignments hfilter =>
    have h₄ := hfilter.tail.trans hrest
    have h₃ := hassignments.tail.trans h₄
    have h₂ := hset.tail.trans h₃
    have h₁ := (tail_of_expectName htable).trans h₂
    have hto := h.tail.trans ((tail_of_expectName htable).trans (hset.tail.trans
      (hassignments.tail.trans hfilter.tail)))
    rw [← (h.front_before stop h₁).2, ← hto.textUntil_before stop hrest]
    exact .update (h.before h₁) (expectName_before htable h₂) (hset.before h₃)
      (hassignments.before h₄ nofun) (hfilter.before hrest nofun)
  | delete h hfrom htable hfilter =>
    have h₃ := hfilter.tail.trans hrest
    have h₂ := (tail_of_expectName htable).trans h₃
    have h₁ := hfrom.tail.trans h₂
    have hto := h.tail.trans (hfrom.tail.trans ((tail_of_expectName htable).trans hfilter.tail))
    rw [← (h.front_before stop h₁).2, ← hto.textUntil_before stop hrest]
    exact .delete (h.before h₁) (hfrom.before h₂) (expectName_before htable h₃)
      (hfilter.before hrest nofun)
  | create h hword htable hopen hcolumns hclose =>
    have h₅ := hclose.tail.trans hrest
    have h₄ := hcolumns.tail.trans h₅
    have h₃ := hopen.tail.trans h₄
    have h₂ := (tail_of_expectName htable).trans h₃
    have h₁ := hword.tail.trans h₂
    have hto := h.tail.trans (hword.tail.trans ((tail_of_expectName htable).trans
      (hopen.tail.trans (hcolumns.tail.trans hclose.tail))))
    rw [← (h.front_before stop h₁).2, ← hto.textUntil_before stop hrest]
    exact .create (h.before h₁) (hword.before h₂) (expectName_before htable h₃) (hopen.before h₄)
      (hcolumns.before h₅ nofun) (hclose.before hrest)

/-- A statement starts with a keyword, and it records its text and its place. -/
theorem front (h : Forms o ts s rest) : (∃ word t, ts.Takes (· == .keyword word) t ∧ t.Tail rest) ∧
    s.text = ts.textUntil rest ∧ s.offset = ts.start := by
  cases h with
  | select h =>
    cases h with
    | select h hdistinct houtput horigin hfilter hgroup horder hlimit =>
      exact ⟨⟨_, _, h, hdistinct.tail.trans (houtput.tail.trans (horigin.tail.trans
        (hfilter.tail.trans (hgroup.tail.trans (horder.tail.trans hlimit.tail)))))⟩, rfl, rfl⟩
  | insert h hinto htable hcolumns hvalues hrows =>
    exact ⟨⟨_, _, h, hinto.tail.trans ((tail_of_expectName htable).trans
      (hcolumns.tail.trans (hvalues.tail.trans hrows.tail)))⟩, rfl, rfl⟩
  | update h htable hset hassignments hfilter =>
    exact ⟨⟨_, _, h, (tail_of_expectName htable).trans (hset.tail.trans
      (hassignments.tail.trans hfilter.tail))⟩, rfl, rfl⟩
  | delete h hfrom htable hfilter =>
    exact ⟨⟨_, _, h, hfrom.tail.trans ((tail_of_expectName htable).trans hfilter.tail)⟩, rfl, rfl⟩
  | create h hword htable hopen hcolumns hclose =>
    exact ⟨⟨_, _, h, hword.tail.trans ((tail_of_expectName htable).trans
      (hopen.tail.trans (hcolumns.tail.trans hclose.tail)))⟩, rfl, rfl⟩

theorem sliceOf {source : String} (h : Forms o ts s rest) (hts : (Tokens.ofText source).Tail ts) :
    s.SliceOf o source := by
  obtain ⟨⟨word, t, hword, ht⟩, htext, hoffset⟩ := h.front
  have hcheck := hword.check_keyword
  have htokens := statement_eq_ok_iff.2 h
  obtain ⟨l, rfl, -, -⟩ := hword
  obtain ⟨front, back, stop, hsource, hfront, hmoved⟩ := Tokens.slice_ofText hts ht
  have hoffset' : l.start = s.offset := hoffset.symm
  rw [← htext, hoffset'] at hmoved
  have hparse : Statement.ofTokens o ((Tokens.next l t).before rest stop) = .ok s := by
    refine Statement.ofTokens_eq_ok_iff.2 ⟨(Tail.next ht).check_before hcheck, _, _, false,
      h.before (.refl rest), .absent ?_, ?_⟩
    · rw [Tokens.before_self]
      nofun
    · rw [Tokens.before_self]
      rfl
  have hapart := Statement.ofTokens_moved o hmoved
  rw [hparse, ← Statement.parse_eq_ofTokens] at hapart
  refine ⟨⟨_, rest, hts, htokens, htext, hoffset⟩, ⟨front, back, htext ▸ hsource,
    hfront.trans hoffset'⟩, ?_⟩
  revert hapart
  generalize Statement.parse o s.text = x
  rintro ⟨hs⟩
  exact ⟨_, rfl, hs⟩

end Forms

namespace Statement

/-- **The text that a statement records is its own**, and so is that of each of its sub-selects. -/
theorem parse_slices {o : ParserOptions} {source : String} {s : Statement}
    (h : parse o source = .ok s) : s.SliceOf o source ∧
      s.Everywhere (.ofParts (fun _ => True) fun q => (select q).SliceOf o source) := by
  obtain ⟨-, rest, last, b, hs, -⟩ := ofTokens_eq_ok_iff.1 ((parse_eq_ofTokens o source) ▸ h)
  refine ⟨hs.sliceOf (.refl _), hs.everywhere (fun _ _ => trivial) (fun _ _ => trivial) ?_⟩
  intro depth ts rest q hts hq
  -- a sub-select nests no deeper than the options allow inside, so it does outside as well
  have hnesting : q.nesting ≤ o.maxDepth - 0 := Nat.le_trans hq.nesting_le (Nat.sub_le _ _)
  exact (Forms.select (hq.of_fits ⟨hnesting, hq.fits.flat⟩)).sliceOf hts

/-- A sub-select in a statement with blanks and a semicolon around it. -/
theorem subSelect_slices :
    let source := "  SELECT a FROM (SELECT MAX(b) AS a FROM t ) ; "
    ∃ s, parse {} source = .ok s ∧ s.text = "SELECT a FROM (SELECT MAX(b) AS a FROM t )" ∧
      s.SliceOf {} source ∧
      s.Everywhere (.ofParts (fun _ => True) fun q => (select q).SliceOf {} source) := by
  intro source
  have hparse : (parse {} source).map text = .ok "SELECT a FROM (SELECT MAX(b) AS a FROM t )" := by
    cbv
  obtain ⟨s, hs, htext⟩ := map_eq_ok_iff.1 hparse
  exact ⟨s, hs, htext, parse_slices hs⟩

end Statement

end SqlEngine

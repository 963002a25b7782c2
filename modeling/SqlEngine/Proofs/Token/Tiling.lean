import SqlEngine.Proofs.Token.Fronts

/-!
# Tokens — tiling

A lexer that reads one token at a time, each from the offset where the one before it stopped, gets
through the whole text: it comes to the end or to a malformed number, and leaves out nothing but
blanks.

* `Tokens.Calls`: the tokens that such a lexer reads, call by call.
* `Tokens.Tiles`: gaps and spellings that stand one after the other.
* `Tokens.calls_tile`: the calls read the tokens of the text and no others, these tile the text, and
  every place that a call stops at or reports is the start of a character or the end of the text.
-/

namespace SqlEngine

/-! ### Bytes and characters -/

namespace Text

theorem byteLength_toList (s : String) : byteLength s.toList = s.utf8ByteSize := by
  obtain ⟨cs, rfl⟩ := s.exists_eq_ofList
  rw [String.toList_ofList]
  induction cs with
  | nil => rfl
  | cons c cs ih =>
    rw [byteLength_cons, ih, String.ofList_cons, String.utf8ByteSize_append,
      String.utf8ByteSize_singleton]

theorem dropBytes_append (front back : List Char) :
    dropBytes (byteLength front) (front ++ back) = some back := by
  induction front with
  | nil => simp only [byteLength_nil, List.nil_append, dropBytes]
  | cons c front ih =>
    obtain ⟨n, hn⟩ := Nat.exists_eq_succ_of_ne_zero (Nat.ne_of_gt c.utf8Size_pos)
    have hsucc : byteLength (c :: front) = n + byteLength front + 1 := by
      rw [byteLength_cons, hn]
      omega
    have hle : c.utf8Size ≤ n + byteLength front + 1 := by omega
    have hrest : n + byteLength front + 1 - c.utf8Size = byteLength front := by omega
    rw [hsucc, List.cons_append, dropBytes, if_pos hle, hrest, ih]

/-- Behind a front part of a text a character starts, or the text ends. -/
theorem isValid_of_append {text : String} {front back : List Char}
    (h : text.toList = front ++ back) : String.Pos.Raw.IsValid text ⟨byteLength front⟩ := by
  refine String.Pos.Raw.isValid_iff_exists_append.2
    ⟨String.ofList front, String.ofList back, ?_, ?_⟩
  · rw [← String.ofList_append, ← h, String.ofList_toList]
  · rw [String.rawEndPos, ← byteLength_toList, String.toList_ofList]

theorem byteLength_of_forall {cs : List Char} (h : ∀ c ∈ cs, c.utf8Size = 1) :
    byteLength cs = cs.length := by
  induction cs with
  | nil => rfl
  | cons c cs ih =>
    rw [byteLength_cons, h c List.mem_cons_self, ih fun d hd => h d (List.mem_cons_of_mem c hd),
      List.length_cons, Nat.add_comm]

end Text

/-! ### The place of a malformed number -/

namespace Token

theorem utf8Size_of_isDigit {c : Char} (h : c.isDigit = true) : c.utf8Size = 1 := by
  simp only [Char.isDigit, Bool.and_eq_true, decide_eq_true_eq] at h
  exact if_pos (UInt32.le_trans h.2 (by decide))

theorem utf8Size_of_isExponentMark {c : Char} (h : isExponentMark c = true) : c.utf8Size = 1 := by
  simp only [isExponentMark, Bool.or_eq_true, beq_iff_eq] at h
  rcases h with rfl | rfl <;> rfl

theorem Digits.byteLength {cs : List Char} (h : Digits cs) : Text.byteLength cs = cs.length :=
  Text.byteLength_of_forall fun c hc => utf8Size_of_isDigit (h c hc)

theorem Fraction.byteLength {cs : List Char} (h : Fraction cs) :
    Text.byteLength cs = cs.length := by
  cases h with
  | none => rfl
  | some hdigits =>
    rw [Text.byteLength_cons, hdigits.byteLength, List.length_cons, Nat.add_comm]
    rfl

theorem Sign.byteLength {cs : List Char} (h : Sign cs) : Text.byteLength cs = cs.length := by
  cases h <;> rfl

theorem checkEnd_map_error {spelling cs : List Char} {hasExponent : Bool} {r : Reading}
    {e : NumberFault × Nat}
    (h : (checkEnd spelling hasExponent cs).map (fun _ => r) = .error e) :
    e.2 = spelling.length ∧ ∀ literal, e.1 ≠ .unreadable literal := by
  unfold checkEnd at h
  split at h
  · split at h
    · cases h; exact ⟨rfl, nofun⟩
    split at h
    · cases h; exact ⟨rfl, nofun⟩
    · cases h
  · cases h

/-- A malformed number is reported at one of its characters or right behind them, and not as a
literal that cannot be read. -/
theorem readNumber_error {cs : List Char} {e : NumberFault × Nat} (h : readNumber cs = .error e) :
    (∃ front back, cs = front ++ back ∧ Text.byteLength front = e.2) ∧
      ∀ literal, e.1 ≠ .unreadable literal := by
  have hwhole : Digits (split Char.isDigit cs).1 := digits_takeWhile _
  have hfraction := (splitFraction_cases (split Char.isDigit cs).2).1
  obtain ⟨plain, hdef⟩ : ∃ plain, (split Char.isDigit cs).1 ++
    (splitFraction (split Char.isDigit cs).2).1 = plain := ⟨_, rfl⟩
  have hplain : Text.byteLength plain = plain.length := by
    rw [← hdef, Text.byteLength_append, hwhole.byteLength, hfraction.byteLength,
      List.length_append]
  have hcs : cs = plain ++ (splitFraction (split Char.isDigit cs).2).2 := by
    rw [← hdef, List.append_assoc, splitFraction_append, split_append]
  unfold readNumber at h
  simp only [hdef] at h
  split at h
  next mark afterMark hrest =>
    rw [hrest] at hcs
    split at h
    next hmark =>
      have hsign := sign_splitSign afterMark
      have hexponent : Text.byteLength (plain ++ mark :: (splitSign afterMark).1) =
          plain.length + 1 + (splitSign afterMark).1.length := by
        rw [Text.byteLength_append, Text.byteLength_cons, hplain, hsign.byteLength,
          utf8Size_of_isExponentMark hmark, Nat.add_assoc]
      split at h
      next =>
        obtain rfl := Except.error.inj h
        refine ⟨⟨plain ++ mark :: (splitSign afterMark).1, (splitSign afterMark).2, ?_, hexponent⟩,
          nofun⟩
        rw [List.append_assoc, List.cons_append, splitSign_append, hcs]
      next =>
        obtain ⟨hplace, hfault⟩ := checkEnd_map_error h
        have hdigits : Digits (split Char.isDigit (splitSign afterMark).2).1 := digits_takeWhile _
        refine ⟨⟨plain ++ mark :: (splitSign afterMark).1 ++
          (split Char.isDigit (splitSign afterMark).2).1,
          (split Char.isDigit (splitSign afterMark).2).2, ?_, ?_⟩, hfault⟩
        · simp only [List.append_assoc, List.cons_append, split_append, splitSign_append]
          exact hcs
        · rw [hplace, Text.byteLength_append, hexponent, hdigits.byteLength]
          simp only [List.length_append, List.length_cons]
          omega
    next =>
      obtain ⟨hplace, hfault⟩ := checkEnd_map_error h
      exact ⟨⟨plain, mark :: afterMark, hcs, hplain.trans hplace.symm⟩, hfault⟩
  next => cases h

theorem read_error {c : Char} {cs : List Char} {e : NumberFault × Nat} (h : read c cs = .error e) :
    (∃ front back, c :: cs = front ++ back ∧ Text.byteLength front = e.2) ∧
      ∀ literal, e.1 ≠ .unreadable literal := by
  unfold read at h
  split at h
  · exact readNumber_error h
  · repeat' split at h
    all_goals cases h

end Token

namespace Tokens

/-! ### One token at a time -/

/-- The tokens that are read one at a time: the first one from an offset on, and each other from
where the one before it stops. -/
inductive Calls (text : String) : Nat → Tokens → Prop
  | finish {offset stop : Nat} {gap : List Char} (h : ofTextAt text offset = finish gap stop) :
      Calls text offset (finish gap stop)
  | broken {offset place : Nat} {fault : NumberFault}
      (h : ofTextAt text offset = broken fault place) : Calls text offset (broken fault place)
  | next {offset : Nat} {l : Lexeme} {t rest : Tokens} (h : ofTextAt text offset = next l t)
      (hrest : Calls text (l.start + Text.byteLength l.spelling) rest) :
      Calls text offset (next l rest)

variable {text : String} {offset start : Nat} {cs : List Char} {ts ts' : Tokens}

theorem Calls.unique (h : Calls text offset ts) (h' : Calls text offset ts') : ts' = ts := by
  induction h generalizing ts' with
  | finish h =>
    cases h' with
    | finish h' => exact h'.symm.trans h
    | broken h' | next h' => cases h'.symm.trans h
  | broken h =>
    cases h' with
    | broken h' => exact h'.symm.trans h
    | finish h' | next h' => cases h'.symm.trans h
  | next h _ ih =>
    cases h' with
    | finish h' | broken h' => cases h'.symm.trans h
    | next h' hrest =>
      obtain ⟨rfl, -⟩ := next.inj (h'.symm.trans h)
      rw [ih hrest]

theorem ofTextAt_of_append {front back : List Char} (h : text.toList = front ++ back) :
    ofTextAt text (Text.byteLength front) = ofChars (Text.byteLength front) back := by
  rw [ofTextAt, h, Text.dropBytes_append, Option.getD_some]

/-- The calls from a place of the text on read the tokens of what is left of the text. -/
theorem calls_ofChars {front back : List Char} (h : text.toList = front ++ back) :
    Calls text (Text.byteLength front) (ofChars (Text.byteLength front) back) := by
  cases hts : ofChars (Text.byteLength front) back with
  | finish gap stop => exact .finish ((ofTextAt_of_append h).trans hts)
  | broken fault place => exact .broken ((ofTextAt_of_append h).trans hts)
  | next l t =>
    obtain ⟨c, s, more, hback, -, -, -, hs, hstart, rfl⟩ := ofChars_cases hts
    have hlt : more.length < back.length := by
      simp only [hback, List.length_append, List.length_cons]
      omega
    have hstop : l.start + Text.byteLength l.spelling =
        Text.byteLength (front ++ l.gap ++ l.spelling) := by
      simp only [Text.byteLength_append, hstart]
    have hmore : text.toList = front ++ l.gap ++ l.spelling ++ more := by
      rw [h, hback, hs]
      simp
    rw [hstop] at hts ⊢
    exact .next ((ofTextAt_of_append h).trans hts) (hstop ▸ calls_ofChars hmore)
termination_by back.length

/-! ### Tiles -/

/-- Gaps and spellings that stand one after the other: the tokens of the text `cs` whose first byte
is at offset `start`. -/
inductive Tiles : Nat → List Char → Tokens → Prop
  | finish {start : Nat} {gap : List Char} (hgap : ∀ b ∈ gap, Text.isBlank b = true) :
      Tiles start gap (finish gap (start + Text.byteLength gap))
  | broken {start : Nat} {fault : NumberFault} (front back : List Char) :
      Tiles start (front ++ back) (broken fault (start + Text.byteLength front))
  | next {start : Nat} {l : Lexeme} {more : List Char} {rest : Tokens}
      (hgap : ∀ b ∈ l.gap, Text.isBlank b = true) (hspelling : 0 < Text.byteLength l.spelling)
      (hstart : l.start = start + Text.byteLength l.gap)
      (hrest : Tiles (l.start + Text.byteLength l.spelling) more rest) :
      Tiles start (l.gap ++ l.spelling ++ more) (next l rest)

theorem tiles_ofChars (start : Nat) (cs : List Char) : Tiles start cs (ofChars start cs) := by
  have hgap : ∀ b ∈ cs.takeWhile Text.isBlank, Text.isBlank b = true :=
    fun _ => List.mem_takeWhile_imp
  have hcs : cs.takeWhile Text.isBlank ++ cs.dropWhile Text.isBlank = cs :=
    List.takeWhile_append_dropWhile
  rw [ofChars_eq]
  dsimp only
  generalize cs.takeWhile Text.isBlank = gap at hgap hcs ⊢
  cases hd : cs.dropWhile Text.isBlank with
  | nil =>
    rw [hd, List.append_nil] at hcs
    subst hcs
    exact .finish hgap
  | cons c rest =>
    rw [hd] at hcs
    dsimp only
    cases hr : Token.read c rest with
    | error e =>
      obtain ⟨⟨front, back, hfront, hplace⟩, -⟩ := Token.read_error hr
      have hbroken : Tiles start (gap ++ front ++ back)
          (broken e.1 (start + Text.byteLength (gap ++ front))) := .broken (gap ++ front) back
      rwa [Text.byteLength_append, hplace, List.append_assoc, ← hfront, hcs, ← Nat.add_assoc]
        at hbroken
    | ok r =>
      obtain ⟨s, hs⟩ := Token.spelling_cons hr
      have hspelling : 0 < Text.byteLength r.spelling := by
        rw [hs, Text.byteLength_cons]
        exact Nat.lt_add_right _ c.utf8Size_pos
      have hlt : r.rest.length < cs.length := by
        have hlt := Token.read_rest_lt hr
        rw [← hcs, List.length_append, List.length_cons]
        omega
      have hnext := Tiles.next (l := ⟨start + Text.byteLength gap, gap, r.spelling, r.token⟩)
        hgap hspelling rfl (tiles_ofChars _ r.rest)
      rwa [List.append_assoc, Token.read_split hr, hcs] at hnext
termination_by cs.length

/-- The places where a token stops, the text ends or a number is malformed. -/
def stops : Tokens → List Nat
  | finish _ stop   => [stop]
  | broken _ place  => [place]
  | next l rest     => (l.start + Text.byteLength l.spelling) :: rest.stops

/-- The gaps and spellings, one after the other. -/
def written : Tokens → List Char
  | finish gap _ => gap
  | broken ..    => []
  | next l rest  => l.gap ++ l.spelling ++ rest.written

namespace Tiles

theorem length_le (h : Tiles start cs ts) : ts.length ≤ Text.byteLength cs := by
  induction h with
  | finish => exact Nat.zero_le _
  | broken => exact Nat.zero_le _
  | next _ hspelling _ _ ih =>
    simp only [length_next, Text.byteLength_append]
    omega

/-- Every stop is the start of a character or the end of the text. -/
theorem isValid (h : Tiles start cs ts) {front : List Char} (htext : text.toList = front ++ cs)
    (hfront : start = Text.byteLength front) :
    ∀ n ∈ ts.stops, String.Pos.Raw.IsValid text ⟨n⟩ := by
  induction h generalizing front with
  | @finish start gap =>
    have hvalid := Text.isValid_of_append (htext.trans (List.append_nil _).symm)
    rw [Text.byteLength_append, ← hfront] at hvalid
    exact List.forall_mem_singleton.2 hvalid
  | @broken start fault kept back =>
    have hvalid := Text.isValid_of_append (htext.trans (List.append_assoc ..).symm)
    rw [Text.byteLength_append, ← hfront] at hvalid
    exact List.forall_mem_singleton.2 hvalid
  | @next start l more rest _ _ hstart _ ih =>
    have hmore : text.toList = front ++ l.gap ++ l.spelling ++ more := by
      rw [htext]
      simp only [List.append_assoc]
    have hstop : l.start + Text.byteLength l.spelling =
        Text.byteLength (front ++ l.gap ++ l.spelling) := by
      simp only [Text.byteLength_append, hstart, hfront]
    refine List.forall_mem_cons.2 ⟨?_, ih hmore hstop⟩
    rw [hstop]
    exact Text.isValid_of_append hmore

/-- Where the text ends, all of it has been written. -/
theorem finish_of_tail (h : Tiles start cs ts) {gap : List Char} {stop : Nat}
    (htail : ts.Tail (.finish gap stop)) : stop = start + Text.byteLength cs ∧ ts.written = cs := by
  induction h with
  | finish =>
    cases htail
    exact ⟨rfl, rfl⟩
  | broken => cases htail
  | @next start l more rest _ _ hstart _ ih =>
    cases htail with
    | next htail =>
      obtain ⟨rfl, hwritten⟩ := ih htail
      refine ⟨?_, congrArg (l.gap ++ l.spelling ++ ·) hwritten⟩
      simp only [hstart, Text.byteLength_append]
      omega

end Tiles

/-- **The tokens of a text tile it.**  A lexer that reads one token at a time reads the tokens of
the text and no others, which are no more than the text has bytes.  Each stands behind blanks only,
where the one before it stops, and has some bytes; all stops are boundaries of characters.  Where
there is an end, it is the end of the text, and the gaps and spellings are the text. -/
theorem calls_tile (text : String) :
    (∀ ts, Calls text 0 ts ↔ ts = ofText text) ∧ (ofText text).length ≤ text.utf8ByteSize ∧
      Tiles 0 text.toList (ofText text) ∧
      (∀ n ∈ (ofText text).stops, String.Pos.Raw.IsValid text ⟨n⟩) ∧
      ∀ gap stop, (ofText text).Tail (finish gap stop) →
        stop = text.utf8ByteSize ∧ String.ofList (ofText text).written = text := by
  have htext : text.toList = [] ++ text.toList := rfl
  have hcalls : Calls text 0 (ofText text) := calls_ofChars htext
  have htiles : Tiles 0 text.toList (ofText text) := tiles_ofChars 0 text.toList
  refine ⟨fun ts => ⟨hcalls.unique, fun h => h ▸ hcalls⟩, ?_, htiles, ?_, ?_⟩
  · exact Text.byteLength_toList text ▸ htiles.length_le
  · exact htiles.isValid htext rfl
  · intro gap stop htail
    obtain ⟨hstop, hwritten⟩ := htiles.finish_of_tail htail
    rw [hwritten, String.ofList_toList]
    exact ⟨by rwa [Nat.zero_add, Text.byteLength_toList] at hstop, rfl⟩

end Tokens

end SqlEngine

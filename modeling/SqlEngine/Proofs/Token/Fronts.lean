import SqlEngine.Proofs.Token.Numbers
import SqlEngine.Proofs.Token.Places

/-!
# Tokens — fronts

A parser takes tokens from the front.  `Tail ts rest` says that `rest` is left of `ts`, and
`ts.before rest stop` are the tokens that were taken: those in front of `rest`, up to an end at
`stop`.

* `Token.read_prefix`: a token is read the same where the text is cut off behind it, since what the
  lexer looks at behind a token only keeps the token from going on.
* `Tokens.slice_ofText`: the text of some tokens of a text is a slice of it, which has these tokens
  and no others.
-/

namespace SqlEngine

/-! ### One token -/

namespace Tokens

/-- A token with the property is at the front, and a parser may go on after it. -/
def Takes (p : Token → Bool) (ts rest : Tokens) : Prop :=
  ∃ l, ts = .next l rest ∧ p l.token = true ∧ rest.check = .ok ()

/-- No token with the property is at the front. -/
def Lacks (p : Token → Bool) (ts : Tokens) : Prop :=
  ∀ l rest, ts = .next l rest → p l.token = false

/-- A token with the property is taken if it is at the front. -/
inductive Maybe (p : Token → Bool) : Tokens → Bool → Tokens → Prop
  | taken {ts rest : Tokens} (h : ts.Takes p rest) : Maybe p ts true rest
  | absent {ts : Tokens} (h : ts.Lacks p) : Maybe p ts false ts

/-- The second tokens are left of the first ones. -/
inductive Tail : Tokens → Tokens → Prop
  | refl (ts : Tokens) : Tail ts ts
  | next {l : Lexeme} {t rest : Tokens} (h : Tail t rest) : Tail (next l t) rest

namespace Tail

variable {ts t rest : Tokens}

theorem trans (h : Tail ts t) (h' : Tail t rest) : Tail ts rest := by
  induction h with
  | refl => exact h'
  | next _ ih => exact .next (ih h')

theorem length (h : Tail ts rest) : rest.length ≤ ts.length := by
  induction h with
  | refl => exact Nat.le_refl _
  | next _ ih => exact Nat.le_succ_of_le ih

end Tail

theorem takes_next {p : Token → Bool} {l : Lexeme} {t rest : Tokens} :
    (next l t).Takes p rest ↔ p l.token = true ∧ rest = t ∧ t.check = .ok () := by
  constructor
  · rintro ⟨_, ⟨⟩, hp, hcheck⟩
    exact ⟨hp, rfl, hcheck⟩
  · rintro ⟨hp, rfl, hcheck⟩
    exact ⟨l, rfl, hp, hcheck⟩

theorem lacks_next {p : Token → Bool} {l : Lexeme} {t : Tokens} :
    (next l t).Lacks p ↔ p l.token = false :=
  ⟨fun h => h l t rfl, fun h _ _ heq => by cases heq; exact h⟩

theorem Takes.tail {p : Token → Bool} {ts rest : Tokens} (h : ts.Takes p rest) : ts.Tail rest := by
  obtain ⟨l, rfl, -, -⟩ := h
  exact .next (.refl rest)

theorem Maybe.tail {p : Token → Bool} {ts rest : Tokens} {b : Bool} (h : ts.Maybe p b rest) :
    ts.Tail rest := by
  cases h with
  | taken h => exact h.tail
  | absent => exact .refl ts

theorem Takes.length {p : Token → Bool} {ts rest : Tokens} (h : ts.Takes p rest) :
    rest.length < ts.length := by
  obtain ⟨l, rfl, -, -⟩ := h
  exact Nat.lt_succ_self _

theorem Takes.current {p : Token → Bool} {ts rest : Tokens} (h : ts.Takes p rest) :
    p ts.current = true := by
  obtain ⟨l, rfl, hp, -⟩ := h
  exact hp

theorem Lacks.current {p : Token → Bool} {ts : Tokens} (h : ts.Lacks p)
    (hfinish : p .finish = false) : p ts.current = false := by
  cases ts with
  | finish | broken => exact hfinish
  | next l t => exact h l t rfl

/-- A token that is taken may be taken for another property that it has. -/
theorem Takes.of_current {p q : Token → Bool} {ts rest : Tokens} (h : ts.Takes p rest)
    (hq : q ts.current = true) : ts.Takes q rest := by
  obtain ⟨l, rfl, -, hcheck⟩ := h
  exact ⟨l, rfl, hq, hcheck⟩

end Tokens

/-! ### Tokens up to others -/

namespace Tokens

/-- The tokens that stand before others; they end at the offset `stop`. -/
def before (ts root : Tokens) (stop : Nat) : Tokens :=
  match ts with
  | next l rest =>
    if rest.length < root.length then finish [] stop else next l (rest.before root stop)
  | _ => finish [] stop

variable {p : Token → Bool} {ts t rest root : Tokens} {l : Lexeme} {stop : Nat}

@[simp] theorem before_self : root.before root stop = finish [] stop := by
  cases root with
  | finish | broken => rfl
  | next l rest => exact if_pos (Nat.lt_succ_self _)

theorem Tail.before_next (h : rest.Tail root) :
    (Tokens.next l rest).before root stop = Tokens.next l (rest.before root stop) :=
  if_neg (Nat.not_lt.2 h.length)

theorem Tail.length_before (h : ts.Tail root) :
    (ts.before root stop).length = ts.length - root.length := by
  induction h with
  | refl => rw [before_self, Nat.sub_self, Tokens.length]
  | next h ih =>
    have hle := h.length
    rw [h.before_next, length_next, length_next, ih]
    omega

/-- The token at the front is kept, or all tokens are cut off. -/
theorem Tail.current_before (h : ts.Tail root) (stop : Nat) :
    (ts.before root stop).current = ts.current ∨
      ts = root ∧ (ts.before root stop).current = .finish := by
  cases h with
  | refl => exact .inr ⟨rfl, by rw [before_self]; rfl⟩
  | next h => exact .inl (by rw [h.before_next]; rfl)

theorem Tail.current_before_ne {t : Token} (h : ts.Tail root) (ht : t ≠ .finish)
    (hne : ts.current ≠ t) : (ts.before root stop).current ≠ t := by
  rcases h.current_before stop with hcurrent | ⟨-, hcurrent⟩
  · rwa [hcurrent]
  · rw [hcurrent]
    exact ht.symm

/-- Where a token is left, it is kept in its place. -/
theorem Tail.front_before (h : ts.Tail root) (stop : Nat) (hlt : root.length < ts.length) :
    (ts.before root stop).current = ts.current ∧ (ts.before root stop).start = ts.start := by
  cases h with
  | refl => exact absurd hlt (Nat.lt_irrefl _)
  | next h =>
    rw [h.before_next]
    exact ⟨rfl, rfl⟩

theorem Tail.second_before (h : ts.Tail root) (stop : Nat) :
    (ts.before root stop).second = ts.second ∨ (ts.before root stop).second = .finish := by
  cases h with
  | refl => exact .inr (by rw [before_self]; rfl)
  | next h =>
    rw [h.before_next]
    exact (h.current_before stop).imp id And.right

theorem check_next_iff : (next l t).check = .ok () ↔ l.token.openFault? = none ∧
    (∀ c, l.token ≠ .stray c) ∧ ∀ fault offset, t ≠ .broken fault offset := by
  obtain ⟨start, gap, spelling, token⟩ := l
  cases t with
  | broken => exact ⟨nofun, fun h => absurd rfl (h.2.2 _ _)⟩
  | finish | next =>
    cases token with
    | string content closed | name text closed => cases closed <;> simp [check, Token.openFault?]
    | _ => simp [check, Token.openFault?]

/-- A parser may go on from a keyword if it may go on behind it. -/
theorem Takes.check_keyword {word : Keyword} (h : ts.Takes (· == .keyword word) rest) :
    ts.check = .ok () := by
  obtain ⟨l, rfl, hword, hcheck⟩ := h
  have hl : l.token = .keyword word := beq_iff_eq.1 hword
  refine check_next_iff.2 ⟨by rw [hl]; rfl, by simp [hl], ?_⟩
  rintro fault offset rfl
  cases hcheck

theorem Tail.check_before (h : ts.Tail root) (hcheck : ts.check = .ok ()) :
    (ts.before root stop).check = .ok () := by
  cases h with
  | refl =>
    rw [before_self]
    rfl
  | @next l t _ h =>
    obtain ⟨hopen, hstray, hbroken⟩ := check_next_iff.1 hcheck
    rw [h.before_next]
    refine check_next_iff.2 ⟨hopen, hstray, fun fault offset => ?_⟩
    cases h with
    | refl =>
      rw [before_self]
      nofun
    | next h =>
      rw [h.before_next]
      nofun

theorem Takes.before (h : ts.Takes p rest) (hrest : rest.Tail root) :
    (ts.before root stop).Takes p (rest.before root stop) := by
  obtain ⟨l, rfl, hp, hcheck⟩ := h
  rw [hrest.before_next]
  exact ⟨l, rfl, hp, hrest.check_before hcheck⟩

theorem Lacks.before (h : ts.Lacks p) (hts : ts.Tail root) : (ts.before root stop).Lacks p := by
  cases hts with
  | refl =>
    rw [before_self]
    nofun
  | next hts =>
    rw [hts.before_next]
    exact lacks_next.2 (lacks_next.1 h)

theorem Maybe.before {b : Bool} (h : ts.Maybe p b rest) (hrest : rest.Tail root) :
    (ts.before root stop).Maybe p b (rest.before root stop) := by
  cases h with
  | taken h => exact .taken (h.before hrest)
  | absent h => exact .absent (h.before hrest)

theorem Takes.front_before (h : ts.Takes p rest) (stop : Nat) (hrest : rest.Tail root) :
    (ts.before root stop).current = ts.current ∧ (ts.before root stop).start = ts.start :=
  (h.tail.trans hrest).front_before stop (Nat.lt_of_le_of_lt hrest.length h.length)

theorem Tail.following_before (h : ts.Tail root) {n : Nat} (hn : n ≤ ts.length - root.length) :
    covered.following n (ts.before root stop) = covered.following n ts := by
  induction h generalizing n with
  | refl =>
    obtain rfl : n = 0 := by omega
    simp only [covered.following]
  | @next l t root h ih =>
    rw [h.before_next]
    cases n with
    | zero => simp only [covered.following]
    | succ n =>
      have hn : n ≤ t.length - root.length := by
        rw [length_next] at hn
        omega
      simp only [covered.following, ih hn]

/-- The text up to what comes later is not cut off. -/
theorem Tail.textUntil_before (h : ts.Tail rest) (stop : Nat) (hrest : rest.Tail root) :
    (ts.before root stop).textUntil (rest.before root stop) = ts.textUntil rest := by
  have hle := h.length
  have hle' := hrest.length
  simp only [textUntil, (h.trans hrest).length_before, hrest.length_before]
  rw [show ts.length - root.length - (rest.length - root.length) = ts.length - rest.length by omega]
  congr 1
  cases h.trans hrest with
  | refl =>
    rw [show ts.length - rest.length = 0 by omega]
    simp only [covered]
  | @next l t _ h' =>
    rw [h'.before_next]
    cases hn : (Tokens.next l t).length - rest.length with
    | zero => simp only [covered]
    | succ n =>
      have hn : n ≤ t.length - root.length := by
        rw [length_next] at hn
        omega
      simp only [covered, h'.following_before hn]

end Tokens

/-! ### A token in a text that is cut off behind it -/

namespace Token

variable {c : Char} {cs keep drop : List Char}

theorem split_prefix {p : Char → Bool} (h : (split p cs).2 = keep ++ drop) :
    split p ((split p cs).1 ++ keep) = ((split p cs).1, keep) := by
  have hall : ∀ x ∈ cs.takeWhile p, p x = true := fun _ => List.mem_takeWhile_imp
  have hkeep : ∀ x ∈ keep.head?, p x = false := by
    intro x hx
    have hnot := List.head?_dropWhile_not p cs
    rw [show cs.dropWhile p = keep ++ drop from h, List.head?_append, Option.mem_def.1 hx] at hnot
    simpa using hnot
  simp only [split]
  cases keep with
  | nil =>
    rw [List.append_nil, List.takeWhile_eq_self_iff.2 hall, List.dropWhile_eq_nil_iff.2 hall]
  | cons k keep =>
    have hk : ¬ p k = true := by simp [hkeep k rfl]
    rw [List.takeWhile_append_of_pos hall, List.dropWhile_append_of_pos hall,
      List.takeWhile_cons_of_neg hk, List.dropWhile_cons_of_neg hk, List.append_nil]

theorem EndsNumber.of_append (h : EndsNumber (keep ++ drop)) : EndsNumber keep := by
  cases keep with
  | nil => exact .nil
  | cons k keep => exact h

theorem readString_prefix (h : (readString cs).rest = keep ++ drop) :
    readString ((readString cs).spelling ++ keep) = { readString cs with rest := keep } := by
  fun_induction readString cs with
  | case1 | case3 =>
    obtain ⟨rfl, -⟩ := List.append_eq_nil_iff.1 h.symm
    rfl
  | case2 => rfl
  | case4 c rest p hc ih =>
    have ih : readString (p.spelling ++ keep) = { p with rest := keep } := ih h
    simp only [List.cons_append, readString, ih, if_pos hc]
  | case5 c rest p hc ih =>
    have ih : readString (p.spelling ++ keep) = { p with rest := keep } := ih h
    simp only [List.cons_append, readString, ih, if_neg hc]
  | case6 c rest hquote hend hescape p ih =>
    have ih : readString (p.spelling ++ keep) = { p with rest := keep } := ih h
    have hplain : c ≠ '\\' := by
      intro hc
      cases rest with
      | nil => exact hend hc rfl
      | cons => exact hescape _ _ hc rfl
    rw [List.cons_append, readString]
    · rw [ih]
    · exact hquote
    · exact fun hc => absurd hc hplain
    · exact fun _ _ hc => absurd hc hplain

theorem readQuotedName_prefix (h : (readQuotedName cs).rest = keep ++ drop) :
    ∃ s, (readQuotedName cs).spelling = '"' :: s ∧
      readQuotedName (s ++ keep) = { readQuotedName cs with rest := keep } := by
  have hsplit := split_append (· != '"') cs
  simp only [split] at hsplit
  unfold readQuotedName at h ⊢
  cases hd : cs.dropWhile (· != '"') with
  | nil =>
    simp only [hd] at h hsplit ⊢
    obtain ⟨rfl, -⟩ := List.append_eq_nil_iff.1 h.symm
    rw [List.append_nil] at hsplit
    refine ⟨_, rfl, ?_⟩
    simp only [List.append_nil, hsplit, hd]
  | cons q rest =>
    simp only [hd] at h hsplit ⊢
    have hall : ∀ x ∈ cs.takeWhile (· != '"'), (x != '"') = true :=
      fun _ => List.mem_takeWhile_imp
    have hq : ¬ (q != '"') = true := by
      have hnot := List.head?_dropWhile_not (· != '"') cs
      rw [hd] at hnot
      simpa using hnot
    have htake : (q :: keep).takeWhile (· != '"') = [] := List.takeWhile_cons_of_neg hq
    have hdrop : (q :: keep).dropWhile (· != '"') = q :: keep := List.dropWhile_cons_of_neg hq
    refine ⟨cs.takeWhile (· != '"') ++ [q], rfl, ?_⟩
    simp only [List.append_assoc, List.singleton_append, List.takeWhile_append_of_pos hall,
      List.dropWhile_append_of_pos hall, htake, hdrop, List.append_nil]

theorem ofFront?_prefix {m : Mark} {s : List Char}
    (h : Mark.ofFront? cs = some (m, s, keep ++ drop)) :
    Mark.ofFront? (s ++ keep) = some (m, s, keep) := by
  unfold Mark.ofFront? at h
  split at h <;> simp only [Option.some.injEq, Prod.mk.injEq, reduceCtorEq] at h <;>
    obtain ⟨rfl, rfl, hrest⟩ := h
  -- of the marks of one character, two go on where more of their text is there
  case h_13 rest hequal hgreater =>
    rw [List.singleton_append, Mark.ofFront?]
    · exact fun more hkeep => hequal (more ++ drop) (by rw [hrest, hkeep]; rfl)
    · exact fun more hkeep => hgreater (more ++ drop) (by rw [hrest, hkeep]; rfl)
  case h_14 rest hequal =>
    rw [List.singleton_append, Mark.ofFront?]
    exact fun more hkeep => hequal (more ++ drop) (by rw [hrest, hkeep]; rfl)
  all_goals rfl

theorem ofFront?_eq_none_prefix (h : Mark.ofFront? (c :: (keep ++ drop)) = none) :
    Mark.ofFront? (c :: keep) = none := by
  unfold Mark.ofFront?
  split
  -- the marks that others start with
  case h_13 hfront =>
    obtain ⟨rfl, rfl⟩ := List.cons.inj hfront
    unfold Mark.ofFront? at h
    split at h <;> first
      | exact (‹∀ rest, '<' :: _ = '<' :: rest → False› _ rfl).elim
      | cases h
  case h_14 hfront =>
    obtain ⟨rfl, rfl⟩ := List.cons.inj hfront
    unfold Mark.ofFront? at h
    split at h <;> first
      | exact (‹∀ rest, '>' :: _ = '>' :: rest → False› _ rfl).elim
      | cases h
  case h_17 => rfl
  all_goals
    rename_i hfront
    obtain ⟨rfl, rfl⟩ := List.cons.inj hfront
    cases h

theorem spelling_cons {r : Reading} (h : read c cs = .ok r) : ∃ s, r.spelling = c :: s := by
  have hsplit := read_split h
  have hlt := read_rest_lt h
  cases hs : r.spelling with
  | nil =>
    rw [hs, List.nil_append] at hsplit
    simp [hsplit] at hlt
  | cons d s =>
    rw [hs] at hsplit
    exact ⟨s, by rw [(List.cons.inj hsplit).1]⟩

/-- A token is read the same where the text is cut off behind it. -/
theorem read_prefix {r : Reading} {s : List Char} (h : read c cs = .ok r)
    (hs : r.spelling = c :: s) (hrest : r.rest = keep ++ drop) :
    read c (s ++ keep) = .ok ⟨r.token, r.spelling, keep⟩ := by
  unfold read at h ⊢
  split at h
  next hdigit =>
    obtain ⟨hnumber, hend, htoken⟩ := readNumber_cases hdigit h
    rw [if_pos hdigit, ← List.cons_append, ← hs, htoken]
    rw [hrest] at hend
    exact hnumber.read hend.of_append
  next hdigit =>
  rw [if_neg hdigit]
  split at h
  next hquote =>
    obtain rfl := Except.ok.inj h
    obtain rfl := (List.cons.inj hs).2
    rw [if_pos hquote, readString_prefix hrest]
  next hquote =>
  rw [if_neg hquote]
  split at h
  next hname =>
    obtain rfl := Except.ok.inj h
    obtain ⟨s', hs', hread⟩ := readQuotedName_prefix hrest
    obtain rfl := (List.cons.inj (hs.symm.trans hs')).2
    rw [if_pos hname, hread]
  next hname =>
  rw [if_neg hname]
  split at h
  next hword =>
    obtain rfl := Except.ok.inj h
    have hs : (split isNamePart (c :: cs)).1 = c :: s := hs
    have hsplit := split_prefix (p := isNamePart) hrest
    rw [hs] at hsplit
    rw [if_pos hword, ← List.cons_append, hsplit]
    dsimp only
    rw [← hs]
    rfl
  next hword =>
  rw [if_neg hword]
  have alone {t : Token} (h : ⟨t, [c], cs⟩ = r) :
      (.ok ⟨t, [c], s ++ keep⟩ : Except (NumberFault × Nat) Reading) =
        .ok ⟨r.token, r.spelling, keep⟩ := by
    subst h
    obtain rfl := (List.cons.inj hs).2
    rfl
  split at h
  next hcomma => exact (if_pos hcomma).trans (alone (Except.ok.inj h))
  next hcomma =>
  rw [if_neg hcomma]
  split at h
  next hsemi => exact (if_pos hsemi).trans (alone (Except.ok.inj h))
  next hsemi =>
  rw [if_neg hsemi]
  split at h
  next hdot => exact (if_pos hdot).trans (alone (Except.ok.inj h))
  next hdot =>
  rw [if_neg hdot]
  split at h
  next m spelling rest hmark =>
    obtain rfl := Except.ok.inj h
    obtain rfl : spelling = c :: s := hs
    obtain rfl : rest = keep ++ drop := hrest
    have hfront := ofFront?_prefix hmark
    rw [List.cons_append] at hfront
    rw [hfront]
  next hmark =>
    obtain rfl := Except.ok.inj h
    obtain rfl := (List.cons.inj hs).2
    obtain rfl : cs = keep ++ drop := hrest
    rw [List.nil_append, ofFront?_eq_none_prefix hmark]

end Token

/-! ### The text of some of the tokens -/

namespace Tokens

variable {ts t rest root : Tokens} {l : Lexeme} {start : Nat} {cs : List Char}

/-- The text that a first token was read from. -/
theorem ofChars_cases (h : ofChars start cs = next l t) : ∃ c s more,
    cs = l.gap ++ c :: (s ++ more) ∧ (∀ b ∈ l.gap, Text.isBlank b = true) ∧
      Text.isBlank c = false ∧ Token.read c (s ++ more) = .ok ⟨l.token, l.spelling, more⟩ ∧
      l.spelling = c :: s ∧ l.start = start + Text.byteLength l.gap ∧
      t = ofChars (l.start + Text.byteLength l.spelling) more := by
  rw [ofChars_eq] at h
  cases hd : cs.dropWhile Text.isBlank with
  | nil =>
    simp only [hd] at h
    cases h
  | cons c more =>
    simp only [hd] at h
    cases hr : Token.read c more with
    | error f =>
      simp only [hr] at h
      cases h
    | ok r =>
      simp only [hr] at h
      obtain ⟨rfl, rfl⟩ := next.inj h
      obtain ⟨s, hs⟩ := Token.spelling_cons hr
      have hmore := Token.read_split hr
      rw [hs, List.cons_append] at hmore
      obtain rfl := (List.cons.inj hmore).2
      have hblank : Text.isBlank c = false := by
        have hnot := List.head?_dropWhile_not Text.isBlank cs
        rw [hd] at hnot
        simpa using hnot
      refine ⟨c, s, r.rest, ?_, fun _ => List.mem_takeWhile_imp, hblank, hr, hs, rfl, rfl⟩
      rw [← hd, List.takeWhile_append_dropWhile]

/-- The tokens left of those of a text are those of what is left of the text. -/
theorem Tail.exists_ofChars (h : (ofChars start cs).Tail t) : ∃ front back,
    cs = front ++ back ∧ t = ofChars (start + Text.byteLength front) back := by
  generalize hts : ofChars start cs = ts at h
  induction h generalizing start cs with
  | refl => exact ⟨[], cs, rfl, hts.symm⟩
  | @next l t _ h ih =>
    obtain ⟨c, s, more, rfl, -, -, -, hs, hstart, rfl⟩ := ofChars_cases hts
    obtain ⟨front, back, rfl, ht⟩ := ih rfl
    refine ⟨l.gap ++ l.spelling ++ front, back, by simp [hs], ?_⟩
    rw [ht, hstart]
    simp only [Text.byteLength_append, Nat.add_assoc]

/-- The text of tokens, with the gap in front of them, has these tokens and no others. -/
theorem Tail.exists_following (h : (ofChars start cs).Tail root) : ∃ front back stop,
    covered.following ((ofChars start cs).length - root.length) (ofChars start cs) = front ∧
      cs = front ++ back ∧ ofChars start front = (ofChars start cs).before root stop := by
  generalize hts : ofChars start cs = ts at h
  induction h generalizing start cs with
  | refl =>
    refine ⟨[], cs, start, ?_, rfl, ?_⟩
    · rw [Nat.sub_self]
      simp only [covered.following]
    · rw [before_self, ofChars_eq]
      rfl
  | @next l t root h ih =>
    obtain ⟨c, s, more, rfl, hgap, hblank, hread, hs, hstart, rfl⟩ := ofChars_cases hts
    obtain ⟨front, back, stop, hfollowing, rfl, hfront⟩ := ih rfl
    have hn : (Tokens.next l
        (ofChars (l.start + Text.byteLength l.spelling) (front ++ back))).length - root.length =
          (ofChars (l.start + Text.byteLength l.spelling) (front ++ back)).length -
            root.length + 1 := by
      have hle := h.length
      rw [length_next]
      omega
    refine ⟨l.gap ++ l.spelling ++ front, back, stop, ?_, by simp [hs], ?_⟩
    · rw [hn]
      simp only [covered.following, hfollowing]
    · have hprefix := Token.read_prefix hread hs rfl
      rw [h.before_next, ← hfront, hs, List.append_assoc, List.cons_append,
        ofChars_of_read start l.gap hgap hblank hprefix]
      simp only [← hstart, ← hs]

/-- **The text of some tokens of a text is a slice of it**, and on its own it has these tokens and
no others, from the place on where the slice starts. -/
theorem slice_ofText {text : String} (h : (ofText text).Tail (next l t)) (hroot : t.Tail root) :
    ∃ front back stop,
      text.toList = front ++ ((next l t).textUntil root).toList ++ back ∧
        Text.byteLength front = l.start ∧
        Moved l.start (ofText ((next l t).textUntil root)) ((next l t).before root stop) := by
  obtain ⟨front, after, htext, hnext⟩ := h.exists_ofChars
  obtain ⟨c, s, more, rfl, -, hblank, hread, hs, hstart, rfl⟩ := ofChars_cases hnext.symm
  obtain ⟨kept, back, stop, hkept, rfl, hbefore⟩ := hroot.exists_following
  have hslice : (next l (ofChars (l.start + Text.byteLength l.spelling) (kept ++ back))).textUntil
      root = String.ofList (l.spelling ++ kept) := by
    have hle := hroot.length
    rw [textUntil, length_next, Nat.succ_sub hle, covered, hkept]
  have hfirst := ofChars_of_read 0 [] (List.forall_mem_nil _) hblank
    (Token.read_prefix hread hs rfl)
  rw [List.nil_append, ← List.cons_append, ← hs] at hfirst
  rw [hslice, ofText, String.toList_ofList]
  refine ⟨front ++ l.gap, back, stop, ?_, ?_, ?_⟩
  · simp [htext, hs]
  · simpa using hstart.symm
  · have hmoved := Moved.next (d := l.start) 0 [] l.gap l.spelling l.token
      (ofChars (Text.byteLength l.spelling) kept)
    rw [Nat.zero_add, ← ofChars_add, Nat.add_comm, hbefore] at hmoved
    rw [hroot.before_next]
    simpa only [hfirst, Text.byteLength_nil, Nat.zero_add] using hmoved

end Tokens

end SqlEngine

import Mathlib.Data.List.TakeWhile
import SqlEngine.Proofs.Result
import SqlEngine.Token.Lexer

/-!
# Tokens — places

A text may stand behind another one.  Its tokens are then the same, each one as many bytes further
on as the text before it has, and so are the errors that point at them.

* `Tokens.Moved`: the same tokens at another place; the gaps in front of them may differ.
* `Apart`: results that are the same up to the place of the text, errors included.
* `Tokens.ofChars_add`: a text at another place has the same tokens there.
* `Tokens.ofChars_of_read`, `Tokens.Spells.ofChars`: a token and a name at the front of a text.
-/

namespace SqlEngine

variable {α β γ δ : Type} {d : Nat}

/-- The error of a text that stands `d` bytes further on. -/
def Error.moved (d : Nat) : Error → Error
  | .lex fault offset        => .lex fault (offset + d)
  | .parse fault near offset => .parse fault near (offset + d)
  | .unresolved name offset  => .unresolved name (offset + d)
  | .ambiguous name offset   => .ambiguous name (offset + d)
  | e                        => e

/-- Two results: related values, or one error at two places of which the second is `d` bytes further
on. -/
inductive Apart (d : Nat) (R : α → β → Prop) : Except Error α → Except Error β → Prop
  | ok {a : α} {b : β} (h : R a b) : Apart d R (.ok a) (.ok b)
  | error (e : Error) : Apart d R (.error e) (.error (e.moved d))

/-- One error at one place. -/
theorem Apart.error_zero {R : α → β → Prop} (e : Error) : Apart 0 R (.error e) (.error e) := by
  cases e <;> exact .error _

theorem Apart.bind {R : α → β → Prop} {S : γ → δ → Prop} {x : Except Error α} {y : Except Error β}
    {f : α → Except Error γ} {g : β → Except Error δ} (h : Apart d R x y)
    (hf : ∀ a b, R a b → Apart d S (f a) (g b)) : Apart d S (x >>= f) (y >>= g) := by
  cases h with
  | ok h => exact hf _ _ h
  | error e => exact .error e

theorem Apart.mapRight {R : α → β → Prop} {S : α → δ → Prop} {x : Except Error α}
    {y : Except Error β} {f : β → δ} (h : Apart d R x y) (hf : ∀ a b, R a b → S a (f b)) :
    Apart d S x (y.map f) := by
  cases h with
  | ok h => exact .ok (hf _ _ h)
  | error e => exact .error e

/-- The second result is gone on with, and nothing fails then. -/
theorem Apart.bindRight {R : α → β → Prop} {S : α → δ → Prop} {x : Except Error α}
    {y : Except Error β} {g : β → Except Error δ} (h : Apart d R x y)
    (hg : ∀ a b, R a b → ∃ b', g b = .ok b' ∧ S a b') : Apart d S x (y >>= g) := by
  cases h with
  | error e => exact .error e
  | @ok a b h =>
    obtain ⟨b', hb', hS⟩ := hg a b h
    rw [ok_bind, hb']
    exact .ok hS

/-! ### The same tokens at two places -/

/-- One space is a gap. -/
theorem Text.isBlank_space : ∀ b ∈ [' '], Text.isBlank b = true :=
  List.forall_mem_singleton.2 rfl

namespace Tokens

/-- The tokens of a text that stands `d` bytes further on. -/
def moved (d : Nat) : Tokens → Tokens
  | finish gap start    => finish gap (start + d)
  | broken fault offset => broken fault (offset + d)
  | next lexeme rest    => next { lexeme with start := lexeme.start + d } (rest.moved d)

theorem moved_add (d k : Nat) : ∀ ts : Tokens, (ts.moved d).moved k = ts.moved (d + k)
  | finish gap start    => congrArg (finish gap) (Nat.add_assoc start d k)
  | broken fault offset => congrArg (broken fault) (Nat.add_assoc offset d k)
  | next lexeme rest    => by simp only [moved, Nat.add_assoc, moved_add d k rest]

/-- The second tokens are the first ones, `d` bytes further on, behind a gap that may differ. -/
inductive Moved (d : Nat) : Tokens → Tokens → Prop
  | finish (gap gap' : List Char) (start : Nat) :
      Moved d (finish gap start) (finish gap' (start + d))
  | broken (fault : NumberFault) (offset : Nat) :
      Moved d (broken fault offset) (broken fault (offset + d))
  | next (start : Nat) (gap gap' spelling : List Char) (token : Token) (rest : Tokens) :
      Moved d (next ⟨start, gap, spelling, token⟩ rest)
        (next ⟨start + d, gap', spelling, token⟩ (rest.moved d))

theorem moved_moved (d : Nat) (ts : Tokens) : Moved d ts (ts.moved d) := by
  cases ts with
  | finish gap start => exact .finish gap gap start
  | broken fault offset => exact .broken fault offset
  | next lexeme rest => exact .next _ _ _ _ _ _

@[simp] theorem length_moved (d : Nat) : ∀ ts : Tokens, (ts.moved d).length = ts.length
  | finish .. | broken .. => rfl
  | next _ rest           => congrArg (· + 1) (length_moved d rest)

theorem following_moved (d : Nat) : ∀ (n : Nat) (ts : Tokens),
    covered.following n (ts.moved d) = covered.following n ts
  | 0, _ => by simp only [covered.following]
  | _ + 1, finish .. | _ + 1, broken .. => rfl
  | n + 1, next lexeme rest => congrArg (_ ++ ·) (following_moved d n rest)

namespace Moved

variable {ts ts' ts'' rest rest' : Tokens}

theorem trans {k : Nat} (h : Moved d ts ts') (h' : Moved k ts' ts'') : Moved (d + k) ts ts'' := by
  cases h with
  | finish gap _ start =>
    cases h'
    exact Nat.add_assoc start d k ▸ .finish _ _ _
  | broken fault offset =>
    cases h'
    exact Nat.add_assoc offset d k ▸ .broken _ _
  | next start gap _ spelling token rest =>
    cases h'
    rw [moved_add, Nat.add_assoc]
    exact .next _ _ _ _ _ _

theorem length (h : Moved d ts ts') : ts'.length = ts.length := by
  cases h with
  | finish | broken => rfl
  | next => simp only [length_next, length_moved]

theorem current (h : Moved d ts ts') : ts'.current = ts.current := by
  cases h <;> rfl

theorem start (h : Moved d ts ts') : ts'.start = ts.start + d := by
  cases h <;> rfl

theorem covered (h : Moved d ts ts') (n : Nat) : covered n ts' = covered n ts := by
  cases n with
  | zero => cases h <;> rfl
  | succ n =>
    cases h with
    | finish | broken => rfl
    | next start gap gap' spelling token rest =>
      exact congrArg (spelling ++ ·) (following_moved d n rest)

/-- The text between two fronts does not depend on the place. -/
theorem textUntil (h : Moved d ts ts') (hrest : Moved d rest rest') :
    ts'.textUntil rest' = ts.textUntil rest := by
  simp only [Tokens.textUntil, h.length, hrest.length, h.covered]

theorem check (h : Moved d ts ts') : Apart d (fun _ _ => True) ts.check ts'.check := by
  cases h with
  | finish => exact .ok trivial
  | broken => exact .error _
  | next start gap gap' spelling token rest =>
    cases rest with
    | broken fault offset => exact .error (.lex fault offset)
    | finish | next =>
      cases token with
      | string content closed | name text closed =>
        cases closed with
        | true => exact .ok trivial
        | false => exact .error (.parse _ _ start)
      | stray c => exact .error (.parse _ _ start)
      | number | keyword | mark | comma | semicolon | dot | finish => exact .ok trivial

end Moved

/-- A gap, and then the end of the text, a malformed number, or a token and the tokens after it. -/
theorem ofChars_eq (start : Nat) (cs : List Char) :
    ofChars start cs =
      let gap := cs.takeWhile Text.isBlank
      let front := start + Text.byteLength gap
      match cs.dropWhile Text.isBlank with
      | []        => .finish gap front
      | c :: rest =>
        match Token.read c rest with
        | .error (f, i) => .broken f (front + i)
        | .ok r         => .next ⟨front, gap, r.spelling, r.token⟩
          (ofChars (front + Text.byteLength r.spelling) r.rest) := by
  rw [ofChars]
  split
  next hd => simp only [hd]
  next c rest hd =>
    simp only [hd]
    split
    next hr => simp only [hr]
    next hr => simp only [hr]

/-- A text that stands `d` bytes further on has the same tokens there. -/
theorem ofChars_add (start : Nat) (cs : List Char) :
    ofChars (start + d) cs = (ofChars start cs).moved d := by
  rw [ofChars_eq, ofChars_eq start]
  simp only [Nat.add_right_comm start d]
  cases hd : cs.dropWhile Text.isBlank with
  | nil => rfl
  | cons c rest =>
    simp only
    cases hr : Token.read c rest with
    | error f =>
      simp only [moved, Nat.add_right_comm _ d]
    | ok r =>
      have hlt : r.rest.length < cs.length := by
        have hle := (List.dropWhile_sublist (l := cs) Text.isBlank).length_le
        rw [hd, List.length_cons] at hle
        exact Nat.lt_of_lt_of_le (Token.read_rest_lt hr) hle
      have ih (front : Nat) := ofChars_add front r.rest
      simp only [moved, Nat.add_right_comm _ d, ih]
termination_by cs.length

/-- A token at the front of a text, behind a gap. -/
theorem ofChars_of_read {cs : List Char} {c : Char} {r : Token.Reading} (start : Nat)
    (gap : List Char) (hgap : ∀ b ∈ gap, Text.isBlank b = true) (hc : Text.isBlank c = false)
    (hr : Token.read c cs = .ok r) :
    ofChars start (gap ++ c :: cs) =
      next ⟨start + Text.byteLength gap, gap, r.spelling, r.token⟩
        (ofChars (start + Text.byteLength gap + Text.byteLength r.spelling) r.rest) := by
  have htake : (gap ++ c :: cs).takeWhile Text.isBlank = gap := by
    rw [List.takeWhile_append_of_pos hgap, List.takeWhile_cons_of_neg (by simp [hc]),
      List.append_nil]
  have hdrop : (gap ++ c :: cs).dropWhile Text.isBlank = c :: cs := by
    rw [List.dropWhile_append_of_pos hgap, List.dropWhile_cons_of_neg (by simp [hc])]
  simp only [ofChars_eq start (gap ++ c :: cs), htake, hdrop, hr]

/-- A blank in front of a text moves its tokens. -/
theorem moved_ofChars_cons {b : Char} (hb : Text.isBlank b = true) (start : Nat)
    (cs : List Char) :
    Moved (d + b.utf8Size) (ofChars start cs) (ofChars (start + d) (b :: cs)) := by
  have htake : (b :: cs).takeWhile Text.isBlank = b :: cs.takeWhile Text.isBlank :=
    List.takeWhile_cons_of_pos hb
  have hdrop : (b :: cs).dropWhile Text.isBlank = cs.dropWhile Text.isBlank :=
    List.dropWhile_cons_of_pos hb
  have hfront (n : Nat) : start + d + (b.utf8Size + n) = start + n + (d + b.utf8Size) := by omega
  rw [ofChars_eq, ofChars_eq _ (b :: cs)]
  simp only [htake, hdrop, Text.byteLength_cons, hfront]
  cases cs.dropWhile Text.isBlank with
  | nil => exact .finish _ _ _
  | cons c rest =>
    simp only
    cases Token.read c rest with
    | error f =>
      simp only [Nat.add_right_comm _ (d + b.utf8Size)]
      exact .broken _ _
    | ok r =>
      simp only [Nat.add_right_comm _ (d + b.utf8Size), ofChars_add _ r.rest]
      exact .next _ _ _ _ _ _

end Tokens

/-! ### Names -/

namespace Token

/-- A blank belongs to no word. -/
theorem isNamePart_of_isBlank {b : Char} (hb : Text.isBlank b = true) : isNamePart b = false := by
  simp only [Text.isBlank, Bool.or_eq_true, Bool.and_eq_true, decide_eq_true_eq, beq_iff_eq] at hb
  rw [Bool.eq_false_iff]
  intro hpart
  delta isNamePart Char.isAlphanum Char.isAlpha Char.isUpper Char.isLower Char.isDigit at hpart
  simp only [Bool.or_eq_true, Bool.and_eq_true, decide_eq_true_eq, beq_iff_eq,
    UInt32.le_iff_toNat_le, ← Char.toNat_val, Char.reduceVal, UInt32.reduceToNat] at hb hpart
  rcases hpart with hpart | rfl
  · omega
  · exact absurd hb (by decide)

theorem readNumber_isName {cs : List Char} {r : Reading} (h : readNumber cs = .ok r) :
    r.token.isName = false := by
  unfold readNumber at h
  simp only at h
  split at h
  · split at h
    · split at h
      · cases h
      · obtain ⟨-, -, rfl⟩ := map_eq_ok_iff.1 h
        rfl
    · obtain ⟨-, -, rfl⟩ := map_eq_ok_iff.1 h
      rfl
  · obtain rfl := Except.ok.inj h
    rfl

/-- What comes after a closing quote is left. -/
theorem readQuotedName_append {cs rest : List Char} (hrest : (readQuotedName cs).rest = [])
    (hclosed : (readQuotedName cs).token.openFault? = none) :
    readQuotedName (cs ++ rest) =
      ⟨(readQuotedName cs).token, (readQuotedName cs).spelling, rest⟩ := by
  have happend := congrArg List.length (List.takeWhile_append_dropWhile (p := (· != '"')) (l := cs))
  unfold readQuotedName at hrest hclosed ⊢
  cases hd : cs.dropWhile (· != '"') with
  | nil =>
    simp only [hd] at hclosed
    cases hclosed
  | cons q after =>
    simp only [hd] at hrest happend ⊢
    subst hrest
    have htake : (cs ++ rest).takeWhile (· != '"') = cs.takeWhile (· != '"') := by
      rw [List.takeWhile_append, if_neg]
      rw [List.length_append, List.length_singleton] at happend
      omega
    have hdrop : (cs ++ rest).dropWhile (· != '"') = q :: rest := by
      rw [List.dropWhile_append, hd]
      rfl
    simp only [htake, hdrop]

/-- A name that a text ends in is read the same where a blank follows it. -/
theorem read_name_append {c b : Char} {cs rest : List Char} {r : Reading}
    (h : read c cs = .ok r) (hrest : r.rest = []) (hname : r.token.isName = true)
    (hclosed : r.token.openFault? = none) (hb : Text.isBlank b = true) :
    read c (cs ++ b :: rest) = .ok ⟨r.token, r.spelling, b :: rest⟩ := by
  unfold read at h ⊢
  split at h
  · rw [readNumber_isName h] at hname
    cases hname
  next hdigit =>
  rw [if_neg hdigit]
  split at h
  · obtain rfl := Except.ok.inj h
    cases hname
  next hquote =>
  rw [if_neg hquote]
  split at h
  next hq =>
    obtain rfl := Except.ok.inj h
    rw [if_pos hq]
    exact congrArg Except.ok (readQuotedName_append hrest hclosed)
  next hq =>
  rw [if_neg hq]
  split at h
  next hword =>
    obtain rfl := Except.ok.inj h
    rw [if_pos hword]
    have hall : ∀ x ∈ c :: cs, isNamePart x = true := by
      simpa only [split, List.dropWhile_eq_nil_iff] using hrest
    have htake : (c :: cs).takeWhile isNamePart = c :: cs := List.takeWhile_eq_self_iff.2 hall
    have happend : c :: (cs ++ b :: rest) = (c :: cs) ++ b :: rest := rfl
    have hnot : ¬ isNamePart b = true := by simp [isNamePart_of_isBlank hb]
    simp only [split, happend, List.takeWhile_append_of_pos hall,
      List.dropWhile_append_of_pos hall, List.takeWhile_cons_of_neg hnot,
      List.dropWhile_cons_of_neg hnot, List.append_nil, htake]
  -- no other token is a name
  next hword =>
  repeat' split at h
  all_goals
    obtain rfl := Except.ok.inj h
    cases hname

end Token

namespace Tokens

/-- The text is one token, which names `name`. -/
def Spells (text name : String) : Prop :=
  ∃ l start, ofText text = next l (finish [] start) ∧ l.gap = [] ∧ l.token.isName = true ∧
    l.token.openFault? = none ∧ l.token.asName = name

/-- A text without tokens and blanks is empty. -/
theorem eq_nil_of_finish {start start' : Nat} {cs : List Char}
    (h : ofChars start cs = finish [] start') : cs = [] := by
  have happend := List.takeWhile_append_dropWhile (p := Text.isBlank) (l := cs)
  rw [ofChars_eq] at h
  cases hd : cs.dropWhile Text.isBlank with
  | nil =>
    simp only [hd, finish.injEq] at h
    rw [h.1, hd] at happend
    exact happend.symm
  | cons c rest =>
    simp only [hd] at h
    split at h <;> cases h

/-- A name with a blank behind it is one token. -/
theorem Spells.ofChars {text name : String} (h : Spells text name) (start : Nat) (gap : List Char)
    (hgap : ∀ b ∈ gap, Text.isBlank b = true) {b : Char} (hb : Text.isBlank b = true)
    (rest : List Char) :
    ∃ l, l.token.isName = true ∧ l.token.openFault? = none ∧ l.token.asName = name ∧
      ofChars start (gap ++ (text.toList ++ b :: rest)) = next l
        (ofChars (start + Text.byteLength gap + Text.byteLength text.toList) (b :: rest)) := by
  obtain ⟨l, last, htext, hfront, hname, hclosed, hasName⟩ := h
  have happend := List.takeWhile_append_dropWhile (p := Text.isBlank) (l := text.toList)
  rw [ofText, ofChars_eq] at htext
  cases hd : text.toList.dropWhile Text.isBlank with
  | nil =>
    simp only [hd] at htext
    cases htext
  | cons c cs =>
    simp only [hd] at htext
    split at htext
    · cases htext
    next r hr =>
      obtain ⟨rfl, hrest⟩ := next.inj htext
      have hnil := eq_nil_of_finish hrest
      rw [show text.toList.takeWhile Text.isBlank = [] from hfront, hd, List.nil_append] at happend
      have hc : Text.isBlank c = false := by
        rw [← happend, List.dropWhile_eq_self_iff] at hd
        simpa using hd
      have hspelling := Token.read_split hr
      rw [hnil, List.append_nil] at hspelling
      refine ⟨⟨start + Text.byteLength gap, gap, r.spelling, r.token⟩, hname, hclosed, hasName, ?_⟩
      rw [← happend, List.cons_append, ofChars_of_read start gap hgap hc
        (Token.read_name_append hr hnil hname hclosed hb), hspelling]

end Tokens

end SqlEngine

import Mathlib
import SqlEngine.Proofs.Statement.Retelling
import SqlEngine.Proofs.Token.Numbers
import SqlEngine.Proofs.Token.Places

/-!
# Statements — layout

A token shows its class, its literal and what is wrong with it (`Token.face`).  The blanks between
tokens, the case of keywords and the spelling of a string do not show.  Two texts that show the same
are the same statement, up to the places and the texts that it records, or they fail with the same
parse error.

* `Token.eq_of_face`: what a token shows is all there is to it.
* `Tokens.readable_ofText`: the number literals of a text are numbers.
* `Statement.parse_of_faces`: texts that show the same are parsed the same.
-/

namespace SqlEngine

/-! ### What a token shows -/

/-- The class, the literal and the fault of a token. -/
structure Token.Face where
  type : String
  literal : String
  fault : Option ParseFault
deriving DecidableEq, Repr

def Token.face (t : Token) : Token.Face :=
  ⟨t.className, t.literal, t.openFault?⟩

theorem Keyword.text_injective : Function.Injective Keyword.text := by
  have h : (all.map text).Nodup := by decide +kernel
  exact fun k k' => List.inj_on_of_nodup_map h (mem_all k) (mem_all k')

theorem Mark.text_injective : Function.Injective Mark.text := by
  have hfront (m : Mark) : (ofFront? m.text.toList).map Prod.fst = some m := by cases m <;> rfl
  intro m m' h
  exact Option.some.inj (by rw [← hfront m, h, hfront m'])

/-- Tokens that show the same are the same. -/
theorem Token.eq_of_face {t t' : Token} (h : t.face = t'.face) : t = t' := by
  -- the class tells the constructors apart
  cases t <;> cases t' <;>
    simp only [face, className, Face.mk.injEq, String.reduceEq, false_and, true_and] at h
  case number.number => exact congrArg number h.1
  case string.string content closed _ closed' =>
    obtain rfl : closed = closed' := by
      cases closed <;> cases closed' <;> first | rfl | cases h.2
    exact congrArg (string · closed) h.1
  case name.name text closed _ closed' =>
    obtain rfl : closed = closed' := by
      cases closed <;> cases closed' <;> first | rfl | cases h.2
    exact congrArg (name · closed) h.1
  case keyword.keyword => exact congrArg keyword (Keyword.text_injective h.1)
  case mark.mark => exact congrArg mark (Mark.text_injective h.1)
  case stray.stray => exact congrArg stray (String.singleton_inj.1 h.1)
  case comma.comma | semicolon.semicolon | dot.dot | finish.finish => rfl

/-- What the tokens show, if all of them can be read. -/
def Tokens.faces? : Tokens → Option (List Token.Face)
  | finish ..        => some []
  | broken ..        => none
  | next lexeme rest => rest.faces?.map (lexeme.token.face :: ·)

/-! ### Number literals -/

/-- A number literal that is the token is a number. -/
def Token.Readable (t : Token) : Prop :=
  ∀ literal, t = .number literal → ∃ x, Number.ofLiteral? literal = some x

theorem Token.readable_of_read {c : Char} {cs : List Char} {r : Token.Reading}
    (h : Token.read c cs = .ok r) : r.token.Readable := by
  intro literal hliteral
  unfold read at h
  split at h
  next hdigit =>
    obtain ⟨hnumber, -, htoken⟩ := readNumber_cases hdigit h
    obtain rfl := number.inj (htoken.symm.trans hliteral)
    exact Number.exists_ofLiteral? hnumber
  -- no other token is a number
  next =>
  repeat' split at h
  all_goals
    obtain rfl := Except.ok.inj h
    first
    | cases hliteral
    | unfold readQuotedName at hliteral; split at hliteral <;> cases hliteral
    | dsimp only at hliteral; unfold ofWord at hliteral; split at hliteral <;> cases hliteral

/-- The number literals among the tokens are numbers. -/
def Tokens.Readable : Tokens → Prop
  | next lexeme rest => lexeme.token.Readable ∧ rest.Readable
  | _                => True

theorem Tokens.readable_ofChars (start : Nat) (cs : List Char) : (ofChars start cs).Readable := by
  rw [ofChars_eq]
  cases hd : cs.dropWhile Text.isBlank with
  | nil => trivial
  | cons c rest =>
    simp only
    cases hr : Token.read c rest with
    | error f => trivial
    | ok r =>
      have hlt : r.rest.length < cs.length := by
        have hle := (List.dropWhile_sublist (l := cs) Text.isBlank).length_le
        rw [hd, List.length_cons] at hle
        exact Nat.lt_of_lt_of_le (Token.read_rest_lt hr) hle
      exact ⟨Token.readable_of_read hr, readable_ofChars _ r.rest⟩
termination_by cs.length

theorem Tokens.readable_ofText (text : String) : (ofText text).Readable :=
  readable_ofChars 0 _

/-! ### Texts that show the same -/

/-- No place is told, and no text. -/
def Retelling.bare : Retelling :=
  ⟨fun _ => 0, fun _ => ""⟩

namespace Tokens

/-- Tokens that show the same. -/
structure SameFaces (ts ts' : Tokens) : Prop where
  shown : ∃ faces, ts.faces? = some faces ∧ ts'.faces? = some faces
  readable : ts.Readable

theorem tell_faces : Tell .bare .bare (fun _ => False) SameFaces where
  fronts := by
    rintro ts ts' ⟨⟨faces, hfaces, hfaces'⟩, hreadable⟩
    cases ts with
    | broken => cases hfaces
    | finish gap start =>
      obtain rfl := Option.some.inj hfaces
      cases ts' with
      | broken => cases hfaces'
      | finish gap' start' => exact .finish gap gap' rfl
      | next lexeme' rest' =>
        obtain ⟨_, _, h⟩ := Option.map_eq_some_iff.1 hfaces'
        cases h
    | next lexeme rest =>
      obtain ⟨more, hmore, rfl⟩ := Option.map_eq_some_iff.1 hfaces
      cases ts' with
      | broken => cases hfaces'
      | finish => cases hfaces'
      | next lexeme' rest' =>
        obtain ⟨more', hmore', h⟩ := Option.map_eq_some_iff.1 hfaces'
        obtain ⟨hface, rfl⟩ := List.cons.inj h
        obtain ⟨start, gap, spelling, token⟩ := lexeme
        obtain ⟨start', gap', spelling', token'⟩ := lexeme'
        obtain rfl := Token.eq_of_face hface
        refine .next gap gap' spelling spelling' token' rfl ⟨⟨_, hmore, hmore'⟩, hreadable.2⟩ ?_
        intro literal htoken hnone
        obtain ⟨x, hx⟩ := hreadable.1 literal htoken
        cases hnone.symm.trans hx
  text _ _ := rfl
  star := rfl

end Tokens

/-- **Layout does not matter**: two texts whose tokens show the same are the same statement but for
places and texts, or fail with the same parse error. -/
theorem Statement.parse_of_faces (o : ParserOptions) {text text' : String}
    {faces : List Token.Face} (h : (Tokens.ofText text).faces? = some faces)
    (h' : (Tokens.ofText text').faces? = some faces) :
    (∃ s s', parse o text = .ok s ∧ parse o text' = .ok s' ∧ s'.retold .bare = s.retold .bare) ∨
      ∃ fault near near' offset offset', parse o text = .error (.parse fault near offset) ∧
        parse o text' = .error (.parse fault near' offset') := by
  have htold := ofTokens_alike Tokens.tell_faces (o := o)
    ⟨⟨faces, h, h'⟩, Tokens.readable_ofText text⟩
  rw [parse_eq_ofTokens, parse_eq_ofTokens]
  revert htold
  generalize ofTokens o (Tokens.ofText text) = x
  generalize ofTokens o (Tokens.ofText text') = x'
  rintro (hs | (hfalse | @⟨fault, near, near', offset, offset'⟩))
  · exact .inl ⟨_, _, rfl, rfl, hs⟩
  · exact hfalse.elim
  · exact .inr ⟨fault, near, near', offset, offset', rfl, rfl⟩

/-- Blanks, the case of keywords and an escape that may be left out. -/
theorem Statement.escaped_layout :
    ∃ s s', parse {} "SELECT 'a\\b' AS x FROM t" = .ok s ∧
      parse {} "select 'a\\\\b'\n  as x from\tt" = .ok s' ∧ s'.retold .bare = s.retold .bare := by
  let faces : List Token.Face := [⟨"KEYWORD", "SELECT", none⟩, ⟨"STRING", "a\\b", none⟩,
    ⟨"KEYWORD", "AS", none⟩, ⟨"SYMBOL", "x", none⟩, ⟨"KEYWORD", "FROM", none⟩,
    ⟨"SYMBOL", "t", none⟩]
  have hfaces : (Tokens.ofText "SELECT 'a\\b' AS x FROM t").faces? = some faces := by cbv
  have hfaces' : (Tokens.ofText "select 'a\\\\b'\n  as x from\tt").faces? = some faces := by cbv
  have hok : (parse {} "SELECT 'a\\b' AS x FROM t").isOk = true := by cbv
  rcases parse_of_faces {} hfaces hfaces' with h | ⟨_, _, _, _, _, herror, _⟩
  · exact h
  · rw [herror] at hok
    cases hok

end SqlEngine

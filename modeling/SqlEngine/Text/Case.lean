import SqlEngine.Text.CaseTable

/-!
# Text — case mapping

`upper` and `lower` are Unicode's full case mappings, independent of language.  A capital sigma
becomes the final small sigma exactly where it ends a word (`endsWord`).
-/

namespace SqlEngine.Text

/-- The image of a code point the run covers. -/
def CaseRun.image? (r : CaseRun) (n : Nat) : Option Nat :=
  if r.first ≤ n && n ≤ r.last && (n - r.first) % r.step == 0 then some (n + r.shift).toNat
  else none

/-- A code point lies in one of the ranges. -/
def inRanges (ranges : Array (Nat × Nat)) (n : Nat) : Bool :=
  ranges.any fun r => r.1 ≤ n && n ≤ r.2

/-- The letter has case and is not skipped over. -/
def isCased (c : Char) : Bool :=
  inRanges cased c.toNat

/-- The character is skipped when a letter's neighbours are looked for. -/
def isCaseIgnorable (c : Char) : Bool :=
  inRanges caseIgnorable c.toNat

/-- The capital form of a character. -/
def upperChar (c : Char) : List Char :=
  if c.toNat < 0x80 then [c.toUpper] else
  match upperExpansions.find? fun e => e.1 == c.toNat with
  | some e => e.2.map Char.ofNat
  | none   =>
    match upperRuns.findSome? fun r => r.image? c.toNat with
    | some n => [Char.ofNat n]
    | none   => [c]

/-- The small form of a character that does not depend on its neighbours: only the capital I with
a dot has two characters. -/
def lowerChar (c : Char) : List Char :=
  if c.toNat < 0x80 then [c.toLower] else
  if c.toNat == 0x130 then ['i', Char.ofNat 0x307] else
  match lowerRuns.findSome? fun r => r.image? c.toNat with
  | some n => [Char.ofNat n]
  | none   => [c]

/-- The first character that is not skipped has case. -/
def meetsCased (cs : List Char) : Bool :=
  match cs.dropWhile isCaseIgnorable with
  | c :: _ => isCased c
  | []     => false

/-- Between `before`, read backwards, and `after`, a word ends. -/
def endsWord (before after : List Char) : Bool :=
  meetsCased before && !meetsCased after

/-- Small forms of the characters of a text, given those before it, read backwards. -/
def lowerAfter : List Char → List Char → List Char
  | _,      []      => []
  | before, c :: cs =>
    (if c == 'Σ' then [if endsWord before cs then 'ς' else 'σ'] else lowerChar c) ++
      lowerAfter (c :: before) cs

/-- The text in capitals. -/
def upper (s : String) : String :=
  String.ofList (s.toList.flatMap upperChar)

/-- The text in small letters. -/
def lower (s : String) : String :=
  String.ofList (lowerAfter [] s.toList)

end SqlEngine.Text

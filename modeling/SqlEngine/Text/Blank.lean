/-!
# Text — blanks and names

Blank characters, trimming, the byte length of a text, and the comparison of names, which ignores
the case of ASCII letters only.
-/

namespace SqlEngine.Text

/-- The characters of Unicode's White_Space property. -/
def isBlank (c : Char) : Bool :=
  let n := c.toNat
  (0x09 ≤ n && n ≤ 0x0D) || n == 0x20 || n == 0x85 || n == 0xA0 || n == 0x1680 ||
    (0x2000 ≤ n && n ≤ 0x200A) || n == 0x2028 || n == 0x2029 || n == 0x202F || n == 0x205F ||
    n == 0x3000

/-- Blanks at the front are dropped. -/
def dropBlanks (cs : List Char) : List Char :=
  cs.dropWhile isBlank

/-- Blanks at both ends are dropped. -/
def trim (cs : List Char) : List Char :=
  (dropBlanks (dropBlanks cs).reverse).reverse

/-- Number of bytes of a text in UTF-8, the unit of every offset. -/
def byteLength : List Char → Nat
  | []      => 0
  | c :: cs => c.utf8Size + byteLength cs

/-- Drops `n` bytes; none when the text is shorter or byte `n` is not the start of a character. -/
def dropBytes : Nat → List Char → Option (List Char)
  | 0,     cs      => some cs
  | _ + 1, []      => none
  | n + 1, c :: cs => if c.utf8Size ≤ n + 1 then dropBytes (n + 1 - c.utf8Size) cs else none

/-- A name with its ASCII letters in small form. -/
def fold (s : String) : String :=
  String.ofList (s.toList.map Char.toLower)

/-- Two names are the same when they differ at most in the case of ASCII letters. -/
def sameName (a b : String) : Bool :=
  fold a == fold b

theorem isBlank_of_isWhitespace {c : Char} (h : c.isWhitespace = true) : isBlank c = true := by
  simp only [Char.isWhitespace, Bool.or_eq_true, decide_eq_true_eq] at h
  rcases h with ((rfl | rfl) | rfl) | rfl <;> decide

@[simp] theorem byteLength_nil : byteLength [] = 0 := rfl

@[simp] theorem byteLength_cons (c : Char) (cs : List Char) :
    byteLength (c :: cs) = c.utf8Size + byteLength cs := rfl

@[simp] theorem byteLength_append (a b : List Char) :
    byteLength (a ++ b) = byteLength a + byteLength b := by
  induction a with
  | nil => simp
  | cons c cs ih => simp [ih, Nat.add_assoc]

theorem sameName_refl (s : String) : sameName s s = true := by
  simp [sameName]

theorem sameName_comm (a b : String) : sameName a b = sameName b a := by
  simp [sameName, Bool.beq_comm]

end SqlEngine.Text

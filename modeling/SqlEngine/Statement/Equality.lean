import SqlEngine.Statement.Basic
import SqlEngine.Text.Blank

/-!
# Statements — equality of expressions

`Expr.same` compares the nodes of two expressions: columns by qualifier and name without regard to
the case of ASCII letters, calls by function and arguments, and sub-selects by everything they say,
their text and place included.  Types, bindings and aliases of expressions do not count.
-/

namespace SqlEngine

/-- Equality of optional names. -/
def sameQualifier : Option String → Option String → Bool
  | some a, some b => Text.sameName a b
  | none,   none   => true
  | _,      _      => false

def ColumnRef.same (a b : ColumnRef) : Bool :=
  sameQualifier a.qualifier b.qualifier && Text.sameName a.column b.column

mutual

def Expr.same : Expr → Expr → Bool
  | ⟨a, _, _, _, _, _, _⟩, ⟨b, _, _, _, _, _, _⟩ => Node.sameList a b

def Node.same : Node → Node → Bool
  | .operator a, .operator b => a == b
  | .openParen,  .openParen  => true
  | .closeParen, .closeParen => true
  | .number a,   .number b   => a == b
  | .text a,     .text b     => a == b
  | .boolean a,  .boolean b  => a == b
  | .null,       .null       => true
  | .column a,   .column b   => a.same b
  | .call a,     .call b     => a.same b
  | .select a,   .select b   => a.same b
  | _,           _           => false

def Node.sameList : List Node → List Node → Bool
  | [],      []      => true
  | a :: as, b :: bs => a.same b && Node.sameList as bs
  | _,       _       => false

def Call.same : Call → Call → Bool
  | ⟨f, a, _, _, _, _⟩, ⟨g, b, _, _, _, _⟩ => f == g && Expr.sameList a b

def Expr.sameList : List Expr → List Expr → Bool
  | [],      []      => true
  | a :: as, b :: bs => a.same b && Expr.sameList as bs
  | _,       _       => false

def Expr.sameOption : Option Expr → Option Expr → Bool
  | some a, some b => a.same b
  | none,   none   => true
  | _,      _      => false

def Source.same : Source → Source → Bool
  | .table n a i o, .table m b j p => n == m && a == b && i == j && o == p
  | .select s a o,  .select t b p  => s.same t && a == b && o == p
  | _,              _              => false

def Source.sameOption : Option Source → Option Source → Bool
  | some a, some b => a.same b
  | none,   none   => true
  | _,      _      => false

def Join.sameList : List Join → List Join → Bool
  | [],              []              => true
  | ⟨s, k, c⟩ :: as, ⟨t, l, d⟩ :: bs =>
    s.same t && k == l && Expr.sameOption c d && Join.sameList as bs
  | _,               _               => false

def OrderKey.sameList : List OrderKey → List OrderKey → Bool
  | [],           []           => true
  | ⟨a, u⟩ :: as, ⟨b, v⟩ :: bs => a.same b && u == v && OrderKey.sameList as bs
  | _,            _            => false

def Select.same : Select → Select → Bool
  | ⟨t, d, o, f, j, w, g, k, l, p⟩, ⟨t', d', o', f', j', w', g', k', l', p'⟩ =>
    t == t' && d == d' && Expr.sameList o o' && Source.sameOption f f' && Join.sameList j j' &&
      Expr.sameOption w w' && Expr.sameList g g' && OrderKey.sameList k k' && l == l' && p == p'

end

/-- The position of the first expression of the list that is the same. -/
def Expr.indexIn? (e : Expr) (list : List Expr) : Option Nat :=
  list.findIdx? e.same

/-- The position of the first expression of the list that consists of the node alone. -/
def Node.indexIn? (n : Node) (list : List Expr) : Option Nat :=
  list.findIdx? fun e =>
    match e.nodes with
    | [m] => m.same n
    | _   => false

end SqlEngine

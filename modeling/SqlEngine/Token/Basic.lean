import SqlEngine.Error

/-!
# Tokens

The tokens of SQL text, and the token sequence `Tokens` of a whole text: lexemes, which also know
where they stand and how they are spelled, up to the end of the text or to a malformed number.
-/

namespace SqlEngine

/-- A token.  A string or a quoted name that the text ends in is not `closed`. -/
inductive Token
  | number (literal : String)
  | string (content : String) (closed : Bool)
  | name (text : String) (closed : Bool)
  | keyword (word : Keyword)
  | mark (mark : Mark)
  | comma
  | semicolon
  | dot
  | finish
  | stray (c : Char)
deriving DecidableEq, Repr

namespace Token

/-- The class of a token. -/
def className : Token → String
  | number _   => "NUMBER"
  | string ..  => "STRING"
  | name ..    => "SYMBOL"
  | keyword _  => "KEYWORD"
  | mark _     => "OPERATOR"
  | comma      => "COMMA"
  | semicolon  => "SEMICOLON"
  | dot        => "DOT"
  | finish     => "END"
  | stray _    => "NONE"

/-- The content of a token: a string without quotes and escapes, a keyword in capitals. -/
def literal : Token → String
  | number literal   => literal
  | string content _ => content
  | name text _      => text
  | keyword word     => word.text
  | mark m           => m.text
  | comma            => ","
  | semicolon        => ";"
  | dot              => "."
  | finish           => ""
  | stray c          => c.toString

/-- A token as an error message shows it. -/
def display : Token → String
  | finish           => "end of input"
  | string content _ => "'" ++ content ++ "'"
  | t                => t.literal

/-- The token can name a table, a column or an alias. -/
def isName : Token → Bool
  | name ..      => true
  | keyword word => word.isType
  | _            => false

/-- The text of a token read as a name. -/
def asName : Token → String
  | keyword word => word.asName
  | t            => t.literal

/-- What is wrong with a string or name that is not closed. -/
def openFault? : Token → Option ParseFault
  | string _ false => some .openString
  | name _ false   => some .openName
  | _              => none

end Token

/-- A token in its place: `gap` is the blank text before it, `spelling` the text it covers, and
`start` the offset of its first byte. -/
structure Lexeme where
  start : Nat
  gap : List Char
  spelling : List Char
  token : Token
deriving DecidableEq, Repr

/-- The tokens of a text.  They go on to the end of the text, at offset `start` after a last gap, or
to a malformed number. -/
inductive Tokens
  | finish (gap : List Char) (start : Nat)
  | broken (fault : NumberFault) (offset : Nat)
  | next (lexeme : Lexeme) (rest : Tokens)
deriving Repr

namespace Tokens

/-- How many lexemes there are. -/
def length : Tokens → Nat
  | finish ..    => 0
  | broken ..    => 0
  | next _ rest  => rest.length + 1

/-- The token at the front. -/
def current : Tokens → Token
  | next lexeme _ => lexeme.token
  | _             => .finish

/-- The token after the one at the front. -/
def second : Tokens → Token
  | next _ rest => rest.current
  | _           => .finish

/-- The offset of the token at the front. -/
def start : Tokens → Nat
  | finish _ start => start
  | broken _ o     => o
  | next lexeme _  => lexeme.start

/-- The text covered by the first `n` lexemes, from the first character to the last. -/
def covered : Nat → Tokens → List Char
  | n + 1, next lexeme rest => lexeme.spelling ++ following n rest
  | _,     _                => []
where
  /-- The text of the next `n` lexemes with their gaps. -/
  following : Nat → Tokens → List Char
    | n + 1, next lexeme rest => lexeme.gap ++ lexeme.spelling ++ following n rest
    | _,     _                => []

/-- The source text from the front of `ts` to the last lexeme before `rest`. -/
def textUntil (ts rest : Tokens) : String :=
  String.ofList (covered (ts.length - rest.length) ts)

/-- A parse error at the front. -/
def fault (ts : Tokens) (f : ParseFault) : Error :=
  .parse f ts.current.display ts.start

/-- Tokens a parser may go on with: neither the token at the front nor the one after it is a
malformed number, and the one at the front is closed and known. -/
def check : Tokens → Except Error Unit
  | finish ..                        => .ok ()
  | broken f o                       => .error (.lex f o)
  | next _ (broken f o)              => .error (.lex f o)
  | ts@(next ⟨start, _, _, token⟩ _) =>
    match token.openFault?, token with
    | some f, _        => .error (.parse f token.literal start)
    | none,   .stray _ => .error (ts.fault .strayCharacter)
    | none,   _        => .ok ()

@[simp] theorem length_next (l : Lexeme) (rest : Tokens) :
    (next l rest).length = rest.length + 1 := rfl

end Tokens

end SqlEngine

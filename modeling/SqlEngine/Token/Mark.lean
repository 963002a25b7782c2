import SqlEngine.Operator

/-!
# Tokens — marks

The operator signs and parentheses as they are spelled.
-/

namespace SqlEngine

inductive Mark
  | plus | minus | star | slash | caret | percent | bars
  | equal | lessGreater | bangEqual | less | greater | lessEqual | greaterEqual
  | openParen | closeParen
deriving DecidableEq, Repr

namespace Mark

def text : Mark → String
  | .plus         => "+"
  | .minus        => "-"
  | .star         => "*"
  | .slash        => "/"
  | .caret        => "^"
  | .percent      => "%"
  | .bars         => "||"
  | .equal        => "="
  | .lessGreater  => "<>"
  | .bangEqual    => "!="
  | .less         => "<"
  | .greater      => ">"
  | .lessEqual    => "<="
  | .greaterEqual => ">="
  | .openParen    => "("
  | .closeParen   => ")"

/-- The operator a sign stands for; a parenthesis is none. -/
def operator? : Mark → Option Operator
  | .plus                    => some .plus
  | .minus                   => some .minus
  | .star                    => some .times
  | .slash                   => some .divide
  | .caret                   => some .power
  | .percent                 => some .remainder
  | .bars                    => some .concat
  | .equal                   => some .equal
  | .lessGreater | .bangEqual => some .notEqual
  | .less                    => some .less
  | .greater                 => some .greater
  | .lessEqual               => some .lessEqual
  | .greaterEqual            => some .greaterEqual
  | .openParen | .closeParen => none

/-- The mark at the front of a text, two characters before one. -/
def ofFront? : List Char → Option (Mark × List Char × List Char)
  | '<' :: '=' :: rest => some (.lessEqual, ['<', '='], rest)
  | '>' :: '=' :: rest => some (.greaterEqual, ['>', '='], rest)
  | '<' :: '>' :: rest => some (.lessGreater, ['<', '>'], rest)
  | '!' :: '=' :: rest => some (.bangEqual, ['!', '='], rest)
  | '|' :: '|' :: rest => some (.bars, ['|', '|'], rest)
  | '+' :: rest        => some (.plus, ['+'], rest)
  | '-' :: rest        => some (.minus, ['-'], rest)
  | '*' :: rest        => some (.star, ['*'], rest)
  | '/' :: rest        => some (.slash, ['/'], rest)
  | '^' :: rest        => some (.caret, ['^'], rest)
  | '%' :: rest        => some (.percent, ['%'], rest)
  | '=' :: rest        => some (.equal, ['='], rest)
  | '<' :: rest        => some (.less, ['<'], rest)
  | '>' :: rest        => some (.greater, ['>'], rest)
  | '(' :: rest        => some (.openParen, ['('], rest)
  | ')' :: rest        => some (.closeParen, [')'], rest)
  | _                  => none

end Mark

end SqlEngine

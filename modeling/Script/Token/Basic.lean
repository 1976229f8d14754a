import Script.Number.Basic
import Script.Pos
import Script.Text.Quoted

/-!
Tokens of a source text.
-/

namespace Script

inductive Keyword
  | var | «let» | const | «if» | «else» | «while» | switch | case | default | «break» | «continue»
  | true | false | null | undefined | typeof
  deriving DecidableEq, Repr

inductive Operator
  | strictEq | strictNe | eq | ne | le | ge | and | or
  | plus | minus | times | divide | modulo | assign | lt | gt | not
  deriving DecidableEq, Repr

inductive Punct
  | openParen | closeParen | openBrace | closeBrace | openBracket | closeBracket
  | comma | colon | semicolon | dot
  deriving DecidableEq, Repr

inductive Kind
  | number (value : Number)
  | string (value : String)
  | identifier (name : String)
  | keyword (word : Keyword)
  | operator (op : Operator)
  | punct (mark : Punct)
  | endOfInput
  deriving DecidableEq

structure Token where
  kind : Kind
  lexeme : String
  pos : Pos
  deriving DecidableEq

namespace Keyword

def all : List Keyword :=
  [.var, .let, .const, .if, .else, .while, .switch, .case, .default, .break, .continue, .true,
    .false, .null, .undefined, .typeof]

def spelling : Keyword → String
  | .var => "var"
  | .let => "let"
  | .const => "const"
  | .if => "if"
  | .else => "else"
  | .while => "while"
  | .switch => "switch"
  | .case => "case"
  | .default => "default"
  | .break => "break"
  | .continue => "continue"
  | .true => "true"
  | .false => "false"
  | .null => "null"
  | .undefined => "undefined"
  | .typeof => "typeof"

end Keyword

namespace Operator

/-- Longer spellings come first, so that the first that fits is the longest. -/
def all : List Operator :=
  [.strictEq, .strictNe, .eq, .ne, .le, .ge, .and, .or, .plus, .minus, .times, .divide, .modulo,
    .assign, .lt, .gt, .not]

def spelling : Operator → String
  | .strictEq => "==="
  | .strictNe => "!=="
  | .eq => "=="
  | .ne => "!="
  | .le => "<="
  | .ge => ">="
  | .and => "&&"
  | .or => "||"
  | .plus => "+"
  | .minus => "-"
  | .times => "*"
  | .divide => "/"
  | .modulo => "%"
  | .assign => "="
  | .lt => "<"
  | .gt => ">"
  | .not => "!"

theorem spelling_ne_nil (op : Operator) : op.spelling.toList ≠ [] := by
  cases op <;> decide

end Operator

namespace Punct

def all : List Punct :=
  [.openParen, .closeParen, .openBrace, .closeBrace, .openBracket, .closeBracket, .comma, .colon,
    .semicolon, .dot]

def spelling : Punct → Char
  | .openParen => '('
  | .closeParen => ')'
  | .openBrace => '{'
  | .closeBrace => '}'
  | .openBracket => '['
  | .closeBracket => ']'
  | .comma => ','
  | .colon => ':'
  | .semicolon => ';'
  | .dot => '.'

end Punct

namespace Token

def describe (t : Token) : String :=
  match t.kind with
  | .endOfInput => "end of input"
  | _ => Text.quote t.lexeme

end Token

end Script

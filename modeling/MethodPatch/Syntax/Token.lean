/-
**Tokens of source text.**

A token is a name, a literal, a keyword, a punctuator or the end of the text. Numbers with a
fraction are kept as their bits.

* `Keyword.ofWord?_word`: the word of a keyword is read as that keyword;
* `Punct.all`: every punctuator, a longer spelling before any that begins it.
-/

import MethodPatch.Text.Utf16
import MethodPatch.Decimal

namespace MethodPatch

/-- The words with a meaning of their own. -/
inductive Keyword where
  | boolean | byte | char | short | int | long | float | double
  | void | final | ifWord | elseWord | whileWord | doWord | forWord
  | returnWord | breakWord | continueWord | throwWord
  | newWord | thisWord | superWord | trueWord | falseWord | nullWord | instanceOf
  deriving DecidableEq

/-- Operators and delimiters. -/
inductive Punct where
  | lparen | rparen | lbrace | rbrace | lbracket | rbracket
  | semicolon | comma | dot | question | colon | assign
  | plus | minus | star | slash | percent | plusPlus | minusMinus
  | eqEq | notEq | lt | ltEq | gt | gtEq
  | andAnd | orOr | not | and | or | xor | tilde
  | ltLt | gtGt | gtGtGt
  | plusEq | minusEq | starEq | slashEq | percentEq | andEq | orEq | xorEq
  | ltLtEq | gtGtEq | gtGtGtEq
  deriving DecidableEq

/-- A token. An `int` or a `long` may be one too large for its type, since a minus sign before it
may yet make it fit. -/
inductive Token where
  | name (text : String)
  | int (value : Int)
  | long (value : Int)
  | float (bits : UInt32)
  | double (bits : UInt64)
  | char (unit : Text.Unit16)
  | string (text : String)
  | keyword (word : Keyword)
  | punct (mark : Punct)
  | endOfInput
  deriving DecidableEq

namespace Keyword

/-- The spelling of a keyword. -/
def word : Keyword → String
  | .boolean => "boolean"
  | .byte => "byte"
  | .char => "char"
  | .short => "short"
  | .int => "int"
  | .long => "long"
  | .float => "float"
  | .double => "double"
  | .void => "void"
  | .final => "final"
  | .ifWord => "if"
  | .elseWord => "else"
  | .whileWord => "while"
  | .doWord => "do"
  | .forWord => "for"
  | .returnWord => "return"
  | .breakWord => "break"
  | .continueWord => "continue"
  | .throwWord => "throw"
  | .newWord => "new"
  | .thisWord => "this"
  | .superWord => "super"
  | .trueWord => "true"
  | .falseWord => "false"
  | .nullWord => "null"
  | .instanceOf => "instanceof"

/-- All keywords. -/
def all : List Keyword :=
  [.boolean, .byte, .char, .short, .int, .long, .float, .double, .void, .final, .ifWord, .elseWord,
    .whileWord, .doWord, .forWord, .returnWord, .breakWord, .continueWord, .throwWord, .newWord,
    .thisWord, .superWord, .trueWord, .falseWord, .nullWord, .instanceOf]

/-- The keyword of a word. -/
def ofWord? (word : String) : Option Keyword := all.find? fun keyword => keyword.word = word

theorem ofWord?_word (keyword : Keyword) : ofWord? keyword.word = some keyword := by
  cases keyword <;> decide

/-- The name of a keyword in messages about what was expected. -/
def title (keyword : Keyword) : String := keyword.word.capitalize

end Keyword

/-- Words of the language that are neither keywords here nor names. -/
def reservedWords : List String :=
  ["abstract", "assert", "case", "catch", "class", "const", "default", "enum", "extends",
    "finally", "goto", "implements", "import", "interface", "native", "package", "private",
    "protected", "public", "static", "strictfp", "switch", "synchronized", "throws",
    "transient", "try", "volatile"]

namespace Punct

/-- The spelling of a punctuator. -/
def spelling : Punct → String
  | .lparen => "("
  | .rparen => ")"
  | .lbrace => "\x7b"
  | .rbrace => "\x7d"
  | .lbracket => "["
  | .rbracket => "]"
  | .semicolon => ";"
  | .comma => ","
  | .dot => "."
  | .question => "?"
  | .colon => ":"
  | .assign => "="
  | .plus => "+"
  | .minus => "-"
  | .star => "*"
  | .slash => "/"
  | .percent => "%"
  | .plusPlus => "++"
  | .minusMinus => "--"
  | .eqEq => "=="
  | .notEq => "!="
  | .lt => "<"
  | .ltEq => "<="
  | .gt => ">"
  | .gtEq => ">="
  | .andAnd => "&&"
  | .orOr => "||"
  | .not => "!"
  | .and => "&"
  | .or => "|"
  | .xor => "^"
  | .tilde => "~"
  | .ltLt => "<<"
  | .gtGt => ">>"
  | .gtGtGt => ">>>"
  | .plusEq => "+="
  | .minusEq => "-="
  | .starEq => "*="
  | .slashEq => "/="
  | .percentEq => "%="
  | .andEq => "&="
  | .orEq => "|="
  | .xorEq => "^="
  | .ltLtEq => "<<="
  | .gtGtEq => ">>="
  | .gtGtGtEq => ">>>="

/-- The name of a punctuator in messages. -/
def title : Punct → String
  | .lparen => "LParen"
  | .rparen => "RParen"
  | .lbrace => "LBrace"
  | .rbrace => "RBrace"
  | .lbracket => "LBracket"
  | .rbracket => "RBracket"
  | .semicolon => "Semicolon"
  | .comma => "Comma"
  | .dot => "Dot"
  | .question => "Question"
  | .colon => "Colon"
  | .assign => "Assign"
  | .plus => "Plus"
  | .minus => "Minus"
  | .star => "Star"
  | .slash => "Slash"
  | .percent => "Percent"
  | .plusPlus => "PlusPlus"
  | .minusMinus => "MinusMinus"
  | .eqEq => "EqEq"
  | .notEq => "NotEq"
  | .lt => "Lt"
  | .ltEq => "LtEq"
  | .gt => "Gt"
  | .gtEq => "GtEq"
  | .andAnd => "AndAnd"
  | .orOr => "OrOr"
  | .not => "Not"
  | .and => "And"
  | .or => "Or"
  | .xor => "Xor"
  | .tilde => "Tilde"
  | .ltLt => "LtLt"
  | .gtGt => "GtGt"
  | .gtGtGt => "GtGtGt"
  | .plusEq => "PlusEq"
  | .minusEq => "MinusEq"
  | .starEq => "StarEq"
  | .slashEq => "SlashEq"
  | .percentEq => "PercentEq"
  | .andEq => "AndEq"
  | .orEq => "OrEq"
  | .xorEq => "XorEq"
  | .ltLtEq => "LtLtEq"
  | .gtGtEq => "GtGtEq"
  | .gtGtGtEq => "GtGtGtEq"

/-- All punctuators, those with longer spellings first. -/
def all : List Punct :=
  [.gtGtGtEq,
    .gtGtGt, .ltLtEq, .gtGtEq,
    .plusPlus, .minusMinus, .eqEq, .notEq, .ltEq, .gtEq, .andAnd, .orOr, .ltLt, .gtGt, .plusEq,
    .minusEq, .starEq, .slashEq, .percentEq, .andEq, .orEq, .xorEq,
    .lparen, .rparen, .lbrace, .rbrace, .lbracket, .rbracket, .semicolon, .comma, .dot, .question,
    .colon, .assign, .plus, .minus, .star, .slash, .percent, .lt, .gt, .not, .and, .or, .xor,
    .tilde]

end Punct

/-- The way messages name a token. -/
def Token.describe : Token → String
  | .name text => "identifier '" ++ text ++ "'"
  | .int value => "number " ++ toString value
  | .long value => "number " ++ toString value ++ "L"
  | .float bits => "number " ++ Decimal.singleText bits
  | .double bits => "number " ++ Decimal.doubleText bits
  | .char _ => "character literal"
  | .string _ => "string literal"
  | .keyword word => "'" ++ word.word ++ "'"
  | .punct mark => mark.title
  | .endOfInput => "end of input"

end MethodPatch

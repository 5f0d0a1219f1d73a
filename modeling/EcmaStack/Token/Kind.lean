/-!
# Kinds of tokens

The lexical vocabulary: punctuators, reserved words, and the kinds of tokens. Kinds are numbered
from zero in a fixed order (`Kind.ofNumber`), with one unused number before the reserved words
and one after them.
-/

namespace EcmaStack

/-- The punctuators. -/
inductive Punct where
  | plus | minus | star | power | slash | percent | ampersand | bar | caret | shiftLeft |
  shiftRight | shiftRightZero | plusAssign | minusAssign | starAssign | powerAssign | slashAssign
  | percentAssign | ampersandAssign | barAssign | caretAssign | shiftLeftAssign | shiftRightAssign
  | shiftRightZeroAssign | logicalAnd | logicalOr | coalesce | logicalAndAssign | logicalOrAssign
  | coalesceAssign | increment | decrement | equal | strictEqual | less | greater | assign | bang
  | tilde | notEqual | strictNotEqual | lessEqual | greaterEqual | leftParen | leftBracket |
  leftBrace | comma | dot | rightParen | rightBracket | rightBrace | semicolon | colon | question
  | optionalDot | arrow | ellipsis | at
  deriving DecidableEq, Inhabited

/-- The reserved words: none of them can name a variable. -/
inductive Keyword where
  | breakWord | caseWord | catchWord | classWord | constWord | continueWord | debuggerWord |
  defaultWord | deleteWord | doWord | elseWord | exportWord | extendsWord | falseWord |
  finallyWord | forWord | functionWord | ifWord | importWord | inWord | instanceofWord | newWord |
  nullWord | returnWord | superWord | switchWord | thisWord | throwWord | trueWord | tryWord |
  typeofWord | varWord | voidWord | whileWord | withWord | letWord | staticWord
  deriving DecidableEq, Inhabited

/-- The kinds of tokens. `unassigned` stands for the numbers that belong to no kind. -/
inductive Kind where
  | unknown | fault | eof
  | whitespace | lineTerminator | comment | blockComment | hashbang
  | string | number | bigint | regexp
  | template | templateHead | templateMiddle | templateTail
  | punct (p : Punct)
  | privateName
  | identifier
  | keyword (k : Keyword)
  | unassigned (n : Nat)
  deriving DecidableEq, Inhabited

namespace Punct

/-- Every punctuator, in order of number. -/
def all : List Punct := [
  .plus, .minus, .star, .power, .slash, .percent, .ampersand, .bar, .caret, .shiftLeft,
  .shiftRight, .shiftRightZero, .plusAssign, .minusAssign, .starAssign, .powerAssign,
  .slashAssign, .percentAssign, .ampersandAssign, .barAssign, .caretAssign, .shiftLeftAssign,
  .shiftRightAssign, .shiftRightZeroAssign, .logicalAnd, .logicalOr, .coalesce, .logicalAndAssign,
  .logicalOrAssign, .coalesceAssign, .increment, .decrement, .equal, .strictEqual, .less,
  .greater, .assign, .bang, .tilde, .notEqual, .strictNotEqual, .lessEqual, .greaterEqual,
  .leftParen, .leftBracket, .leftBrace, .comma, .dot, .rightParen, .rightBracket, .rightBrace,
  .semicolon, .colon, .question, .optionalDot, .arrow, .ellipsis, .at]

/-- How a punctuator is written. -/
def spelling : Punct → String
  | .plus => "+"
  | .minus => "-"
  | .star => "*"
  | .power => "**"
  | .slash => "/"
  | .percent => "%"
  | .ampersand => "&"
  | .bar => "|"
  | .caret => "^"
  | .shiftLeft => "<<"
  | .shiftRight => ">>"
  | .shiftRightZero => ">>>"
  | .plusAssign => "+="
  | .minusAssign => "-="
  | .starAssign => "*="
  | .powerAssign => "**="
  | .slashAssign => "/="
  | .percentAssign => "%="
  | .ampersandAssign => "&="
  | .barAssign => "|="
  | .caretAssign => "^="
  | .shiftLeftAssign => "<<="
  | .shiftRightAssign => ">>="
  | .shiftRightZeroAssign => ">>>="
  | .logicalAnd => "&&"
  | .logicalOr => "||"
  | .coalesce => "??"
  | .logicalAndAssign => "&&="
  | .logicalOrAssign => "||="
  | .coalesceAssign => "??="
  | .increment => "++"
  | .decrement => "--"
  | .equal => "=="
  | .strictEqual => "==="
  | .less => "<"
  | .greater => ">"
  | .assign => "="
  | .bang => "!"
  | .tilde => "~"
  | .notEqual => "!="
  | .strictNotEqual => "!=="
  | .lessEqual => "<="
  | .greaterEqual => ">="
  | .leftParen => "("
  | .leftBracket => "["
  | .leftBrace => "\x7b"
  | .comma => ","
  | .dot => "."
  | .rightParen => ")"
  | .rightBracket => "]"
  | .rightBrace => "\x7d"
  | .semicolon => ";"
  | .colon => ":"
  | .question => "?"
  | .optionalDot => "?."
  | .arrow => "=>"
  | .ellipsis => "..."
  | .at => "@"

/-- Every punctuator, longer ones first, so that the first match is the longest. -/
def longestFirst : List Punct := [
  .shiftRightZeroAssign,
  .ellipsis, .strictEqual, .strictNotEqual, .shiftRightZero, .powerAssign,
  .shiftLeftAssign, .shiftRightAssign, .logicalAndAssign, .logicalOrAssign, .coalesceAssign,
  .power, .shiftLeft, .shiftRight, .logicalAnd, .logicalOr, .coalesce, .increment, .decrement,
  .equal, .notEqual, .lessEqual, .greaterEqual, .plusAssign, .minusAssign, .starAssign,
  .slashAssign, .percentAssign, .ampersandAssign, .barAssign, .caretAssign, .arrow, .optionalDot,
  .plus, .minus, .star, .slash, .percent, .ampersand, .bar, .caret, .less, .greater, .assign,
  .bang, .tilde, .leftParen, .leftBracket, .leftBrace, .comma, .dot, .rightParen,
  .rightBracket, .rightBrace, .semicolon, .colon, .question, .at]

/-- Whether the punctuator assigns. -/
def isAssignment : Punct → Bool
  | .assign | .plusAssign | .minusAssign | .starAssign | .powerAssign | .slashAssign
  | .percentAssign | .ampersandAssign | .barAssign | .caretAssign | .shiftLeftAssign
  | .shiftRightAssign | .shiftRightZeroAssign | .logicalAndAssign | .logicalOrAssign
  | .coalesceAssign => true
  | _ => false

/-- The binary operator inside a compound assignment; every other punctuator stands for itself. -/
def binary : Punct → Punct
  | .plusAssign => .plus
  | .minusAssign => .minus
  | .starAssign => .star
  | .powerAssign => .power
  | .slashAssign => .slash
  | .percentAssign => .percent
  | .ampersandAssign => .ampersand
  | .barAssign => .bar
  | .caretAssign => .caret
  | .shiftLeftAssign => .shiftLeft
  | .shiftRightAssign => .shiftRight
  | .shiftRightZeroAssign => .shiftRightZero
  | .logicalAndAssign => .logicalAnd
  | .logicalOrAssign => .logicalOr
  | .coalesceAssign => .coalesce
  | p => p

/-- How tightly the punctuator binds as a binary operator; zero for one that is none. -/
def precedence : Punct → Nat
  | .coalesce | .logicalOr => 3
  | .logicalAnd => 4
  | .bar => 5
  | .caret => 6
  | .ampersand => 7
  | .equal | .strictEqual | .notEqual | .strictNotEqual => 8
  | .less | .greater | .lessEqual | .greaterEqual => 9
  | .shiftLeft | .shiftRight | .shiftRightZero => 10
  | .plus | .minus => 11
  | .star | .slash | .percent => 12
  | .power => 13
  | _ => 0

/-- The longest punctuator at the head of a list of characters, with how many characters it
takes. -/
def longestMatch? (cs : List Char) : Option (Punct × Nat) :=
  (longestFirst.find? fun p => p.spelling.toList.isPrefixOf cs).map fun p => (p, p.spelling.length)

end Punct

namespace Keyword

/-- Every reserved word, in order of number. -/
def all : List Keyword := [
  .breakWord, .caseWord, .catchWord, .classWord, .constWord, .continueWord, .debuggerWord,
  .defaultWord, .deleteWord, .doWord, .elseWord, .exportWord, .extendsWord, .falseWord,
  .finallyWord, .forWord, .functionWord, .ifWord, .importWord, .inWord, .instanceofWord, .newWord,
  .nullWord, .returnWord, .superWord, .switchWord, .thisWord, .throwWord, .trueWord, .tryWord,
  .typeofWord, .varWord, .voidWord, .whileWord, .withWord, .letWord, .staticWord]

/-- How a reserved word is written. -/
def spelling : Keyword → String
  | .breakWord => "break"
  | .caseWord => "case"
  | .catchWord => "catch"
  | .classWord => "class"
  | .constWord => "const"
  | .continueWord => "continue"
  | .debuggerWord => "debugger"
  | .defaultWord => "default"
  | .deleteWord => "delete"
  | .doWord => "do"
  | .elseWord => "else"
  | .exportWord => "export"
  | .extendsWord => "extends"
  | .falseWord => "false"
  | .finallyWord => "finally"
  | .forWord => "for"
  | .functionWord => "function"
  | .ifWord => "if"
  | .importWord => "import"
  | .inWord => "in"
  | .instanceofWord => "instanceof"
  | .newWord => "new"
  | .nullWord => "null"
  | .returnWord => "return"
  | .superWord => "super"
  | .switchWord => "switch"
  | .thisWord => "this"
  | .throwWord => "throw"
  | .trueWord => "true"
  | .tryWord => "try"
  | .typeofWord => "typeof"
  | .varWord => "var"
  | .voidWord => "void"
  | .whileWord => "while"
  | .withWord => "with"
  | .letWord => "let"
  | .staticWord => "static"

/-- The reserved word with a spelling. -/
def ofSpelling? (s : String) : Option Keyword :=
  all.find? (·.spelling == s)

end Keyword

/-- Whether a name is a reserved word. -/
def isReserved (name : String) : Bool :=
  (Keyword.ofSpelling? name).isSome

namespace Kind

/-- The kinds with a number below the first punctuator's, in order. -/
def plain : List Kind :=
  [.unknown, .fault, .eof, .whitespace, .lineTerminator, .comment, .blockComment, .hashbang,
   .string, .number, .bigint, .regexp, .template, .templateHead, .templateMiddle, .templateTail]

/-- The kind at each number. The numbers around the reserved words belong to no kind. -/
def numbered : List Kind :=
  let upToNames := plain ++ Punct.all.map .punct ++ [.privateName, .identifier]
  let words := Keyword.all.map .keyword
  upToNames ++ .unassigned upToNames.length :: words

/-- The kind with a number. -/
def ofNumber (n : Nat) : Kind :=
  numbered.getD n (.unassigned n)

/-- The name of a kind: the spelling of a punctuator or reserved word, else a word for the kind. -/
def describe : Kind → String
  | .unknown => "UNKNOWN"
  | .fault => "Error"
  | .eof => "EOF"
  | .whitespace => "Whitespace"
  | .lineTerminator => "LineTerminator"
  | .comment => "Comment"
  | .blockComment => "MultiLineComment"
  | .hashbang => "Hashbang"
  | .string => "String"
  | .number => "Number"
  | .bigint => "BigInt"
  | .regexp => "RegExp"
  | .template => "Template"
  | .templateHead => "TemplateHead"
  | .templateMiddle => "TemplateMiddle"
  | .templateTail => "TemplateTail"
  | .punct p => p.spelling
  | .privateName => "PrivateName"
  | .identifier => "Identifier"
  | .keyword k => k.spelling
  | .unassigned n => "token(" ++ toString n ++ ")"

/-- The kind with a name, if there is one. -/
def ofName? (name : String) : Option Kind :=
  numbered.find? (·.describe == name)

/-- Whether the kind is a reserved word. -/
def isKeyword : Kind → Bool
  | .keyword _ => true
  | _ => false

/-- Whether a token of this kind can stand where any identifier name can. -/
def isIdentifierName : Kind → Bool
  | .identifier | .keyword _ => true
  | _ => false

/-- Whether a token of this kind carries no grammar. -/
def isTrivia : Kind → Bool
  | .whitespace | .lineTerminator | .comment | .blockComment | .hashbang => true
  | _ => false

/-- Whether the kind is a part of a template literal. -/
def isTemplate : Kind → Bool
  | .template | .templateHead | .templateMiddle | .templateTail => true
  | _ => false

/-- Whether the kind is an assignment operator. -/
def isAssignment : Kind → Bool
  | .punct p => p.isAssignment
  | _ => false

/-- The binary operator inside a compound assignment; every other kind stands for itself. -/
def binary : Kind → Kind
  | .punct p => .punct p.binary
  | k => k

/-- How tightly the kind binds as a binary operator; zero for a kind that is none. -/
def binaryPrecedence : Kind → Nat
  | .punct p => p.precedence
  | .keyword .instanceofWord | .keyword .inWord => 9
  | _ => 0

/-- How tightly an expression with this operator binds; the comma binds loosest. -/
def precedence : Kind → Nat
  | .punct .comma => 1
  | k => k.binaryPrecedence

end Kind

end EcmaStack

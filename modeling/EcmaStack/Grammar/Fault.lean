import EcmaStack.Scope.Basic
import EcmaStack.Source.File
import EcmaStack.Token.Basic

/-!
# Syntax errors

Why a source is not in the language, and the words for it. Reading stops at the first fault. A
fault has the byte offset it is reported at; `ParseError` gives it a position in a file.
-/

namespace EcmaStack

/-- Which of the two loops over a collection is meant. -/
inductive LoopWord where
  | forIn | forOf
  deriving DecidableEq

/-- The word for a loop. -/
def LoopWord.text : LoopWord → String
  | .forIn => "for-in"
  | .forOf => "for-of"

/-- What goes wrong in the reader itself and is no fault of the source: goals nested deeper than
the fuel reaches, a scope closed that is not the innermost, a token that is no range of the
source, an expression taken for a pattern. -/
inductive Breakdown where
  | exhausted
  | scopeOrder
  | tokenRange
  | noPattern
  deriving DecidableEq

/-- The wording of a breakdown. -/
def Breakdown.message : Breakdown → String
  | .exhausted => "Nesting too deep"
  | .scopeOrder => "ast: scope popped out of order"
  | .tokenRange => "slice bounds out of range"
  | .noPattern => "interface conversion: not a pattern"

/-- Why reading a source stops. -/
inductive SyntaxFault where
  | lexical (fault : LexicalFault)
  | unexpectedEnd
  | unexpectedIdentifier (name : String)
  | unexpectedNumber
  | unexpectedString
  | unexpectedTemplate
  | unexpectedPrivateName (name : String)
  | unexpectedKeyword (word : Keyword)
  | unexpectedToken (kind : Kind)
  | escapedKeyword
  | reservedWord
  | declaration (fault : DeclareFault)
  | assignmentTarget
  | beforeTarget
  | afterTarget
  | exponentOperand
  | mixedCoalesce
  | privateDelete
  | privateOutsideClass (name : String)
  | newTargetOutside
  | newImport
  | newOptional
  | optionalTemplate
  | superOutside
  | invalidBigInt (text : String)
  | invalidNumber (text : String)
  | shorthandInitializer
  | pattern (body flags message : String)
  | importMetaOutside
  | getterParameters
  | setterParameters
  | restNotLast
  | secondConstructor
  | constructorAccessor
  | constructorGenerator
  | constructorAsync
  | constructorField
  | decoratedBlock
  | withStatement
  | lexicalStatement
  | repeatedLabel (name : String)
  | undefinedLabel (name : String)
  | illegalBreak
  | illegalContinue
  | continueTarget (name : String)
  | illegalReturn
  | newlineAfterThrow
  | loopBindings (loop : LoopWord)
  | loopInitializer (loop : LoopWord)
  | loopTarget (loop : LoopWord)
  | repeatedDefault
  | missingHandler
  | usingPattern (kind : DeclKind)
  | patternInitializer
  | missingInitializer (kind : DeclKind)
  | breakdown (cause : Breakdown)
  deriving DecidableEq

namespace SyntaxFault

/-- The wording of a syntax fault. -/
def message : SyntaxFault → String
  | .lexical fault => fault.message
  | .unexpectedEnd => "Unexpected end of input"
  | .unexpectedIdentifier name => "Unexpected identifier '" ++ name ++ "'"
  | .unexpectedNumber => "Unexpected number"
  | .unexpectedString => "Unexpected string"
  | .unexpectedTemplate => "Unexpected template string"
  | .unexpectedPrivateName name => "Unexpected private name #" ++ name
  | .unexpectedKeyword word => "Unexpected token '" ++ word.spelling ++ "'"
  | .unexpectedToken kind => "Unexpected token " ++ kind.describe
  | .escapedKeyword => "Keyword must not contain escaped characters"
  | .reservedWord => "Unexpected reserved word"
  | .declaration fault => fault.message
  | .assignmentTarget => "Invalid left-hand side in assignment"
  | .beforeTarget => "Invalid left-hand side expression in prefix operation"
  | .afterTarget => "Invalid left-hand side expression in postfix operation"
  | .exponentOperand => "Unary operator used immediately before exponentiation expression. " ++
      "Parenthesis must be used to disambiguate operator precedence"
  | .mixedCoalesce => "Cannot mix ?? with && or || without parentheses"
  | .privateDelete => "Private fields can not be deleted"
  | .privateOutsideClass name =>
    "Private field '#" ++ name ++ "' must be declared in an enclosing class"
  | .newTargetOutside => "new.target expression is not allowed here"
  | .newImport => "Cannot use new with import"
  | .newOptional => "Invalid optional chain from new expression"
  | .optionalTemplate => "Invalid tagged template on optional chain"
  | .superOutside => "'super' keyword unexpected here"
  | .invalidBigInt text => "Invalid BigInt literal " ++ text
  | .invalidNumber text => "Invalid number " ++ text
  | .shorthandInitializer => "Invalid shorthand property initializer"
  | .pattern body flags message =>
    "Invalid regular expression: /" ++ body ++ "/" ++ flags ++ ": " ++ message
  | .importMetaOutside => "Cannot use 'import.meta' outside a module"
  | .getterParameters => "Getter must not have any formal parameters."
  | .setterParameters => "Setter must have exactly one formal parameter."
  | .restNotLast => "Rest parameter must be last formal parameter"
  | .secondConstructor => "A class may only have one constructor"
  | .constructorAccessor => "Class constructor may not be an accessor"
  | .constructorGenerator => "Class constructor may not be a generator"
  | .constructorAsync => "Class constructor may not be an async method"
  | .constructorField => "Classes may not have a field named 'constructor'"
  | .decoratedBlock => "Decorators are not valid here"
  | .withStatement => "Strict mode code may not include a with statement"
  | .lexicalStatement => "Lexical declaration cannot appear in a single-statement context"
  | .repeatedLabel name => "Label '" ++ name ++ "' has already been declared"
  | .undefinedLabel name => "Undefined label '" ++ name ++ "'"
  | .illegalBreak => "Illegal break statement"
  | .illegalContinue => "Illegal continue statement: no surrounding iteration statement"
  | .continueTarget name =>
    "Illegal continue statement: '" ++ name ++ "' does not denote an iteration statement"
  | .illegalReturn => "Illegal return statement"
  | .newlineAfterThrow => "Illegal newline after throw"
  | .loopBindings loop =>
    "Invalid left-hand side in " ++ loop.text ++ " loop: Must have a single binding."
  | .loopInitializer loop => loop.text ++ " loop variable declaration may not have an initializer."
  | .loopTarget loop => "Invalid left-hand side in " ++ loop.text ++ " loop"
  | .repeatedDefault => "More than one default clause in switch statement"
  | .missingHandler => "Missing catch or finally after try"
  | .usingPattern kind => kind.word ++ " declarations may not have binding patterns"
  | .patternInitializer => "Missing initializer in destructuring declaration"
  | .missingInitializer kind => "Missing initializer in " ++ kind.word ++ " declaration"
  | .breakdown cause => cause.message

/-- Whether the fault is the reader's own: a breakdown, or a declaration for which no scope is
open. -/
@[reducible]
def isInternal : SyntaxFault → Bool
  | .breakdown _ | .declaration .outsideScope => true
  | _ => false

end SyntaxFault

/-- A fault and the byte offset it is reported at. -/
structure ParseFault where
  offset : Nat
  cause : SyntaxFault
  deriving DecidableEq

/-- A syntax error at a position of a file. -/
structure ParseError where
  position : Position
  cause : SyntaxFault

namespace ParseError

/-- What is wrong. -/
def message (e : ParseError) : String :=
  e.cause.message

/-- Where and what is wrong, on one line. -/
def render (e : ParseError) : String :=
  e.position.render ++ ": SyntaxError: " ++ e.message

end ParseError

end EcmaStack

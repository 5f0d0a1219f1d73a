import EcmaStack.Number.Binary64
import EcmaStack.Scope.Basic
import EcmaStack.Text.Piece
import EcmaStack.Token.Kind

/-!
# Syntax trees

The tree of a program. Every node has the byte range of the source it was read from. Nodes that
open a lexical region carry its scope, and function-like nodes carry the names they capture from
around them.

Trees can be built by hand, so an operator is any token kind, any part may be missing, and any
node may stand at the head of a loop, among what an import brings in, and as the default of a
module. What the grammar produces is narrower: of the parts it never leaves out, only the
elements of an array are ever missing, which makes a hole.
-/

namespace EcmaStack

/-- A byte range, the end excluded. In a tree built by hand it may lie before the source. -/
structure Span where
  start : Int := 0
  stop : Int := 0
  deriving DecidableEq, Inhabited

/-- The place of the source at which a range starts; before the source that is its start. -/
def Span.offset (s : Span) : Nat :=
  s.start.toNat

/-- An identifier, private or not, with its text. -/
structure Name where
  span : Span
  text : String
  deriving DecidableEq, Inhabited

/-- The text of a name; a name that is missing has none. -/
def nameText (n : Option Name) : String :=
  (n.map Name.text).getD ""

/-- The text of the value of a big integer; one without a value has a text of its own. -/
def integerText (value : Option Int) : String :=
  (value.map toString).getD "<nil>"

/-- A string literal as written and as meant. Either may hold stray bytes, as the source may. -/
structure StringLiteral where
  span : Span
  raw : Text
  value : Text
  deriving DecidableEq, Inhabited

/-- A stretch of template text as written and as meant. -/
structure TemplateElement where
  span : Span
  raw : Text
  cooked : Text
  deriving DecidableEq, Inhabited

/-- A string that stands as a statement at the head of a body, without its quotes. -/
structure Directive where
  span : Span
  value : Text
  deriving DecidableEq, Inhabited

/-- A key and value that qualify an import. -/
structure ImportAttribute where
  span : Span
  key : Text
  value : StringLiteral
  deriving DecidableEq, Inhabited

/-- A name made visible to other modules, perhaps under another name. -/
structure ExportSpecifier where
  span : Span
  inner : Option Name
  exported : Option Name
  deriving DecidableEq, Inhabited

/-- What an import brings in: a name of the module, the module's default, or the module as a
whole. -/
inductive ImportSpecifier where
  | named (span : Span) (imported inner : Name)
  | standard (span : Span) (inner : Option Name)
  | whole (span : Span) (inner : Option Name)

/-- What a function-like node knows of its surroundings: the scope of its parameters and
declarations, the scope of its own name around that, and the names it captures. -/
structure Env where
  scope : Option Scope := none
  nameScope : Option Scope := none
  closure : List String := []

/-- What a property of an object or a method of a class is. -/
inductive PropertyKind where
  | value | method | getter | setter | constructor
  deriving DecidableEq, Inhabited

/-- The word for a kind of property. -/
def PropertyKind.word : PropertyKind → String
  | .value => "value"
  | .method => "method"
  | .getter => "get"
  | .setter => "set"
  | .constructor => "constructor"

mutual

/-- Expressions. A missing one is a hole in an array; elsewhere only trees built by hand have
them. -/
inductive Expr where
  | missing
  | identifier (name : Name)
  | privateName (name : Name)
  | nullLiteral (span : Span)
  | boolean (span : Span) (value : Bool)
  | number (span : Span) (raw : String) (value : Binary64)
  | bigint (span : Span) (raw : String) (value : Option Int)
  | string (literal : StringLiteral)
  | regexp (span : Span) (raw pattern : Text) (flags : String)
  | template (literal : Template)
  | tagged (span : Span) (tag : Expr) (quasi : Template)
  | thisRef (span : Span)
  | superRef (span : Span)
  | array (span : Span) (elements : List Expr)
  | object (span : Span) (properties : List Property)
  | spread (span : Span) (argument : Expr)
  | paren (span : Span) (inner : Expr)
  | call (span : Span) (callee : Expr) (arguments : List Expr) (optional : Bool)
  | construct (span : Span) (callee : Expr) (arguments : List Expr)
  | member (span : Span) (object property : Expr) (computed optional : Bool)
  | metaProperty (span : Span) (owner property : Option Name)
  | importCall (span : Span) (source : Expr) (options : Option Expr)
  | unary (span : Span) (op : Kind) (operand : Expr)
  | await (span : Span) (argument : Expr)
  | update (span : Span) (op : Kind) (operand : Expr) (before : Bool)
  | binary (span : Span) (op : Kind) (left right : Expr)
  | conditional (span : Span) (test consequent alternate : Expr)
  | assign (span : Span) (op : Kind) (target : Pattern) (value : Expr)
  | yield (span : Span) (argument : Option Expr) (delegate : Bool)
  | function (literal : Function)
  | arrow (span : Span) (params : Params) (body : Body) (value : Option Expr) (async : Bool)
    (env : Env)
  | classExpr (literal : Class)

/-- A template literal: texts with expressions between them. -/
structure Template where
  span : Span
  quasis : List TemplateElement
  expressions : List Expr

/-- What an object literal is made of. -/
inductive Property where
  | missing
  | keyed (span : Span) (key : Expr) (computed : Bool) (kind : PropertyKind) (value : Expr)
  | short (span : Span) (name : Option Name)
  | spread (span : Span) (argument : Expr)

/-- What receives a value. A target that is no destructuring pattern is an expression. -/
inductive Pattern where
  | target (e : Expr)
  | array (span : Span) (elements : List Element) (rest : Option Pattern)
  | object (span : Span) (properties : List PatternProperty) (rest : Option Pattern)

/-- A parameter or an element of an array pattern, with its default. An array pattern may pass
over an element, which leaves a hole; so may a parameter list built by hand. -/
inductive Element where
  | hole
  | bound (span : Span) (target : Pattern) (fallback : Option Expr)

/-- A property of an object pattern, with its default. -/
structure PatternProperty where
  span : Span
  key : Expr
  computed : Bool
  value : Pattern
  fallback : Option Expr
  shorthand : Bool

/-- A parameter list; a function built by hand may have none. -/
inductive Params where
  | missing
  | list (span : Span) (items : List Element) (rest : Option Pattern)

/-- The statements of a function. An arrow function may have an expression in their place, and a
function built by hand may have neither. -/
inductive Body where
  | missing
  | block (span : Span) (directives : List Directive) (items : List Stmt)

/-- A function. -/
structure Function where
  span : Span
  name : Option Name
  params : Params
  body : Body
  async : Bool
  generator : Bool
  env : Env

/-- A class. -/
structure Class where
  span : Span
  name : Option Name
  superClass : Option Expr
  body : List ClassElement
  decorators : List Decorator
  env : Env

/-- What a class body is made of. -/
inductive ClassElement where
  | missing
  | method (span : Span) (key : Expr) (computed static : Bool) (kind : PropertyKind)
    (function : Option Function)
      (decorators : List Decorator)
  | field (span : Span) (key : Expr) (computed static accessor : Bool) (initializer : Option Expr)
      (decorators : List Decorator)
  | staticBlock (span : Span) (body : List Stmt) (env : Env)

/-- A decorator of a class or of one of its elements. -/
structure Decorator where
  span : Span
  expression : Expr

/-- A block of statements. -/
structure Block where
  span : Span
  body : List Stmt
  scope : Option Scope

/-- A declaration of variables. -/
structure VarDecl where
  span : Span
  kind : DeclKind
  list : List Declarator

/-- One target of a declaration. -/
structure Declarator where
  span : Span
  target : Pattern
  initializer : Option Expr

/-- A clause of a switch; the default clause has no test. -/
structure CaseClause where
  span : Span
  test : Option Expr
  consequent : List Stmt

/-- What handles an exception. -/
structure CatchClause where
  span : Span
  param : Option Pattern
  body : List Stmt
  scope : Option Scope

/-- Statements and declarations. The head of a loop is a declaration, an expression or a pattern
that takes a value apart; the default of a module is an expression, or the declaration of a
function or a class. -/
inductive Stmt where
  | missing
  | expression (span : Span) (e : Expr)
  | block (b : Block)
  | empty (span : Span)
  | debugger (span : Span)
  | giveBack (span : Span) (argument : Option Expr)
  | labelled (span : Span) (label : Option Name) (body : Stmt)
  | breakOff (span : Span) (label : Option Name)
  | carryOn (span : Span) (label : Option Name)
  | branch (span : Span) (test : Expr) (consequent : Stmt) (alternate : Option Stmt)
  | switch (span : Span) (discriminant : Expr) (cases : List CaseClause) (scope : Option Scope)
  | raise (span : Span) (argument : Expr)
  | guarded (span : Span) (block : Block) (handler : Option CatchClause) (finalizer : Option Block)
  | whileLoop (span : Span) (test : Expr) (body : Stmt)
  | doWhile (span : Span) (body : Stmt) (test : Expr)
  | forLoop (span : Span) (init : Option Node) (test update : Option Expr) (body : Stmt)
    (scope : Option Scope)
  | forIn (span : Span) (left : Node) (right : Expr) (body : Stmt) (scope : Option Scope)
  | forOf (span : Span) (left : Node) (right : Expr) (body : Stmt) (await : Bool)
    (scope : Option Scope)
  | declaration (d : VarDecl)
  | function (span : Span) (literal : Function)
  | classDecl (span : Span) (literal : Class)
  | importDecl (span : Span) (specifiers : List Node) (source : StringLiteral)
      (attributes : List ImportAttribute)
  | exportNamed (span : Span) (declaration : Option Stmt) (specifiers : List ExportSpecifier)
      (source : Option StringLiteral) (attributes : List ImportAttribute)
  | exportDefault (span : Span) (declaration : Node)
  | exportAll (span : Span) (exported : Option Name) (source : StringLiteral)
    (attributes : List ImportAttribute)

/-- A whole program. -/
structure Program where
  span : Span
  interpreter : Text
  directives : List Directive
  body : List Stmt
  module : Bool
  scope : Option Scope

/-- Any node of a tree. A target that is no destructuring pattern stands as an expression. -/
inductive Node where
  | program (p : Program)
  | stmt (s : Stmt)
  | expr (e : Expr)
  | pattern (p : Pattern)
  | templateElement (t : TemplateElement)
  | property (p : Property)
  | element (e : Element)
  | patternProperty (p : PatternProperty)
  | params (p : Params)
  | body (b : Body)
  | classElement (e : ClassElement)
  | decorator (d : Decorator)
  | declarator (d : Declarator)
  | caseClause (c : CaseClause)
  | catchClause (c : CatchClause)
  | importSpecifier (s : ImportSpecifier)
  | importAttribute (a : ImportAttribute)
  | exportSpecifier (s : ExportSpecifier)
  | directive (d : Directive)

end

/-- The range of an expression. -/
def Expr.span : Expr → Span
  | .missing => {}
  | .identifier n | .privateName n => n.span
  | .string l => l.span
  | .template t => t.span
  | .function f => f.span
  | .classExpr c => c.span
  | .nullLiteral s | .boolean s _ | .number s _ _ | .bigint s _ _ | .regexp s _ _ _
  | .tagged s _ _ | .thisRef s | .superRef s | .array s _ | .object s _ | .spread s _ | .paren s _
  | .call s _ _ _ | .construct s _ _ | .member s _ _ _ _ | .metaProperty s _ _ | .importCall s _ _
  | .unary s _ _ | .await s _ | .update s _ _ _ | .binary s _ _ _ | .conditional s _ _ _
  | .assign s _ _ _ | .yield s _ _ | .arrow s _ _ _ _ _ =>
    s

/-- The range of a pattern. -/
def Pattern.span : Pattern → Span
  | .target e => e.span
  | .array s _ _ | .object s _ _ => s

/-- The range of a statement. -/
def Stmt.span : Stmt → Span
  | .missing => {}
  | .block b => b.span
  | .declaration d => d.span
  | .expression s _ | .empty s | .debugger s | .giveBack s _ | .labelled s _ _ | .breakOff s _
  | .carryOn s _ | .branch s _ _ _ | .switch s _ _ _ | .raise s _ | .guarded s _ _ _
  | .whileLoop s _ _ | .doWhile s _ _ | .forLoop s _ _ _ _ _ | .forIn s _ _ _ _
  | .forOf s _ _ _ _ _ | .function s _ | .classDecl s _ | .importDecl s _ _ _
  | .exportNamed s _ _ _ _ | .exportDefault s _ | .exportAll s _ _ _ => s

/-- The range of a class element. -/
def ClassElement.span : ClassElement → Span
  | .missing => {}
  | .method s _ _ _ _ _ _ | .field s _ _ _ _ _ _ | .staticBlock s _ _ => s

/-- Whether an expression is missing. -/
def Expr.isMissing : Expr → Bool
  | .missing => true
  | _ => false

/-- Whether the statements of a function are missing. -/
def Body.isMissing : Body → Bool
  | .missing => true
  | _ => false

/-- Whether a chain of members and calls has an optional link. -/
def Expr.isOptionalChain : Expr → Bool
  | .member _ base _ _ optional => optional || base.isOptionalChain
  | .call _ base _ optional => optional || base.isOptionalChain
  | _ => false

/-- The text of a key that is not computed: an identifier, the value of a string, a number as
written, or a private name with its mark. -/
def Expr.keyText? : Expr → Option Text
  | .identifier n => some n.text
  | .string l => some l.value
  | .number _ raw _ => some raw
  | .privateName n => some ("#" ++ n.text)
  | _ => none

/-- The name of a key that is not computed, as a string. -/
def Expr.keyName? (e : Expr) : Option String :=
  e.keyText?.map Text.toString

/-- Whether an expression is a private name. -/
def Expr.isPrivateName : Expr → Bool
  | .privateName _ => true
  | _ => false

/-- An expression without the parentheses around it. -/
def Expr.withoutParens : Expr → Expr
  | .paren _ inner => inner.withoutParens
  | e => e

end EcmaStack

/-!
## Names that patterns bind

The identifiers a pattern introduces, in order of the source. A member expression receives a
value and introduces nothing.
-/

namespace EcmaStack

mutual

/-- The names a pattern binds. -/
def Pattern.boundNames : Pattern → List Name
  | .target (.identifier n) => [n]
  | .target _ => []
  | .array _ elements rest => Element.boundNames elements ++ Pattern.boundNamesOption rest
  | .object _ properties rest =>
    PatternProperty.boundNames properties ++ Pattern.boundNamesOption rest

/-- The names a pattern that may be missing binds. -/
def Pattern.boundNamesOption : Option Pattern → List Name
  | none => []
  | some p => p.boundNames

/-- The names elements bind. -/
def Element.boundNames : List Element → List Name
  | [] => []
  | .hole :: rest => Element.boundNames rest
  | .bound _ target _ :: rest => target.boundNames ++ Element.boundNames rest

/-- The names the properties of a pattern bind. -/
def PatternProperty.boundNames : List PatternProperty → List Name
  | [] => []
  | ⟨_, _, _, value, _, _⟩ :: rest => value.boundNames ++ PatternProperty.boundNames rest

end

/-- The names a parameter list binds. -/
def Params.boundNames : Params → List Name
  | .missing => []
  | .list _ items rest => Element.boundNames items ++ Pattern.boundNamesOption rest

/-- What an expression in parentheses passes on to the one inside them, an expression has
without the parentheses. -/
theorem Expr.withoutParens_of {P : Expr → Prop}
    (hparen : ∀ span inner, P (.paren span inner) → P inner) {e : Expr} (h : P e) :
    P e.withoutParens := by
  fun_induction Expr.withoutParens e with
  | case1 span inner ih => exact ih (hparen span inner h)
  | case2 => exact h

/-- The identifier or member an expression denotes, without parentheses around it; `none` when
nothing can be assigned to it. -/
def Expr.simpleTarget? (e : Expr) : Option Expr :=
  match e.withoutParens with
  | .identifier n => some (.identifier n)
  | .member s base property computed optional =>
    let m : Expr := .member s base property computed optional
    if m.isOptionalChain then none else some m
  | _ => none

end EcmaStack

import EcmaStack.Printer.Layout
import EcmaStack.Tree.Node

/-!
# Trees as source text

Every tree has a normal printed form. The bodies of `if` and of loops are always blocks, object
literals and blocks stand over several lines with four spaces for each level, and parentheses
stand where the tree has them and where operators would otherwise bind differently.

A declaration of variables ends with a semicolon except directly under a loop: in its head, and
also as a body that is the declaration alone. A part that is missing prints as nothing. Some
nodes have a printed form only as part of another node, so a tree that puts one of them anywhere
else has none (`Node.print`).

What is printed is made of characters: a stray byte in a literal prints as U+FFFD.
-/

namespace EcmaStack

/-! ## Parts without expressions -/

/-- A directive. -/
def Directive.print (d : Directive) : String :=
  "\"" ++ d.value.toString ++ "\";"

/-- A name, and the other name it goes by if that differs. -/
def printAlias (name other : String) : String :=
  name ++ if other == name then "" else " as " ++ other

/-- An import specifier. -/
def ImportSpecifier.print : ImportSpecifier → String
  | .named _ imported inner => printAlias imported.text inner.text
  | .standard _ inner => nameText inner
  | .whole _ inner => "* as " ++ nameText inner

/-- Whether a node is a name that an import brings in, which stands between braces. -/
def Node.isNamedImport : Node → Bool
  | .importSpecifier (.named _ _ _) => true
  | _ => false

/-- An export specifier. -/
def ExportSpecifier.print (s : ExportSpecifier) : String :=
  printAlias (nameText s.inner) (nameText s.exported)

/-- The attributes after the source of an import. -/
def printAttributes (attributes : List ImportAttribute) : String :=
  if attributes.isEmpty then ""
  else " with \x7b" ++ listed (attributes.map fun a => a.key.toString ++ ": " ++
    a.value.print) ++ "\x7d"

/-- A name after a space, when there is one. -/
def printName : Option Name → String
  | some n => " " ++ n.text
  | none => ""

/-- The words before the name of a method. -/
def Function.printHead (f : Function) : String :=
  (if f.async then "async " else "") ++ if f.generator then "*" else ""

/-- Whether an expression is a function. -/
def Expr.isFunction : Expr → Bool
  | .function _ => true
  | _ => false

/-- The words before the name of a method given as an expression. -/
def Expr.printHead : Expr → String
  | .function f => f.printHead
  | _ => ""

/-- Whether an expression is an object literal. -/
def Expr.isObject : Expr → Bool
  | .object _ _ => true
  | _ => false

/-- The depth at which a statement stands as the body of an `if` or of a loop: a block brings
its own level. -/
def Stmt.bodyDepth (depth : Nat) : Stmt → Nat
  | .block _ => depth
  | _ => depth + 1

/-- A statement as the body of an `if` or of a loop, from its printed form at that depth. -/
def Stmt.asBody (s : Stmt) (depth : Nat) (text : String) : String :=
  match s with
  | .block _ => text
  | .empty _ => "\x7b\x7d"
  | _ => braced depth [text]

/-- Whether a statement is a conditional. -/
def Stmt.isBranch : Stmt → Bool
  | .branch _ _ _ _ => true
  | _ => false

/-! ## Expressions, patterns and statements -/

mutual

/-- An expression at a depth of nesting. -/
def Expr.print (depth : Nat) : Expr → String
  | .missing => ""
  | .identifier n => n.text
  | .privateName n => "#" ++ n.text
  | .nullLiteral _ => "null"
  | .boolean _ value => if value then "true" else "false"
  | .number _ raw value => printNumber raw value
  | .bigint _ raw value => rawOr raw (integerText value ++ "n")
  | .string l => l.print
  | .regexp _ raw pattern flags => rawOr raw.toString ("/" ++ pattern.toString ++ "/" ++ flags)
  | .template t => Template.print depth t
  | .tagged _ tag quasi => tag.atTier Tier.call (tag.print depth) ++ Template.print depth quasi
  | .thisRef _ => "this"
  | .superRef _ => "super"
  | .array _ elements => "[" ++ separated false (Expr.printHoles depth elements) ++ "]"
  | .object _ properties => braced depth (commaEnded (Property.printList (depth + 1) properties))
  | .spread _ e => "..." ++ e.atTier Tier.assign (e.print depth)
  | .paren _ e => "(" ++ e.atTier Tier.comma (e.print depth) ++ ")"
  | .call _ callee args optional =>
    callee.atTier Tier.call (callee.print depth) ++ (if optional then "?." else "") ++
      "(" ++ listed (Expr.printList depth args) ++ ")"
  | .construct _ callee args =>
    "new " ++ callee.atTier Tier.member (callee.print depth) ++ "(" ++
      listed (Expr.printList depth args) ++ ")"
  | .member _ base property computed optional =>
    (if base.takesPoint && !computed then "(" ++ base.print depth ++ ")"
      else base.atTier Tier.call (base.print depth)) ++
      if computed then
        (if optional then "?." else "") ++ "[" ++
          property.atTier Tier.comma (property.print depth) ++ "]"
      else (if optional then "?." else ".") ++ property.print depth
  | .metaProperty _ owner property => nameText owner ++ "." ++ nameText property
  | .importCall _ source options =>
    "import(" ++ source.atTier Tier.assign (source.print depth) ++
      Expr.printAfter ", " Tier.assign depth options ++ ")"
  | .unary _ op e =>
    op.describe ++ (if op.describe.utf8ByteSize > 2 || e.fusesAfter op then " " else "") ++
      e.atTier Tier.unary (e.print depth)
  | .await _ e => "await " ++ e.atTier Tier.unary (e.print depth)
  | .update _ op e before =>
    if before then op.describe ++ e.atTier Tier.unary (e.print depth)
    else e.atTier Tier.call (e.print depth) ++ op.describe
  | .binary _ op left right =>
    left.asLeft op (left.print depth) ++ op.spaced ++ right.asRight op (right.print depth)
  | .conditional _ test consequent alternate =>
    test.atTier Tier.logicalOr (test.print depth) ++ " ? " ++
      consequent.atTier Tier.assign (consequent.print depth) ++
      " : " ++ alternate.atTier Tier.assign (alternate.print depth)
  | .assign _ op target value =>
    target.print depth ++ " " ++ op.describe ++ " " ++ value.atTier Tier.assign (value.print depth)
  | .yield _ argument delegate =>
    "yield" ++ (if delegate then "*" else "") ++ Expr.printAfter " " Tier.assign depth argument
  | .function f => Function.print depth f
  | .arrow _ params body value async _ =>
    (if async then "async " else "") ++ Params.print depth params ++ " => " ++
      (if body.isMissing then Expr.printValue depth value else Body.print depth body)
  | .classExpr c => Class.print depth c

/-- A template literal. -/
def Template.print (depth : Nat) : Template → String
  | ⟨_, quasis, expressions⟩ => "\x60" ++ woven quasis (Expr.printPlain depth expressions) ++ "\x60"

/-- Expressions that stand alone. -/
def Expr.printPlain (depth : Nat) : List Expr → List String
  | [] => []
  | e :: rest => e.atTier Tier.comma (e.print depth) :: Expr.printPlain depth rest

/-- Expressions between commas. -/
def Expr.printList (depth : Nat) : List Expr → List String
  | [] => []
  | e :: rest => e.atTier Tier.assign (e.print depth) :: Expr.printList depth rest

/-- The elements of an array, the missing ones as holes. -/
def Expr.printHoles (depth : Nat) : List Expr → List (Option String)
  | [] => []
  | e :: rest =>
    (if e.isMissing then none else some (e.atTier Tier.assign (e.print depth))) ::
      Expr.printHoles depth rest

/-- What an arrow function gives back without statements of its own. -/
def Expr.printValue (depth : Nat) : Option Expr → String
  | none => ""
  | some e =>
    if e.isObject then "(" ++ e.print depth ++ ")" else e.atTier Tier.assign (e.print depth)

/-- An expression after some text; nothing if there is none. -/
def Expr.printAfter (before : String) (least depth : Nat) : Option Expr → String
  | none => ""
  | some e => before ++ e.atTier least (e.print depth)

/-- The parameters and the body of a function given as an expression. -/
def Expr.printTail (depth : Nat) : Expr → String
  | .function f => Function.printTail depth f
  | _ => ""

/-- A property of an object. -/
def Property.print (depth : Nat) : Property → String
  | .missing => ""
  | .keyed _ key computed kind value =>
    let keyText := if computed then "[" ++ key.atTier Tier.assign (key.print depth) ++ "]"
      else key.print depth
    match kind with
    | .getter | .setter => kind.word ++ " " ++ keyText ++ value.printTail depth
    | _ =>
      if kind == .method && value.isFunction then
        value.printHead ++ keyText ++ value.printTail depth
      else keyText ++ ": " ++ value.atTier Tier.assign (value.print depth)
  | .short _ n => nameText n
  | .spread _ e => "..." ++ e.atTier Tier.assign (e.print depth)

/-- The properties of an object. -/
def Property.printList (depth : Nat) : List Property → List String
  | [] => []
  | p :: rest => p.print depth :: Property.printList depth rest

/-- A pattern. -/
def Pattern.print (depth : Nat) : Pattern → String
  | .target e => e.print depth
  | .array _ elements rest =>
    "[" ++ separated rest.isSome (Element.printList depth elements) ++
      Pattern.printRest depth rest ++ "]"
  | .object _ properties rest =>
    "\x7b" ++ separated rest.isSome (PatternProperty.printList depth properties) ++
      Pattern.printRest depth rest ++ "\x7d"

/-- What takes the rest, when there is something that does. -/
def Pattern.printRest (depth : Nat) : Option Pattern → String
  | none => ""
  | some p => "..." ++ p.print depth

/-- A pattern between parentheses and a space; nothing if there is none. -/
def Pattern.printParam (depth : Nat) : Option Pattern → String
  | none => ""
  | some p => "(" ++ p.print depth ++ ") "

/-- A parameter or an element of a pattern; a hole has no printed form. -/
def Element.print (depth : Nat) : Element → Option String
  | .hole => none
  | .bound _ target fallback =>
    some (target.print depth ++ Expr.printAfter " = " Tier.assign depth fallback)

/-- Parameters or elements of a pattern. -/
def Element.printList (depth : Nat) : List Element → List (Option String)
  | [] => []
  | e :: rest => e.print depth :: Element.printList depth rest

/-- A property of a pattern. -/
def PatternProperty.print (depth : Nat) : PatternProperty → String
  | ⟨_, key, computed, value, fallback, shorthand⟩ =>
    (if shorthand then ""
      else (if computed then "[" ++ key.atTier Tier.assign (key.print depth) ++ "]"
        else key.print depth) ++ ": ") ++
      value.print depth ++ Expr.printAfter " = " Tier.assign depth fallback

/-- The properties of a pattern. -/
def PatternProperty.printList (depth : Nat) : List PatternProperty → List (Option String)
  | [] => []
  | p :: rest => some (p.print depth) :: PatternProperty.printList depth rest

/-- A parameter list, in which a hole is an empty text. -/
def Params.print (depth : Nat) : Params → String
  | .missing => ""
  | .list _ items rest =>
    "(" ++ separated rest.isSome ((Element.printList depth items).map fun t => some (t.getD "")) ++
      Pattern.printRest depth rest ++ ")"

/-- The body of a function. -/
def Body.print (depth : Nat) : Body → String
  | .missing => ""
  | .block _ directives items =>
    braced depth (directives.map Directive.print ++ Stmt.printList (depth + 1) items)

/-- The parameters and the body of a function. -/
def Function.printTail (depth : Nat) : Function → String
  | ⟨_, _, params, body, _, _, _⟩ => Params.print depth params ++ " " ++ Body.print depth body

/-- The parameters and the body of a function that may be missing. -/
def Function.printTailOption (depth : Nat) : Option Function → String
  | none => ""
  | some f => f.printTail depth

/-- A function. -/
def Function.print (depth : Nat) : Function → String
  | ⟨_, name, params, body, async, generator, _⟩ =>
    (if async then "async " else "") ++ "function" ++ (if generator then "*" else "") ++
      printName name ++
      Params.print depth params ++ " " ++ Body.print depth body

/-- A class. -/
def Class.print (depth : Nat) : Class → String
  | ⟨_, name, superClass, body, decorators, _⟩ =>
    Decorator.printList depth decorators ++ "class" ++ printName name ++
      Expr.printAfter " extends " Tier.call depth superClass ++ " " ++
      braced depth (ClassElement.printList (depth + 1) body)

/-- An element of a class. -/
def ClassElement.print (depth : Nat) : ClassElement → String
  | .missing => ""
  | .method _ key computed static kind f decorators =>
    Decorator.printList depth decorators ++ (if static then "static " else "") ++
      (match kind with
        | .getter | .setter => kind.word ++ " "
        | _ => (f.map Function.printHead).getD "") ++
      (if computed then "[" ++ key.atTier Tier.assign (key.print depth) ++ "]"
        else key.print depth) ++
      Function.printTailOption depth f
  | .field _ key computed static accessor initializer decorators =>
    Decorator.printList depth decorators ++ (if static then "static " else "") ++
      (if accessor then "accessor " else "") ++
      (if computed then "[" ++ key.atTier Tier.assign (key.print depth) ++ "]"
        else key.print depth) ++
      Expr.printAfter " = " Tier.assign depth initializer ++ ";"
  | .staticBlock _ body _ => "static " ++ braced depth (Stmt.printList (depth + 1) body)

/-- The elements of a class. -/
def ClassElement.printList (depth : Nat) : List ClassElement → List String
  | [] => []
  | e :: rest => e.print depth :: ClassElement.printList depth rest

/-- A decorator. -/
def Decorator.print (depth : Nat) : Decorator → String
  | ⟨_, e⟩ => "@" ++ e.atTier Tier.call (e.print depth)

/-- Decorators before what they decorate. -/
def Decorator.printList (depth : Nat) : List Decorator → String
  | [] => ""
  | d :: rest => d.print depth ++ " " ++ Decorator.printList depth rest

/-- A block. -/
def Block.print (depth : Nat) : Block → String
  | ⟨_, body, _⟩ => braced depth (Stmt.printList (depth + 1) body)

/-- A block after some text; nothing if there is none. -/
def Block.printAfter (before : String) (depth : Nat) : Option Block → String
  | none => ""
  | some b => before ++ b.print depth

/-- A declaration of variables, without the semicolon. -/
def VarDecl.print (depth : Nat) : VarDecl → String
  | ⟨_, kind, list⟩ => kind.word ++ " " ++ listed (Declarator.printList depth list)

/-- One target of a declaration. -/
def Declarator.print (depth : Nat) : Declarator → String
  | ⟨_, target, initializer⟩ =>
    target.print depth ++ Expr.printAfter " = " Tier.assign depth initializer

/-- The targets of a declaration. -/
def Declarator.printList (depth : Nat) : List Declarator → List String
  | [] => []
  | d :: rest => d.print depth :: Declarator.printList depth rest

/-- A clause of a switch. -/
def CaseClause.print (depth : Nat) : CaseClause → String
  | ⟨_, test, consequent⟩ =>
    (if test.isSome then Expr.printAfter "case " Tier.comma depth test ++ ":" else "default:") ++
      indented depth (Stmt.printList (depth + 1) consequent)

/-- The clauses of a switch. -/
def CaseClause.printList (depth : Nat) : List CaseClause → List String
  | [] => []
  | c :: rest => c.print depth :: CaseClause.printList depth rest

/-- What handles an exception. -/
def CatchClause.print (depth : Nat) : CatchClause → String
  | ⟨_, param, body, _⟩ =>
    " catch " ++ Pattern.printParam depth param ++ braced depth (Stmt.printList (depth + 1) body)

/-- What handles an exception, when something does. -/
def CatchClause.printOption (depth : Nat) : Option CatchClause → String
  | none => ""
  | some c => c.print depth

/-- A node that may be missing, at the head of a loop. -/
def Node.printHead (depth : Nat) : Option Node → String
  | none => ""
  | some n => n.printPart true depth

/-- A statement at a depth of nesting. `inLoop` says whether it stands directly under a loop. -/
def Stmt.print (inLoop : Bool) (depth : Nat) : Stmt → String
  | .missing => ""
  | .expression _ e =>
    parenthesizedIf e.startsLikeStatement (e.atTier Tier.comma (e.print depth)) ++ ";"
  | .block b => Block.print depth b
  | .empty _ => ";"
  | .debugger _ => "debugger;"
  | .giveBack _ argument => "return" ++ Expr.printAfter " " Tier.comma depth argument ++ ";"
  | .labelled _ label body => nameText label ++ ": " ++ body.print false depth
  | .breakOff _ label => "break" ++ printName label ++ ";"
  | .carryOn _ label => "continue" ++ printName label ++ ";"
  | .branch _ test consequent alternate =>
    "if (" ++ test.atTier Tier.comma (test.print depth) ++ ") " ++
      consequent.asBody depth (consequent.print false (consequent.bodyDepth depth)) ++
      Stmt.printElse depth alternate
  | .switch _ discriminant cases _ =>
    "switch (" ++ discriminant.atTier Tier.comma (discriminant.print depth) ++ ") " ++
      braced depth (CaseClause.printList (depth + 1) cases)
  | .raise _ argument => "throw " ++ argument.atTier Tier.comma (argument.print depth) ++ ";"
  | .guarded _ b handler finalizer =>
    "try " ++ Block.print depth b ++ CatchClause.printOption depth handler ++
      Block.printAfter " finally " depth finalizer
  | .whileLoop _ test body =>
    "while (" ++ test.atTier Tier.comma (test.print depth) ++ ") " ++
      body.asBody depth (body.print false (body.bodyDepth depth))
  | .doWhile _ body test =>
    "do " ++ body.asBody depth (body.print false (body.bodyDepth depth)) ++
      " while (" ++ test.atTier Tier.comma (test.print depth) ++ ");"
  | .forLoop _ init test update body _ =>
    "for (" ++ Node.printHead depth init ++ ";" ++ Expr.printAfter " " Tier.comma depth test ++
      ";" ++
      Expr.printAfter " " Tier.comma depth update ++ ") " ++
      body.asBody depth (body.print true (body.bodyDepth depth))
  | .forIn _ left right body _ =>
    "for (" ++ left.printPart true depth ++ " in " ++ right.atTier Tier.comma (right.print depth) ++
      ") " ++
      body.asBody depth (body.print true (body.bodyDepth depth))
  | .forOf _ left right body await _ =>
    "for " ++ (if await then "await " else "") ++ "(" ++ left.printPart true depth ++ " of " ++
      right.atTier Tier.assign (right.print depth) ++ ") " ++
      body.asBody depth (body.print true (body.bodyDepth depth))
  | .declaration d => VarDecl.print depth d ++ if inLoop then "" else ";"
  | .function _ f => Function.print depth f
  | .classDecl _ c => Class.print depth c
  | .importDecl _ specifiers source attributes =>
    "import " ++
      (if specifiers.isEmpty then ""
        else listed (Node.printSpecifiers depth false specifiers) ++
          (if specifiers.any (·.isNamedImport) then "\x7d" else "") ++ " from ") ++
      source.print ++ printAttributes attributes ++ ";"
  | .exportNamed _ declared specifiers source attributes =>
    "export " ++
      if declared.isSome then Stmt.printOption depth declared
      else "\x7b" ++ listed (specifiers.map ExportSpecifier.print) ++ "\x7d" ++
        (match source with
          | some l => " from " ++ l.print ++ printAttributes attributes
          | none => "") ++ ";"
  | .exportDefault _ declared => "export default " ++ Node.printDefault depth declared
  | .exportAll _ exported source attributes =>
    "export *" ++ (match exported with
      | some n => " as " ++ n.text
      | none => "") ++ " from " ++ source.print ++ printAttributes attributes ++ ";"

/-- A statement that may be missing. -/
def Stmt.printOption (depth : Nat) : Option Stmt → String
  | none => ""
  | some s => s.print false depth

/-- The default of a module, if it is the declaration of a function or a class. -/
def Stmt.printDefault (depth : Nat) : Stmt → String
  | .function _ f => Function.print depth f
  | .classDecl _ c => Class.print depth c
  | _ => ""

/-- The default of a module: a function, a class or an expression. Any other node prints as
nothing. -/
def Node.printDefault (depth : Nat) : Node → String
  | .stmt s => Stmt.printDefault depth s
  | .expr e =>
    if e.isMissing then ""
    else (if e.startsLikeStatement then "(" ++ e.atTier Tier.comma (e.print depth) ++ ")"
      else e.atTier Tier.assign (e.print depth)) ++ ";"
  | _ => ""

/-- The other branch of a conditional; a conditional there needs no block. -/
def Stmt.printElse (depth : Nat) : Option Stmt → String
  | none => ""
  | some s =>
    " else " ++
      if s.isBranch then s.print false depth
      else s.asBody depth (s.print false (s.bodyDepth depth))

/-- Statements, one text for each. -/
def Stmt.printList (depth : Nat) : List Stmt → List String
  | [] => []
  | s :: rest => s.print false depth :: Stmt.printList depth rest

/-- A program: the interpreter line, then a line for each directive and statement. -/
def Program.print (depth : Nat) : Program → String
  | ⟨_, interpreter, directives, body, _, _⟩ =>
    (if interpreter.isEmpty then "" else "#!" ++ interpreter.toString ++ "\n") ++
      String.join ((directives.map Directive.print ++ Stmt.printList depth body).map (· ++ "\n"))

/-- A node where any node may stand. `atHead` says whether that is the head of a loop. -/
def Node.printPart (atHead : Bool) (depth : Nat) : Node → String
  | .program p => Program.print depth p
  | .stmt s => s.print atHead depth
  | .expr e => if atHead then e.atTier Tier.assign (e.print depth) else e.print depth
  | .pattern p => p.print depth
  | .property p => p.print depth
  | .element e => (e.print depth).getD ""
  | .patternProperty p => PatternProperty.print depth p
  | .params p => Params.print depth p
  | .body b => Body.print depth b
  | .classElement e => e.print depth
  | .decorator d => Decorator.print depth d
  | .declarator d => Declarator.print depth d
  | .caseClause c => CaseClause.print depth c
  | .importSpecifier s => s.print
  | .exportSpecifier s => s.print
  | .directive d => d.print
  | .templateElement _ | .catchClause _ | .importAttribute _ => ""

/-- What an import brings in. The brace that opens before the first named one is written unless
it is `opened`. -/
def Node.printSpecifiers (depth : Nat) (opened : Bool) : List Node → List String
  | [] => []
  | n :: rest =>
    ((if n.isNamedImport && !opened then "\x7b" else "") ++ n.printPart false depth) ::
      Node.printSpecifiers depth (opened || n.isNamedImport) rest

end

/-! ## Any node -/

/-- Why a tree has no printed form: it has a node of a type that is printed only as part of
another in a place of its own. -/
structure PrintFault where
  typeName : String

/-- The wording of a print fault. -/
def PrintFault.message (f : PrintFault) : String :=
  "gen: unexpected node type *ast." ++ f.typeName

namespace Node

/-- The fault of a node in a place of its own. -/
def ownFault? : Node → Option PrintFault
  | .templateElement _ => some ⟨"TemplateElement"⟩
  | .catchClause _ => some ⟨"CatchClause"⟩
  | .importAttribute _ => some ⟨"ImportAttribute"⟩
  | _ => none

/-- The children of a node in places that any node may take. -/
def freeParts : Node → List Node
  | .stmt (.importDecl _ specifiers _ _) => specifiers
  | .stmt (.forLoop _ init _ _ _ _) => init.toList
  | .stmt (.forIn _ left _ _ _) | .stmt (.forOf _ left _ _ _ _) => [left]
  | _ => []

/-- The first fault below a node. -/
def innerFault? (n : Node) : Option PrintFault :=
  n.freeParts.findSome? ownFault? <|> n.children.attach.findSome? fun ⟨c, _⟩ => c.innerFault?
termination_by sizeOf n
decreasing_by exact sizeOf_lt_of_mem_children ‹_›

/-- The printed form of any tree. -/
def print (n : Node) : Except PrintFault String :=
  match n.ownFault? <|> n.innerFault? with
  | some fault => .error fault
  | none => .ok (n.printPart false 0)

end Node

end EcmaStack

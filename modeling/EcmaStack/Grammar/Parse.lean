import EcmaStack.Grammar.Fault
import EcmaStack.Token.Scan
import EcmaStack.Tree.Basic

/-!
# Reading with one token in hand

`Parse` is how grammar rules read: from a state, with the flags of the surrounding region given,
to a result and a new state, or to the first fault. The state is the cursor, the token in hand,
the end of the token before it and the chain of open scopes. Flags are not part of the state: a
rule that changes them does so for the rules it calls (`within`), so leaving a region needs no
undoing.

A rule that may miss answers `none`; `attempt` then goes back to the token it started from. The
scopes are not put back with it: whoever opens a scope on trial abandons it on a miss
(`inTrialScope`).
-/

namespace EcmaStack

/-- A label in force, and whether it names a loop. -/
structure Label where
  name : String
  loop : Bool

/-- What the region being read allows. -/
structure Region where
  allowIn : Bool := true
  inIteration : Bool := false
  inSwitch : Bool := false
  inFunction : Bool := false
  inClass : Bool := false
  allowSuperCall : Bool := false
  allowSuperProperty : Bool := false
  allowNewTarget : Bool := false
  labels : List Label := []

namespace Region

/-- The region of a function body. Labels and loops do not reach into it. -/
def function (outer : Region) : Region :=
  { inFunction := true, allowNewTarget := true, inClass := outer.inClass }

/-- The region of an arrow function, which shares `return`, `super` and `new.target` with its
surroundings. -/
def arrow (outer : Region) : Region :=
  { inFunction := outer.inFunction, allowNewTarget := outer.allowNewTarget,
    inClass := outer.inClass,
    allowSuperCall := outer.allowSuperCall, allowSuperProperty := outer.allowSuperProperty }

/-- The region of a method body. -/
def method (outer : Region) (superCall : Bool) : Region :=
  { outer.function with allowSuperProperty := true, allowSuperCall := superCall }

/-- The region of a class body. -/
def classBody : Region :=
  { inClass := true }

/-- The region of a field's initializer. -/
def fieldInitializer : Region :=
  { inClass := true, allowSuperProperty := true, allowNewTarget := true }

/-- The region of a static block. -/
def staticBlock (outer : Region) : Region :=
  { outer.function with inFunction := false, allowSuperProperty := true }

/-- The label with a name, the innermost first. -/
def label? (r : Region) (name : String) : Option Label :=
  r.labels.find? (·.name == name)

end Region

/-- How a regular expression is to be compiled. -/
structure PatternOptions where
  ignoreCase : Bool
  multiline : Bool

/-- The options that flags ask for. -/
def PatternOptions.ofFlags (flags : String) : PatternOptions :=
  { ignoreCase := flags.toList.contains 'i', multiline := flags.toList.contains 'm' }

/-- What compiles the body of a regular expression, and says what is wrong with one that it
refuses. The grammar has none of its own: it reports what it is told. -/
abbrev PatternCompiler := PatternOptions → String → Option String

/-- What stays the same while a source is read, and the flags of the region. -/
structure Surroundings where
  source : Text
  module : Bool
  compiler : PatternCompiler
  region : Region

/-- Where reading stands, the scopes that are open there, and the number of the next scope to be
opened. -/
structure ParseState where
  cursor : Cursor
  token : Token
  previousEnd : Nat
  scopes : List Scope
  fresh : Nat := 0

/-- The state with one more scope open, inside those that are open. -/
def ParseState.enter (st : ParseState) (s : Scope) : ParseState :=
  { st with
    scopes := { s with serial := st.fresh, parent := st.scopes.head?.map (·.serial) } :: st.scopes
    fresh := st.fresh + 1 }

/-- A grammar rule. -/
def Parse (α : Type) : Type :=
  Surroundings → ParseState → Except ParseFault (α × ParseState)

namespace Parse

/-- Answer without reading. -/
def answer {α : Type} (a : α) : Parse α :=
  fun _ s => .ok (a, s)

/-- One rule after another. -/
def andThen {α β : Type} (p : Parse α) (f : α → Parse β) : Parse β :=
  fun e s =>
    match p e s with
    | .ok (a, t) => f a e t
    | .error fault => .error fault

instance : Monad Parse where
  pure := answer
  bind := andThen

/-- Report a fault at an offset. -/
def failAt {α : Type} (offset : Nat) (cause : SyntaxFault) : Parse α :=
  fun _ _ => .error ⟨offset, cause⟩

/-- The state. -/
def get : Parse ParseState :=
  fun _ s => .ok (s, s)

/-- Change the state. -/
def update (f : ParseState → ParseState) : Parse Unit :=
  fun _ s => .ok ((), f s)

/-- What surrounds this point. -/
def surroundings : Parse Surroundings :=
  fun e s => .ok (e, s)

/-- The flags of the region. -/
def region : Parse Region := do
  return (← surroundings).region

/-- Read with the region changed. -/
def within {α : Type} (change : Region → Region) (p : Parse α) : Parse α :=
  fun e s => p { e with region := change e.region } s

/-- Read with the operator `in` allowed or not. -/
def withIn {α : Type} (allow : Bool) (p : Parse α) : Parse α :=
  within (fun r => { r with allowIn := allow }) p

/-- The state with the cursor and the token in hand of another. What has been opened since is
abandoned, and its numbers are free again. -/
def goBack (s t : ParseState) : ParseState :=
  { s with scopes := t.scopes }

/-- Read a rule that may miss; on a miss, go back to where it started. -/
def attempt {α : Type} (p : Parse (Option α)) : Parse (Option α) :=
  fun e s =>
    match p e s with
    | .ok (some a, t) => .ok (some a, t)
    | .ok (none, t) => .ok (none, goBack s t)
    | .error fault => .error fault

/-! ## Tokens -/

/-- The token in hand. -/
def token : Parse Token := do
  return (← get).token

/-- The kind of the token in hand. -/
def kind : Parse Kind := do
  return (← token).kind

/-- Where the token in hand starts. -/
def offset : Parse Nat := do
  return (← token).start

/-- Take a token in hand. A malformed one is a fault. -/
def hold (t : Token) (c : Cursor) (previousEnd : Nat) : Parse Unit :=
  match t.fault with
  | some fault => failAt t.start (.lexical fault)
  | none => update fun s => { s with cursor := c, token := t, previousEnd }

/-- Go on to the next token. -/
def next : Parse Unit := do
  let s ← get
  let (t, c) := scanToken s.cursor
  hold t c s.token.stop

/-- The token after the one in hand, which may be malformed. -/
def peek : Parse Token := do
  return (scanToken (← get).cursor).1

/-- The two tokens after the one in hand. -/
def peekTwo : Parse (Token × Token) := do
  let (first, c) := scanToken (← get).cursor
  return (first, (scanToken c).1)

/-- Whether the token in hand is of a kind. -/
def isAt (k : Kind) : Parse Bool := do
  return (← kind) == k

/-- Whether the token in hand is a punctuator. -/
def atPunct (p : Punct) : Parse Bool :=
  isAt (.punct p)

/-- Whether the token in hand is a reserved word. -/
def atWord (k : Keyword) : Parse Bool :=
  isAt (.keyword k)

/-- Whether a token is the identifier with a name, written without escapes. -/
def isPlain (t : Token) (name : String) : Bool :=
  t.kind == .identifier && !t.escaped && t.name == name

/-- Whether the token in hand is a word that means something only here. -/
def atContextual (name : String) : Parse Bool := do
  return isPlain (← token) name

/-- What is wrong with a token that does not fit. -/
def unexpectedCause (t : Token) : SyntaxFault :=
  match t.kind with
  | .eof => .unexpectedEnd
  | .identifier =>
    if t.escaped && isReserved t.name then .escapedKeyword else .unexpectedIdentifier t.name
  | .number | .bigint => .unexpectedNumber
  | .string => .unexpectedString
  | .template | .templateHead => .unexpectedTemplate
  | .privateName => .unexpectedPrivateName t.name
  | .keyword k => .unexpectedKeyword k
  | k => .unexpectedToken k

/-- The token in hand does not fit. -/
def unexpected {α : Type} : Parse α := do
  let t ← token
  failAt t.start (unexpectedCause t)

/-- A fault at the token in hand. -/
def fail {α : Type} (cause : SyntaxFault) : Parse α := do
  failAt (← offset) cause

/-- Read a token of a kind and answer where it starts. -/
def expect (k : Kind) : Parse Nat := do
  let t ← token
  if t.kind == k then
    next
    return t.start
  else unexpected

/-- Read a punctuator. -/
def expectPunct (p : Punct) : Parse Nat :=
  expect (.punct p)

/-- Read a reserved word. -/
def expectWord (k : Keyword) : Parse Nat :=
  expect (.keyword k)

/-- Read a word that means something only here. -/
def expectContextual (name : String) : Parse Unit := do
  if ← atContextual name then next else unexpected

/-- Whether a statement may end before the token in hand. -/
def canEnd : Parse Bool := do
  let t ← token
  return t.kind == .punct .semicolon || t.kind == .punct .rightBrace || t.kind == .eof || t.newline

/-- The end of a statement: a semicolon, or a place where one may be left out. -/
def semicolon : Parse Unit := do
  if ← canEnd then
    if ← atPunct .semicolon then next
  else unexpected

/-- The range from an offset to the end of the last token read. -/
def spanFrom (start : Nat) : Parse Span := do
  return ⟨start, (← get).previousEnd⟩

/-- The range of a token. -/
def tokenSpan (t : Token) : Span :=
  ⟨t.start, t.stop⟩

/-- The source text of a token. -/
def literal (t : Token) : Parse Text := do
  let source := (← surroundings).source
  if t.start ≤ t.stop && t.stop ≤ source.width then return source.slice t.start t.stop
  else failAt t.start (.breakdown .tokenRange)

/-- The source text between the quotes of a token. -/
def unquoted (t : Token) : Parse Text := do
  let raw ← literal t
  if t.start + 2 ≤ t.stop then return (raw.drop 1).dropLast
  else failAt t.start (.breakdown .tokenRange)

/-! ## Repetition -/

/-- Whether a repetition goes on. -/
inductive Turn (σ β : Type) where
  | again (s : σ)
  | done (b : β)

/-- Repeat a step, at most as often as the fuel says. -/
def repeatFrom {σ β : Type} (step : σ → Parse (Turn σ β)) : Nat → σ → Parse β
  | 0, _ => fail (.breakdown .exhausted)
  | fuel + 1, s => do
    match ← step s with
    | .again t => repeatFrom step fuel t
    | .done b => return b

/-- Repeat a step. Each step but the last reads at least one token, and a source has no more
tokens than pieces. -/
def repeating {σ β : Type} (init : σ) (step : σ → Parse (Turn σ β)) : Parse β := do
  repeatFrom step ((← surroundings).source.length + 2) init

/-- Items up to a token of a kind, which is left in hand. -/
def itemsUntil {α : Type} (stop : Kind → Bool) (item : Parse α) : Parse (List α) :=
  repeating [] fun items => do
    if stop (← kind) then return .done items.reverse
    else return .again ((← item) :: items)

/-- Items with commas between them up to a closing punctuator, which is left in hand. A comma
may stand after the last item. -/
def commaList {α : Type} (close : Punct) (item : Parse α) : Parse (List α) :=
  repeating [] fun items => do
    if ← atPunct close then return .done items.reverse
    let x ← item
    unless ← atPunct close do
      let _ ← expectPunct .comma
    return .again (x :: items)

/-- What a rule reads behind a token, if the test for that token holds. -/
def behind {α : Type} (sign : Parse Bool) (p : Parse α) : Parse (Option α) := do
  if ← sign then
    next
    return some (← p)
  return none

/-! ## Scopes -/

/-- Whether the nearest function is a generator. -/
def inGenerator : Parse Bool := do
  return Scope.inGenerator (← get).scopes

/-- Whether the nearest function is asynchronous. -/
def inAsync : Parse Bool := do
  return Scope.inAsync (← get).scopes

/-- Whether a name is reserved by the function around it. -/
def isReservedHere (name : String) : Parse Bool := do
  return (name == "yield" && (← inGenerator)) || (name == "await" && (← inAsync))

/-- Open a scope. -/
def openScope (s : Scope) : Parse Unit :=
  update (·.enter s)

/-- How many scopes are open. -/
def scopeDepth : Parse Nat := do
  return (← get).scopes.length

/-- Close the scope that was opened when `depth` scopes were open. It must be the innermost. -/
def closeScope (depth : Nat) : Parse (Option Scope) := do
  let s ← get
  if s.scopes.length == depth + 1 then
    update fun st => { st with scopes := st.scopes.tail }
    return s.scopes.head?
  else fail (.breakdown .scopeOrder)

/-- Abandon the scope that was opened when `depth` scopes were open, and every scope opened
after it. -/
def abandonScope (depth : Nat) : Parse Unit :=
  update fun st => { st with scopes := st.scopes.drop (st.scopes.length - depth) }

/-- Read inside a new scope and answer the scope as it is at the end. -/
def inScope {α : Type} (s : Scope) (p : Parse α) : Parse (α × Option Scope) := do
  let depth ← scopeDepth
  openScope s
  let a ← p
  return (a, ← closeScope depth)

/-- Read a rule that may miss inside a new scope, which is abandoned on a miss. -/
def inTrialScope {α : Type} (s : Scope) (p : Parse (Option α)) :
    Parse (Option (α × Option Scope)) := do
  let depth ← scopeDepth
  openScope s
  match ← p with
  | some a => return some (a, ← closeScope depth)
  | none =>
    abandonScope depth
    return none

/-- Read inside a new block scope. -/
def inBlock {α : Type} (p : Parse α) : Parse (α × Option Scope) :=
  inScope { kind := .block } p

/-- Declare a variable; a conflict is reported at the name. -/
def declareAt (name : Name) (site : Nat) (kind : DeclKind) : Parse Unit := do
  let s ← get
  match Scope.declareIn s.scopes { name := name.text, kind, site := some site } with
  | .ok scopes => update fun st => { st with scopes }
  | .error fault => failAt name.span.offset (.declaration fault)

/-- Declare a name at the place where it is written. -/
def declare (name : Name) (kind : DeclKind) : Parse Unit :=
  declareAt name name.span.offset kind

/-- Declare names one after the other. -/
def declareAll (kind : DeclKind) : List Name → Parse Unit
  | [] => pure ()
  | n :: rest => do
    declare n kind
    declareAll kind rest

end Parse

end EcmaStack

/-!
## Goals

The grammar's recursive positions. A rule reads the parts of its phrase that may hold any
expression, pattern or statement by asking for a **goal**, and `Rules` is whoever answers. The
rules themselves are then plain definitions, and the knot is tied in one place, with fuel.
-/

namespace EcmaStack

/-- What can be asked for, with the type of what is read. -/
inductive Goal : Type → Type where
  /-- A comma sequence. -/
  | expression : Goal Expr
  | assignment : Goal Expr
  /-- Operators that bind at least this tightly. -/
  | binary (least : Nat) : Goal Expr
  | unary : Goal Expr
  | leftHandSide : Goal Expr
  | construct : Goal Expr
  /-- Something that receives a value; with `binding`, only what a declaration allows. -/
  | target (binding : Bool) : Goal (Option Pattern)
  | statement : Goal Stmt
  /-- A statement or a declaration. -/
  | item : Goal Stmt

/-- Whoever answers goals. -/
structure Rules where
  read : {α : Type} → Goal α → Parse α

namespace Rules

/-- A comma sequence. -/
def expression (r : Rules) : Parse Expr := r.read .expression

/-- An assignment expression. -/
def assignment (r : Rules) : Parse Expr := r.read .assignment

/-- Operators that bind at least this tightly. -/
def binary (r : Rules) (least : Nat) : Parse Expr := r.read (.binary least)

/-- A unary expression. -/
def unary (r : Rules) : Parse Expr := r.read .unary

/-- A left-hand side expression. -/
def leftHandSide (r : Rules) : Parse Expr := r.read .leftHandSide

/-- An expression that starts with `new`. -/
def construct (r : Rules) : Parse Expr := r.read .construct

/-- Something that receives a value. -/
def target (r : Rules) (binding : Bool) : Parse (Option Pattern) := r.read (.target binding)

/-- A statement. -/
def statement (r : Rules) : Parse Stmt := r.read .statement

/-- A statement or a declaration. -/
def item (r : Rules) : Parse Stmt := r.read .item

end Rules

end EcmaStack

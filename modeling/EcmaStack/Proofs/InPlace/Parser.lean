import EcmaStack.Grammar.Program

/-!
# A parser in place

A rule of the grammar is given the flags of the region it is read in, and an
attempt goes back by itself. A parser has one stack of contexts and one cursor,
and its rules move them as they go: a rule that opens a context closes it, one
that changes a flag puts the flag back, and one that looked ahead for nothing
rewinds, at each place where it gives up. `InPlace` is how such rules are
written. Rules that read no goal change no context: they are the grammar's own,
lifted.
-/

namespace EcmaStack

/-- The context in force, and the contexts around it, the innermost first. -/
structure Contexts where
  context : Region
  outer : List Region

/-- A parser on its way through a source: where it stands, which scopes are open
and which contexts. -/
structure Parser extends ParseState, Contexts where
  source : Text
  module : Bool
  compiler : PatternCompiler

/-- What surrounds the point where a parser stands. -/
def Parser.surroundings (P : Parser) : Surroundings :=
  { source := P.source, module := P.module, compiler := P.compiler, region := P.context }

/-- The parser after reading from its state to another, in the same context. -/
def Parser.movedTo (P : Parser) (t : ParseState) : Parser :=
  { P with toParseState := t }

/-- What a rewind goes back to. -/
structure Mark where
  cursor : Cursor
  token : Token
  previousEnd : Nat
  fresh : Nat

/-- The mark of a state. -/
def ParseState.mark (s : ParseState) : Mark :=
  { cursor := s.cursor, token := s.token, previousEnd := s.previousEnd, fresh := s.fresh }

/-- The state with its cursor and its token in hand put back to a mark. The
scopes that are open stay open. -/
def ParseState.rewound (s : ParseState) (m : Mark) : ParseState :=
  { cursor := m.cursor, token := m.token, previousEnd := m.previousEnd,
    fresh := m.fresh, scopes := s.scopes }

/-- A rule that moves a parser. -/
def InPlace (α : Type) : Type :=
  Parser → Except ParseFault (α × Parser)

namespace InPlace

open Parse (Turn)

variable {α β σ : Type}

/-- Answer, and leave the parser as it is. -/
def answer (a : α) : InPlace α :=
  fun P => .ok (a, P)

/-- One rule after another. -/
def andThen (m : InPlace α) (k : α → InPlace β) : InPlace β :=
  fun P =>
    match m P with
    | .ok (a, Q) => k a Q
    | .error fault => .error fault

/-- Rules one after the other, the second at the state that the first has left. A fault
ends both. -/
instance : Monad InPlace where
  pure := answer
  bind := andThen

/-- A rule of the grammar, read in the context in force. -/
def lift (p : Parse α) : InPlace α :=
  fun P =>
    match p P.surroundings P.toParseState with
    | .ok (a, t) => .ok (a, P.movedTo t)
    | .error fault => .error fault

/-- A rule that touches no context is used as the grammar has it. -/
instance : MonadLift Parse InPlace :=
  ⟨lift⟩

/-! ## Contexts -/

/-- The context in force. -/
def context : InPlace Region :=
  fun P => .ok (P.context, P)

/-- Change the context in force. -/
def changeContext (f : Region → Region) : InPlace Unit :=
  fun P => .ok ((), { P with context := f P.context })

/-- Open a context in which nothing is allowed but the operator `in`. -/
def openContext : InPlace Unit :=
  fun P => .ok ((), { P with context := {}, outer := P.context :: P.outer })

/-- Open the context of a function body. Labels, loops and switches do not
reach into it. An arrow function returns, and uses `super` and `new.target`, as
what surrounds it does. -/
def openFunctionContext (arrow : Bool) : InPlace Unit := do
  let around ← context
  openContext
  changeContext fun c =>
    { c with inFunction := true, allowNewTarget := true, inClass := around.inClass }
  if arrow then
    changeContext fun c =>
      { c with
        inFunction := around.inFunction
        allowNewTarget := around.allowNewTarget
        allowSuperCall := around.allowSuperCall
        allowSuperProperty := around.allowSuperProperty }

/-- Close the context in force. There must be one around it. -/
def closeContext : InPlace Unit :=
  fun P =>
    match P.outer with
    | c :: rest => .ok ((), { P with context := c, outer := rest })
    | [] => .error ⟨P.token.start, .breakdown .scopeOrder⟩

/-- Allow the operator `in` or not, and answer what puts the flag back. -/
def setAllowIn (allow : Bool) : InPlace (InPlace Unit) := do
  let before := (← context).allowIn
  changeContext fun c => { c with allowIn := allow }
  return changeContext fun c => { c with allowIn := before }

/-! ## Marks -/

/-- Mark where the parser stands. -/
def mark : InPlace Mark :=
  fun P => .ok (P.toParseState.mark, P)

/-- Go back to a mark. -/
def rewind (m : Mark) : InPlace Unit :=
  fun P => .ok ((), P.movedTo (P.toParseState.rewound m))

/-! ## Repetition -/

/-- Repeat a step, at most as often as the fuel says. -/
def repeatFrom (step : σ → InPlace (Turn σ β)) : Nat → σ → InPlace β
  | 0, _ => Parse.fail (.breakdown .exhausted)
  | fuel + 1, s => do
    match ← step s with
    | .again t => repeatFrom step fuel t
    | .done b => return b

/-- Repeat a step. -/
def repeating (init : σ) (step : σ → InPlace (Turn σ β)) : InPlace β := do
  repeatFrom step ((← Parse.surroundings).source.length + 2) init

/-- Items up to a token of a kind, which is left in hand. -/
def itemsUntil (stop : Kind → Bool) (item : InPlace α) : InPlace (List α) :=
  repeating [] fun items => do
    if stop (← Parse.kind) then return .done items.reverse
    else return .again ((← item) :: items)

/-- Items with commas between them up to a closing punctuator, which is left in
hand. -/
def commaList (close : Punct) (item : InPlace α) : InPlace (List α) :=
  repeating [] fun items => do
    if ← Parse.atPunct close then return .done items.reverse
    let x ← item
    unless ← Parse.atPunct close do
      let _ ← Parse.expectPunct .comma
    return .again (x :: items)

/-- What a rule reads behind a token, if the test for that token holds. -/
def behind (sign : Parse Bool) (p : InPlace α) : InPlace (Option α) := do
  if ← sign then
    Parse.next
    return some (← p)
  return none

/-! ## Goals -/

/-- Whoever answers goals in place. -/
structure Rules where
  read : {α : Type} → Goal α → InPlace α

namespace Rules

/-- A comma sequence. -/
def expression (r : Rules) : InPlace Expr := r.read .expression

/-- An assignment expression. -/
def assignment (r : Rules) : InPlace Expr := r.read .assignment

/-- Operators that bind at least this tightly. -/
def binary (r : Rules) (least : Nat) : InPlace Expr := r.read (.binary least)

/-- A unary expression. -/
def unary (r : Rules) : InPlace Expr := r.read .unary

/-- A left-hand side expression. -/
def leftHandSide (r : Rules) : InPlace Expr := r.read .leftHandSide

/-- An expression that starts with `new`. -/
def construct (r : Rules) : InPlace Expr := r.read .construct

/-- Something that receives a value. -/
def target (r : Rules) (binding : Bool) : InPlace (Option Pattern) := r.read (.target binding)

/-- A statement. -/
def statement (r : Rules) : InPlace Stmt := r.read .statement

/-- A statement or a declaration. -/
def item (r : Rules) : InPlace Stmt := r.read .item

end Rules

end InPlace

end EcmaStack

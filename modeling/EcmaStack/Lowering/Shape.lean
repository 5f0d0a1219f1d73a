import EcmaStack.Lowering.CodeSite
import EcmaStack.Tree.Basic
import EcmaStack.Tree.Node

/-!
# Shapes of code

The code of operators, literals and statements, put together from the code of
their parts, and the code that links a module with others.
-/

namespace EcmaStack

/-! ## Operators -/

/-- The operation of a binary operator. -/
def Kind.binaryOpcode? : Kind → Option Opcode
  | .punct .plus => some .add
  | .punct .minus => some .sub
  | .punct .star => some .mul
  | .punct .slash => some .div
  | .punct .percent => some .mod
  | .punct .power => some .pow
  | .punct .ampersand => some .bitAnd
  | .punct .bar => some .bitOr
  | .punct .caret => some .bitXor
  | .punct .shiftLeft => some .shl
  | .punct .shiftRight => some .shr
  | .punct .shiftRightZero => some .ushr
  | .punct .equal => some .equal
  | .punct .notEqual => some .notEqual
  | .punct .strictEqual => some .strictEqual
  | .punct .strictNotEqual => some .strictNotEqual
  | .punct .less => some .less
  | .punct .greater => some .greater
  | .punct .lessEqual => some .lessEqual
  | .punct .greaterEqual => some .greaterEqual
  | .keyword .inWord => some .isIn
  | .keyword .instanceofWord => some .instanceOf
  | _ => none

/-- The operation of a unary operator. -/
def Kind.unaryOpcode? : Kind → Option Opcode
  | .punct .bang => some .logicalNot
  | .punct .tilde => some .bitNot
  | .punct .plus => some .plus
  | .punct .minus => some .negate
  | .keyword .typeofWord => some .typeOf
  | .keyword .voidWord => some .void
  | _ => none

/-- The jump by which a logical operator passes over its right operand. -/
def Kind.shortCircuit? : Kind → Option Opcode
  | .punct .logicalAnd => some .jumpFalse
  | .punct .logicalOr => some .jumpTrue
  | .punct .coalesce => some .jumpNotNull
  | _ => none

/-- What makes the object of a function. -/
def functionOpcode (async generator : Bool) : Opcode :=
  match async, generator with
  | true, true => .pushAsyncGenerator
  | false, true => .pushGenerator
  | true, false => .pushAsyncFunction
  | false, false => .pushFunction

/-! ## Shapes of statements -/

/-- Whether a statement opens its own frames for the labels on it. -/
def Stmt.takesLabels : Stmt → Bool
  | .labelled _ _ _ | .whileLoop _ _ _ | .doWhile _ _ _ | .forLoop _ _ _ _ _ _ | .forIn _ _ _ _ _
  | .forOf _ _ _ _ _ _ | .switch _ _ _ _ => true
  | _ => false

/-- A template: the first text, then each expression and the text after it joined on. -/
def templateCode : List TemplateElement → List Code → Code
  | [], _ => Code.string ""
  | q :: quasis, expressions => Code.string q.cooked ++ joined quasis expressions
where
  joined : List TemplateElement → List Code → Code
    | _, [] => []
    | [], e :: rest => e ++ Code.op .concat ++ joined [] rest
    | q :: quasis, e :: rest =>
      e ++ Code.op .concat ++ Code.string q.cooked ++ Code.op .concat ++ joined quasis rest

/-- An array of what is appended to it. -/
def arrayCode (items : List Code) : Code :=
  Code.op .pushArray ++ items.flatMap (· ++ Code.op .append)

/-- A hole, which only makes an array longer. -/
def holeCode : Code :=
  Code.pick 1 ++ Code.string "length" ++ Code.pick 2 ++ Code.string "length" ++ Code.op .getField ++
    Code.op .inc ++
    Code.op .setField ++ Code.op .pop

/-- Everything that another iterator yields, one value at a time. -/
def delegateCode (async : Bool) : Code :=
  Code.op (if async then .asyncIterator else .iterator) ++
    Code.repeated (Code.op (if async then .awaitNext else .next)) .jumpTrue (Code.op .yield ++
      Code.op .pop) ++
    Code.op .pop ++ Code.sink 1 ++ Code.op .pop

/-- A turn of a loop, inside frames for `continue`. -/
def turnCode (labels : List String) (body : Code) : Code :=
  Code.framed .pushContinueLabel (labels ++ [""]) body

/-- A loop or a switch, inside frames for `break`. -/
def breakable (labels : List String) (body : Code) : Code :=
  Code.framed .pushBreakLabel (labels ++ [""]) body

/-- A loop with a test before each turn. -/
def whileCode (test turn : Code) : Code :=
  Code.repeated test .jumpFalse turn ++ Code.op .pop

/-- A loop with a test after each turn. -/
def doWhileCode (turn test : Code) : Code :=
  Code.repeated (turn ++ test) .jumpFalse [] ++ Code.op .pop

/-- A loop that may have no test. -/
def forCode (test : Option Code) (turn : Code) : Code :=
  match test with
  | some test => whileCode test turn
  | none => Code.forever turn

/-- A loop over what the iterator on top of the stack yields. -/
def eachCode (advance : Opcode) (turn : Code) : Code :=
  Code.repeated (Code.op advance) .jumpTrue turn ++ Code.drop 2

/-- The tests of a switch. Each clause comes with the offset of its body among the bodies; after
the last test the machine goes to the default. -/
def dispatch (fallback : Nat) : List (Option Code × Nat) → Code
  | [] => Code.branch .jump (.ahead fallback)
  | (none, _) :: rest => dispatch fallback rest
  | (some test, body) :: rest =>
    let others := Code.op .pop ++ dispatch fallback rest
    Code.pick 1 ++ test ++ Code.op .strictEqual ++
      Code.bypassed .jumpFalse (Code.op .pop ++ Code.branch .jump (.ahead (others.size + body))) ++
        others

/-- The offset at which each of several fragments stands, one after the other. -/
def offsetsFrom : Nat → List Code → List Nat
  | _, [] => []
  | start, c :: rest => start :: offsetsFrom (start + c.size) rest

theorem length_offsetsFrom (start : Nat) (bodies : List Code) :
    (offsetsFrom start bodies).length = bodies.length := by
  induction bodies generalizing start with
  | nil => rfl
  | cons b rest ih => exact congrArg Nat.succ (ih _)

/-- A switch: the tests, then the bodies, each of which goes on into the next. -/
def switchCode (discriminant : Code) (tests : List (Option Code)) (bodies : List Code) : Lowering :=
  let clauses := tests.zip (offsetsFrom 0 bodies)
  let all : Code := bodies.flatten
  match clauses.filter (·.1.isNone) with
  | [] => .ok (discriminant ++ dispatch all.size clauses ++ all ++ Code.op .pop)
  | [(_, body)] => .ok (discriminant ++ dispatch body clauses ++ all ++ Code.op .pop)
  | _ => .error .repeatedDefault

/-- A protected block with its handler and its finalizer. -/
def tryCode (block : Code) (handler finalizer : Option Code) : Code :=
  let caught := (handler.map (· ++ Code.op .tryEnd)).getD []
  let block := block ++ Code.op .tryEnd ++ Code.branch .jump (.ahead caught.size)
  let catchReach := if handler.isSome then .ahead block.size else .absent
  let finallyReach := if finalizer.isSome then .ahead (block.size + caught.size + Code.jumpSize)
    else .absent
  [⟨.tryBegin, [.address catchReach, .address finallyReach]⟩] ++ block ++ caught ++
    (finalizer.map fun f => Code.bypassed .jump (f ++ Code.op .tryEnd)).getD []

/-- A property read off the value on top. -/
def propertyCode (key fallback bind : Code) : Code :=
  Code.pick 1 ++ key ++ Code.op .getField ++ fallback ++ bind

/-- A property read off the value below the list of keys read so far, to which its key is added. -/
def listedPropertyCode (key fallback bind : Code) : Code :=
  Code.pick 2 ++ key ++ Code.pick 3 ++ Code.pick 2 ++ Code.op .append ++ Code.op .pop ++
    Code.op .getField ++
    fallback ++ bind

/-! ## Imports and exports -/

/-- A module's names, with the attributes asked for. -/
def importCode (source : StringLiteral) (attributes : List ImportAttribute) : Code :=
  Code.text .importModule source.value ++
    attributes.flatMap fun a => Code.string a.key ++ Code.string a.value.value ++ Code.op .assert

/-- Store what an import brings in. -/
def ImportSpecifier.lower : ImportSpecifier → Code
  | .named _ imported inner =>
    Code.pick 1 ++ Code.string imported.text ++ Code.op .getField ++ Code.text .store inner.text ++
      Code.op .pop
  | .standard _ inner =>
    Code.pick 1 ++ Code.string "default" ++ Code.op .getField ++
      Code.text .store (nameText inner) ++ Code.op .pop
  | .whole _ inner => Code.pick 1 ++ Code.text .store (nameText inner) ++ Code.op .pop

/-- Store everything an import brings in. Only an import specifier can be stored. -/
def Node.lowerSpecifiers : List Node → Lowering
  | [] => .ok []
  | .importSpecifier s :: rest => do return s.lower ++ (← Node.lowerSpecifiers rest)
  | n :: _ => refuse n.span .importSpecifier

/-- Names made visible to other modules, of this module or passed on from another. -/
def exportCode (specifiers : List ExportSpecifier) (source : Option StringLiteral)
    (attributes : List ImportAttribute) : Code :=
  match source with
  | none =>
    specifiers.flatMap fun s => Code.text .load (nameText s.inner) ++
      Code.text .exportName (nameText s.exported)
  | some source =>
    importCode source attributes ++
      (specifiers.flatMap fun s =>
        Code.pick 1 ++ Code.string (nameText s.inner) ++ Code.op .getField ++
        Code.text .exportName (nameText s.exported)) ++
      Code.op .pop

/-- The names a declaration makes. -/
def Stmt.declaredNames : Stmt → List String
  | .declaration ⟨_, _, list⟩ => list.flatMap fun d => d.target.boundNames.map Name.text
  | .function _ f => (f.name.map Name.text).toList
  | .classDecl _ c => (c.name.map Name.text).toList
  | _ => []

end EcmaStack

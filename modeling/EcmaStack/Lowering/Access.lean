import EcmaStack.Lowering.CodeSite

/-!
# Keys, members and targets

How the properties of objects are read, called and removed, and what can be assigned to.
-/

namespace EcmaStack

/-! ## Keys and members -/

/-- A number on the stack. -/
def numberCode (x : Binary64) : Code :=
  if x.isNaN then Code.op .pushNan
  else if x.isInfinite && !x.isNegative then Code.op .pushInfinity
  else [⟨.pushNumber, [.number x]⟩]

/-- A key that is not computed. -/
def Expr.plainKey (e : Expr) : Lowering :=
  match e with
  | .number _ _ value => .ok (numberCode value)
  | .bigint _ _ value => .ok (Code.string (integerText value))
  | e =>
    match e.keyText? with
    | some name => .ok (Code.string name)
    | none => refuse e.span .propertyKey

/-- A key, from its value where it is computed. -/
def Expr.asKey (e : Expr) (computed : Bool) (value : Lowering) : Lowering :=
  if computed then value else e.plainKey

/-- The name a key gives to a function. -/
def Expr.keyUse (e : Expr) (computed : Bool) : Use :=
  if computed then .value else .named (e.keyText?.getD [])

/-- Whether a key is a private name. -/
def Expr.isPrivateKey (e : Expr) (computed : Bool) : Bool :=
  e.isPrivateName && !computed

/-- Whether an expression is `super`. -/
def Expr.isSuper : Expr → Bool
  | .superRef _ => true
  | _ => false

/-- A member of an object: what is known of it, the code of the object for a use, and the code
of the key. -/
structure Member where
  ofSuper : Bool
  isPrivate : Bool
  optional : Bool
  object : Use → Lowering
  key : Lowering

/-- The member of an object under a property. -/
def Member.of (base property : Expr) (computed optional : Bool) (object : Use → Lowering)
    (value : Lowering) : Member :=
  ⟨base.isSuper, property.isPrivateKey computed, optional, object, property.asKey computed value⟩

/-- A jump out of the chain for a missing object. -/
def optionalExit (optional : Bool) : Code :=
  if optional then Code.branch .jumpNull .exit else []

/-- What reads a field. -/
def Member.getter (m : Member) : Opcode :=
  if m.isPrivate then .getPrivateField else .getField

/-- The value of a member, as a link of a chain. -/
def Member.read (m : Member) : Lowering := do
  if m.ofSuper then return (← m.key) ++ Code.op .getSuperField
  let object ← m.object .link
  let key ← m.key
  return object ++ optionalExit m.optional ++ key ++ Code.op m.getter

/-- Remove a member. -/
def Member.remove (m : Member) (span : Span) : Lowering := do
  if m.ofSuper || m.isPrivate then refuse span .deletion
  else
    let object ← m.object .link
    let key ← m.key
    return Code.sealed (object ++ optionalExit m.optional ++ key ++ Code.op .removeField)

/-- Leave the chain with `undefined` in place of so many values unless the value on top is there. -/
def unlessMissing (values : Nat) : Code :=
  Code.bypassed .jumpNotNull (Code.drop values ++ Code.op .pushUndefined ++ Code.branch .jump .exit)

/-- A call of a member, with what is appended to the array of arguments. `direct` tells that no
parentheses stand around the member, so that the chain goes on through it. -/
def Member.call (m : Member) (direct optional : Bool) (s : CodeSite) (span : Span)
    (items : Lowering) :
    Lowering := do
  if m.ofSuper then
    let key ← m.key
    let arguments := Code.op .pushArray ++ (← items)
    let guard := if optional then
        Code.pick 1 ++ Code.op .getSuperField ++ unlessMissing 2 ++ Code.op .pop
      else []
    return key ++ guard ++ arguments ++ s.placed .superMemberCall span
  let object ← m.object (if direct then .link else .value)
  let object := object ++ optionalExit (m.optional && direct)
  let key ← m.key
  let arguments := Code.op .pushArray ++ (← items)
  if m.isPrivate && !optional then return object ++ key ++ arguments ++ s.placed .privateCall span
  return object ++ Code.pick 1 ++ key ++ Code.op m.getter ++
    (if optional then unlessMissing 2 else []) ++
    arguments ++ s.placed .memberCall span

/-- A template tagged by a member. -/
def Member.tag (m : Member) (s : CodeSite) (span : Span) (parts : Lowering) : Lowering := do
  if m.ofSuper then return (← m.key) ++ (← parts) ++ s.placed .superMemberTag span
  let object ← m.object .value
  let key ← m.key
  let parts ← parts
  if m.isPrivate then return object ++ key ++ parts ++ s.placed .privateTag span
  return object ++ Code.pick 1 ++ key ++ Code.op .getField ++ parts ++ s.placed .memberTag span

/-! ## Names and targets -/

/-- The name a function or class goes by: its own, or the one its use has for it. -/
def nameFor (own : Option Name) (use : Use) : Text :=
  (own.map fun n => Text.ofString n.text).getD use.name

/-- Whether an expression is a call of `eval` as it stands. -/
def Expr.isEval : Expr → Bool
  | .identifier n => n.text == "eval"
  | _ => false

/-- What the value of a declared or assigned pattern is used for. -/
def Pattern.use : Pattern → Use
  | .target (.identifier n) => .named n.text
  | _ => .value

/-- Whether a pattern takes a value apart. -/
def Pattern.isDestructuring : Pattern → Bool
  | .target _ => false
  | _ => true

/-- What is assigned to: a variable, or a member whose object and key are on the stack. -/
inductive Target where
  | binding (name : String)
  | superField
  | field
  | privateField

namespace Target

/-- How many values the target has on the stack. -/
def depth : Target → Nat
  | binding _ => 0
  | superField => 1
  | field | privateField => 2

/-- What a value bound to the target is used for. -/
def use : Target → Use
  | binding name => .named name
  | _ => .value

/-- Read the target, which stays on the stack. -/
def get : Target → Code
  | binding name => Code.text .load name
  | superField => Code.pick 1 ++ Code.op .getSuperField
  | field => Code.pick 2 ++ Code.pick 2 ++ Code.op .getField
  | privateField => Code.pick 2 ++ Code.pick 2 ++ Code.op .getPrivateField

/-- Store the top value, which stays, and drop the target. -/
def set : Target → Code
  | binding name => Code.text .store name
  | superField => Code.op .setSuperField
  | field => Code.op .setField
  | privateField => Code.op .setPrivateField

/-- Store the top value and drop it: the value stands below the target's own values. -/
def bind (t : Target) : Code :=
  Code.pick (t.depth + 1) ++ t.set ++ Code.drop 2

end Target

/-- A target with the code that puts its values on the stack. -/
structure Reference where
  target : Target
  code : Code

/-- A member as a target. -/
def Member.reference (m : Member) : Except WriteFault Reference := do
  if m.ofSuper then return ⟨.superField, ← m.key⟩
  let object ← m.object .value
  let key ← m.key
  return ⟨if m.isPrivate then .privateField else .field, object ++ key⟩

/-- Change a target by one, before or after its value is taken. -/
def Reference.update (r : Reference) (up before : Bool) : Code :=
  if before then r.code ++ r.target.get ++ Code.op (if up then .inc else .dec) ++ r.target.set
  else r.code ++ r.target.get ++ Code.op (if up then .deferInc else .deferDec) ++
    Code.sink (r.target.depth + 1) ++ r.target.set ++ Code.op .pop

/-- Assign unless the present value decides: then it is the result, and the target is dropped. -/
def Reference.assignUnless (r : Reference) (decided : Opcode) (value : Code) : Code :=
  let keep : Code :=
    if r.target.depth == 0 then [] else Code.sink r.target.depth ++ Code.drop r.target.depth
  r.code ++ r.target.get ++
    Code.bypassed decided (Code.op .pop ++ value ++ r.target.set ++
      Code.branch .jump (.ahead keep.size)) ++ keep

end EcmaStack

/-!
## The plan of a class

A class is made in parts: the constructor, which also prepares every instance; the methods on
the prototype and on the class; and what runs once when the class exists. Here each element of a
class finds its part.
-/

namespace EcmaStack

/-! What a decorator is told it decorates. -/

/-- The number that stands for a class. -/
def classDecorator : Nat := 0

/-- The number that stands for a method. -/
def methodDecorator : PropertyKind → Nat
  | .getter => 2
  | .setter => 3
  | _ => 1

/-- The number that stands for a field. -/
def fieldDecorator (accessor : Bool) : Nat :=
  if accessor then 5 else 4

/-- What puts a method in its place. -/
def methodOpcode (isPrivate : Bool) : PropertyKind → Opcode
  | .getter => if isPrivate then .defPrivateGetter else .setGetter
  | .setter => if isPrivate then .defPrivateSetter else .setSetter
  | _ => if isPrivate then .defPrivateMethod else .setMethod

/-- What puts a field in its place. -/
def fieldOpcode (isPrivate accessor : Bool) : Opcode :=
  match accessor, isPrivate with
  | true, true => .initPrivateAccessor
  | true, false => .initAccessor
  | false, true => .initPrivateField
  | false, false => .initField

namespace ClassElement

/-- Whether an element is a method other than the constructor. -/
def isMethod : ClassElement → Bool
  | .method _ _ _ _ kind _ _ => kind != .constructor
  | _ => false

/-- Whether an element belongs to the class itself. -/
def isStatic : ClassElement → Bool
  | .method _ _ _ static _ _ _ => static
  | .field _ _ _ static _ _ _ => static
  | .staticBlock _ _ _ => true
  | .missing => false

/-- Whether an element has a private name. -/
def isPrivate : ClassElement → Bool
  | .method _ key computed _ _ _ _ => key.isPrivateKey computed
  | .field _ key computed _ _ _ _ => key.isPrivateKey computed
  | .staticBlock _ _ _ | .missing => false

/-- Whether an element is a field. -/
def isField : ClassElement → Bool
  | .field _ _ _ _ _ _ _ => true
  | _ => false

/-- Whether an element is a static block. -/
def isStaticBlock : ClassElement → Bool
  | .staticBlock _ _ _ => true
  | _ => false

/-- Whether an element is a method that stands on the prototype. -/
def onPrototype (e : ClassElement) : Bool :=
  e.isMethod && !e.isStatic && !e.isPrivate

/-- Whether an element is a method of the class itself. -/
def onClass (e : ClassElement) : Bool :=
  e.isMethod && e.isStatic

/-- Whether an element is made for every instance: a field, or a private method. -/
def onInstance (e : ClassElement) : Bool :=
  !e.isStatic && (e.isField || (e.isMethod && e.isPrivate))

/-- Whether an element runs once when the class has been made: a static field or block. -/
def onceOnly (e : ClassElement) : Bool :=
  e.isStaticBlock || (e.isField && e.isStatic)

end ClassElement

/-- A constructor: its scope and parameters, and what it does. -/
structure Constructor where
  head : Lowering
  body : Lowering

end EcmaStack

import EcmaStack.Emission.Writer
import EcmaStack.Lowering.Access
import EcmaStack.Lowering.Shape

/-!
# Writing members, targets and functions

What is written around the parts of an expression, given what writes the parts.
A member is read, called, removed and assigned to; each way has its own jumps,
and those of a chain go on the list that the whole chain shares.
-/

namespace EcmaStack

open Writing

/-- Where code is written: in which source, whether functions keep their source
text, whether the function around is asynchronous, and what initializes an
instance after a call of the superclass's constructor. -/
structure WriteSite where
  file : SourceFile
  lineStarts : List Nat
  omitSource : Bool
  async : Bool := false
  fields : Option (Bool → Writing Unit) := none

namespace WriteSite

/-- What the code at a site may depend on, besides what initializes an
instance. -/
def code (s : WriteSite) : CodeSite :=
  { file := s.file, lineStarts := s.lineStarts, omitSource := s.omitSource, async := s.async }

/-- The site inside a function that is no arrow function. -/
def inFunction (s : WriteSite) (async : Bool) : WriteSite :=
  { s with async, fields := none }

/-- The site inside an arrow function, which shares its creator's `this`. -/
def inArrow (s : WriteSite) (async : Bool) : WriteSite :=
  { s with async }

/-- Write an operation with the line and column at which a range starts. -/
def placed (s : WriteSite) (o : Opcode) (span : Span) : Writing Unit :=
  put (s.code.placed o span)

/-- Write a call of the superclass's constructor; the instance is initialized
right after it. -/
def superCall (s : WriteSite) (span : Span) : Writing Unit := do
  s.placed .superCall span
  match s.fields with
  | some fields => fields s.async
  | none => return

/-- Finish a function object whose body starts at a place. -/
def functionHead (s : WriteSite) (o : Opcode) (start : Nat) (span : Span) (name : Text) :
    Writing Unit := do
  op o
  jumpTo .setAddress start
  when (!s.omitSource) do put [⟨.setSource, [.text (s.code.sourceOf span)]⟩]
  when (!name.isEmpty) do
    string name
    op .setName

end WriteSite

/-- Write the names that a function captures. -/
def writeClosure (names : List String) : Writing Unit :=
  names.forM fun name => text .setClosure (.ofString name)

/-! ## Scopes -/

/-- A function declaration that stands directly in a region, with what writes its
function. -/
structure HoistedWriter where
  site : Nat
  name : String
  write : Writing Unit

/-- The function declaration that made a variable. -/
def Variable.hoistedWriter? (v : Variable) (hoisted : List HoistedWriter) : Option HoistedWriter :=
  match v.kind, v.site with
  | .function, some site => hoisted.find? (·.site == site)
  | _, _ => none

/-- Open a scope and define its variables; once all exist, assign the functions
that are declared in it. -/
def writePrologue (scope : Option Scope) (hoisted : List HoistedWriter) : Writing Unit := do
  let bindings := (scope.map Scope.bindings).getD []
  op .pushScope
  bindings.forM fun v => put v.opening
  (bindings.filterMap (·.hoistedWriter? hoisted)).forM fun h => do
    h.write
    text .store h.name
    op .pop

/-- Open the scope of a region, unless it needs none. The answer tells whether
there is a scope to leave. -/
def enterScope (scope : Option Scope) (hoisted : List HoistedWriter) : Writing Bool := do
  if needsScope scope then
    writePrologue scope hoisted
    return true
  else return false

/-- Leave the scope of a region. -/
def leaveScope (pushed : Bool) : Writing Unit :=
  when pushed (op .popScope)

/-! ## Keys and members -/

/-- Write a key that is not computed. -/
def Expr.writePlainKey (e : Expr) : Writing Unit :=
  match e with
  | .number _ _ value => put (numberCode value)
  | .bigint _ _ value => Writing.string (integerText value)
  | e =>
    match e.keyText? with
    | some name => Writing.string name
    | none => do
      report e.span .propertyKey
      Writing.string ""

/-- Write a key, from its value where it is computed. -/
def Expr.writeKey (e : Expr) (computed : Bool) (value : Writing Unit) : Writing Unit :=
  if computed then value else e.writePlainKey

/-- Whether an expression, as the object of a member or the function of a call,
continues their chain. -/
def Expr.isLink : Expr → Bool
  | .member _ _ _ _ _ | .call _ _ _ _ => true
  | _ => false

/-- Write the object of a member or the function of a call: as a link if it is
one, else as an expression of its own. -/
def Expr.writeOperand (e : Expr) (value : Writing Unit) (link : Link) : Link := fun jumps =>
  if e.isLink then link jumps
  else do
    value
    return jumps

/-- A member of an object: what is known of it, what writes the object, by itself
or as a link of the chain, and what writes the key. -/
structure MemberWriter where
  ofSuper : Bool
  isPrivate : Bool
  optional : Bool
  object : Writing Unit
  operand : Link
  key : Writing Unit

namespace MemberWriter

/-- The member of an object under a property. -/
def of (base property : Expr) (computed optional : Bool) (object : Writing Unit) (link : Link)
    (value : Writing Unit) : MemberWriter where
  ofSuper := base.isSuper
  isPrivate := property.isPrivateKey computed
  optional := optional
  object := object
  operand := base.writeOperand object link
  key := property.writeKey computed value

/-- What reads a field. -/
def getter (m : MemberWriter) : Opcode :=
  if m.isPrivate then .getPrivateField else .getField

/-- Write the value of a member. -/
def read (m : MemberWriter) : Link := fun jumps =>
  if m.ofSuper then do
    m.key
    op .getSuperField
    return jumps
  else do
    let jumps ← m.operand jumps
    let jumps ← exitIf m.optional jumps
    m.key
    op m.getter
    return jumps

/-- Write the removal of a member. -/
def remove (m : MemberWriter) (span : Span) : Writing Unit :=
  if m.ofSuper || m.isPrivate then do
    report span .deletion
    op .pushFalse
  else chain fun jumps => do
    let jumps ← m.operand jumps
    let jumps ← exitIf m.optional jumps
    m.key
    op .removeField
    return jumps

/-- Leave the chain with `undefined` in place of two values unless the value on
top is there. -/
def unlessMissing : Link := fun jumps => do
  let present ← jump .jumpNotNull
  put (Code.drop 2)
  op .pushUndefined
  let missing ← jump .jump
  patch present
  return jumps ++ [missing]

/-- What an optional call does once the function is on the stack. -/
def guardCall (optional : Bool) : Link := fun jumps =>
  if optional then unlessMissing jumps else return jumps

/-- What an optional call of a member of the superclass does: the method is read
first, and called only where it is there. -/
def guardSuperCall (optional : Bool) : Link := fun jumps =>
  if optional then do
    pick 1
    op .getSuperField
    let jumps ← unlessMissing jumps
    op .pop
    return jumps
  else return jumps

/-- Write the object of a call, as a link unless parentheses end the chain. -/
def callee (m : MemberWriter) (direct : Bool) : Link := fun jumps =>
  if direct then m.operand jumps
  else do
    m.object
    return jumps

/-- Write a call of a member, `direct` if no parentheses stand around it. -/
def call (m : MemberWriter) (direct optional : Bool) (s : WriteSite) (span : Span)
    (arguments : Writing Unit) : Link := fun jumps =>
  if m.ofSuper then do
    m.key
    let jumps ← guardSuperCall optional jumps
    arguments
    s.placed .superMemberCall span
    return jumps
  else do
    let jumps ← m.callee direct jumps
    let jumps ← exitIf (m.optional && direct) jumps
    if m.isPrivate && !optional then
      m.key
      arguments
      s.placed .privateCall span
      return jumps
    else
      pick 1
      m.key
      op m.getter
      let jumps ← guardCall optional jumps
      arguments
      s.placed .memberCall span
      return jumps

/-- Write a template tagged by a member. -/
def tag (m : MemberWriter) (s : WriteSite) (span : Span) (parts : Writing Unit) : Writing Unit :=
  if m.ofSuper then do
    m.key
    parts
    s.placed .superMemberTag span
  else do
    m.object
    if m.isPrivate then
      m.key
      parts
      s.placed .privateTag span
    else
      pick 1
      m.key
      op .getField
      parts
      s.placed .memberTag span

/-- Write the object and the key of a member that is assigned to. -/
def reference (m : MemberWriter) : Writing (Option Target) :=
  if m.ofSuper then do
    m.key
    return some .superField
  else do
    m.object
    m.key
    return some (if m.isPrivate then .privateField else .field)

end MemberWriter

/-- Write the array of arguments of a call. -/
def writeArguments (items : Writing Unit) : Writing Unit := do
  op .pushArray
  items

/-- Write a call: of the superclass's constructor, of a member, of `eval`, or of
any other function. -/
def WriteSite.call (s : WriteSite) (span : Span) (callee : Expr) (optional : Bool)
    (method : Option (MemberWriter × Bool)) (value : Writing Unit) (link : Link)
    (arguments : Writing Unit) : Link := fun jumps =>
  if callee.isSuper then do
    arguments
    s.superCall span
    return jumps
  else match method with
    | some (m, direct) => m.call direct optional s span arguments jumps
    | none =>
      if callee.isEval && !optional then do
        value
        arguments
        s.placed .directEval span
        return jumps
      else do
        let jumps ← callee.writeOperand value link jumps
        let jumps ← exitIf optional jumps
        arguments
        s.placed .call span
        return jumps

/-! ## Targets -/

namespace Target

/-- Write what changes a target by one, before or after its value is taken. -/
def writeUpdate (t : Target) (up before : Bool) : Writing Unit := do
  put t.get
  if before then
    op (if up then .inc else .dec)
    put t.set
  else
    op (if up then .deferInc else .deferDec)
    sink (t.depth + 1)
    put t.set
    op .pop

/-- Write an assignment that is made unless the present value decides: then that
is the result, and the target is dropped. -/
def writeUnless (t : Target) (decided : Opcode) (value : Writing Unit) : Writing Unit := do
  put t.get
  let short ← jump decided
  op .pop
  value
  put t.set
  let stop ← jump .jump
  patch short
  when (t.depth > 0) do
    sink t.depth
    put (Code.drop t.depth)
  patch stop

end Target

/-! ## Classes, loops and imports -/

/-- A constructor: what writes its scope and parameters, and what writes its
body. -/
structure ConstructorWriter where
  head : Writing Unit
  body : Writing Unit

/-- Write the constructor of a class, which prepares the instance before the declared
constructor runs, if there is one. -/
def WriteSite.writeConstructor (s : WriteSite) (span : Span) (name : Text) (env : Env)
    (declared : Option ConstructorWriter) (prepare : Writing Unit) : Writing Unit := do
  let skip ← jump .jump
  let start ← here
  writePrologue env.scope []
  (declared.map (·.head)).getD (return)
  prepare
  (declared.map (·.body)).getD (op .pushUndefined)
  op .giveBack
  when declared.isSome (op .popScope)
  op .popScope
  patch skip
  s.functionHead .pushClass start span name
  writeClosure env.closure

/-- Write what runs once when a class has been made: a function that is bound to the
class on top and called. -/
def WriteSite.writeInitializer (s : WriteSite) (span : Span) (closure : List String)
    (elements : Writing Unit) : Writing Unit := do
  let skip ← jump .jump
  let start ← here
  op .pushThis
  elements
  op .pop
  op .pushUndefined
  op .giveBack
  patch skip
  op .pushFunction
  pick 2
  op .setBind
  pick 2
  op .setClass
  jumpTo .setAddress start
  writeClosure closure
  op .pushArray
  s.placed .call span
  op .pop

/-- Write one turn of a loop inside frames for `continue`. -/
def writeTurn (labels : List String) (body : Writing Unit) : Writing Unit := do
  let continues ← openFrames .pushContinueLabel labels true
  body
  closeFrames continues

/-- Write a loop over what the iterator on top yields. Each turn runs in a fresh
copy of the scope of the loop. -/
def writeEachTurn (labels : List String) (advance : Opcode) (scope : Option Scope)
    (bind body : Writing Unit) : Writing Unit := do
  let breaks ← openFrames .pushBreakLabel labels true
  let start ← here
  op advance
  let exit ← jump .jumpTrue
  op .pop
  let pushed ← enterScope scope []
  bind
  writeTurn labels body
  leaveScope pushed
  jumpTo .jump start
  patch exit
  op .pop
  op .pop
  closeFrames breaks
  op .pop

/-- The clauses of a switch: for each the slot of the jump to it, zero where nothing
jumps to it, and the number of the last clause without a test, -1 if there is none. -/
structure SwitchTable where
  entries : List Int := []
  fallback : Int := -1

/-- The entries once the jump behind all tests is known, which leads to the clause
without a test. -/
def SwitchTable.entriesWith (t : SwitchTable) (stop : Int) : List Int :=
  if t.fallback ≥ 0 then t.entries.set t.fallback.toNat stop else t.entries

/-- Append an address that is not yet known, or zero where there is nothing to lead
to. The answer is the slot, -1 if there is none. -/
def reserveIf (wanted : Bool) : Writing Int :=
  if wanted then reserve
  else do
    address 0
    return -1

/-- Store everything an import brings in. Only an import specifier can be
stored. -/
def Node.writeSpecifiers (specifiers : List Node) : Writing Unit :=
  specifiers.forM fun
    | .importSpecifier s => put s.lower
    | n => do
      pick 1
      report n.span .importSpecifier
      op .pop

end EcmaStack

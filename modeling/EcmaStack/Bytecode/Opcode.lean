/-!
# Instructions of the stack machine

The operation codes, their numbers, their mnemonics and the operands that follow them in a stream.

The machine has a stack of values, a stack of binding scopes and a stack of frames for `break`
and `continue`. What an operation does to the stack of values is written `[before] -> [after]`,
the top rightmost.
-/

namespace EcmaStack

/-- What an operation takes from the instruction stream. -/
inductive OperandKind where
  | address | integer | number | text
  deriving DecidableEq, Inhabited

/-- An operation of the stack machine. -/
inductive Opcode where
  | pushScope -- opens a binding scope
  | popScope -- closes the innermost binding scope
  | pop -- [v] -> []
  | store -- name: [v] -> [v]; assigns, or initializes an uninitialized binding
  | save -- [v] -> [v]; records the completion value
  | define -- name: [v] -> []; declares name in the innermost scope
  | load -- name: [] -> [v]
  | initAccessor -- [obj key v] -> [obj]; auto-accessor storage
  | initPrivateAccessor -- [obj name v] -> [obj]
  | initField -- [obj key v] -> [obj]; defines an own data property
  | initPrivateField -- [obj name v] -> [obj]
  | pushUndefined
  | pushNull
  | pushNan
  | pushInfinity
  | pushUninitialized -- value of a binding in its temporal dead zone
  | pushTrue
  | pushFalse
  | pushNumber -- number
  | pushString -- string
  | pushBigint -- decimal digits as a string
  | pushRegexp -- pattern, flags
  | pushFunction
  | pushClass
  | pushAsyncFunction
  | pushLambda -- arrow functions keep the this of their creator
  | pushAsyncLambda
  | pushGenerator
  | pushAsyncGenerator
  | pushObject
  | pushArray
  | pushThis
  | superCall -- line, column: [args] -> [this]
  | superMemberCall -- line, column: [key args] -> [result]
  | getSuperField -- [key] -> [v]
  | setSuperField -- [key v] -> [v]
  | pushValue -- n: copies the n-th value from the top, 1 being the top
  | pushBreakLabel -- label, address: opens a break frame recording the stack and scope depth
  | pushContinueLabel -- label, address: opens a continue frame
  | popLabel -- closes the innermost label frame
  | setConst -- [v] -> [v]; the next DEF is const
  | setUsing -- [v] -> [v]; the next DEF is disposed at scope exit
  | setAwaitUsing
  | setSource -- source: [fn] -> [fn]
  | setBind -- [fn this] -> [fn]
  | setClass -- [fn home] -> [fn]; the object super lookups start above
  | setAddress -- address: [fn] -> [fn]
  | setName -- [fn name] -> [fn]
  | setClosure -- name: [fn] -> [fn]; captures the binding visible under name
  | inherit -- [class super] -> [class]
  | decorator -- kind: [key v decorator] -> [key v']
  | directive -- text
  | call -- line, column: [fn args] -> [result]
  | directEval -- line, column: [fn args] -> [result]; direct eval
  | memberCall -- line, column: [obj fn args] -> [result]
  | getField -- [obj key] -> [v]
  | setField -- [obj key v] -> [v]
  | privateCall -- line, column: [obj name args] -> [result]
  | getPrivateField -- [obj name] -> [v]
  | setPrivateField -- [obj name v] -> [v]
  | setGetter -- [obj key fn] -> [obj]
  | setSetter -- [obj key fn] -> [obj]
  | setMethod -- [obj key fn] -> [obj]
  | defPrivateGetter -- [obj name fn] -> [obj]
  | defPrivateSetter
  | defPrivateMethod
  | jumpNull -- address: [v] -> [v]; a nullish v becomes undefined and jumps
  | jumpNotNull -- address: [v] -> [v]; jumps unless v is nullish
  | jumpFalse -- address: [v] -> [v]; jumps if v is falsy
  | jumpTrue -- address: [v] -> [v]; jumps if v is truthy
  | jump -- address
  | breakOff -- label: unwinds to the matching break frame, keeping it, and jumps to its address
  | carryOn -- label: unwinds to the matching continue frame and jumps to it
  | raise -- [v] -> never
  | tryBegin -- catch address, finally address, 0 when absent; a throw pushes the exception
  | tryEnd -- closes the innermost try frame, running its finally block
  | giveBack -- [v] -> returns v
  | halt -- ends the program
  | keys -- [obj] -> [keys]; enumerable string keys for for-in
  | await -- [v] -> [result]
  | yield -- [v] -> [sent]
  | next -- [iter] -> [iter v done]
  | awaitNext -- [iter] -> [iter v done]
  | iterator -- [iterable] -> [iter]
  | asyncIterator
  | rest -- [iter] -> [iter array]; drains the iterator
  | restObject -- [obj keys] -> [obj keys copy]; copies properties not in keys
  | importModule -- specifier: [] -> [namespace]
  | assert -- [namespace key value] -> [namespace]
  | exportName -- name: [v] -> []
  | exportAll -- [namespace] -> []
  | breakpoint
  | construct -- line, column: [ctor args] -> [obj]
  | equal -- binary operators: [a b] -> [a op b]
  | notEqual
  | strictEqual
  | greater
  | less
  | greaterEqual
  | lessEqual
  | strictNotEqual
  | remove -- [v] -> [true]
  | typeOf -- unary operators: [v] -> [op v]
  | void
  | inc
  | dec
  | add
  | sub
  | mul
  | div
  | mod
  | pow
  | bitNot
  | bitAnd
  | bitOr
  | bitXor
  | shr
  | shl
  | ushr
  | plus
  | negate
  | logicalNot
  | concat -- [a b] -> [a + String(b)]
  | spread -- [target iterable] -> [target]; appends to arrays, copies into objects
  | isIn -- [key obj] -> [bool]; a "#name" key tests a private brand
  | instanceOf -- [v ctor] -> [bool]
  | tag -- line, column: [fn strings raws values] -> [result]
  | memberTag -- line, column: [obj fn strings raws values] -> [result]
  | privateTag -- line, column: [obj name strings raws values] -> [result]
  | superMemberTag -- line, column: [key strings raws values] -> [result]
  | removeField -- [obj key] -> [bool]
  | jumpNotUndefined -- address: [v] -> [v]; jumps unless v is undefined
  | deferInc -- [v] -> [n+1 n] where n is ToNumeric(v)
  | deferDec -- [v] -> [n-1 n]
  | append -- [array v] -> [array]
  | insert -- n: moves the top value below the n values under it
  deriving DecidableEq, Inhabited

namespace Opcode

/-- Every operation, in order of number. -/
def all : List Opcode := [
  .pushScope, .popScope, .pop, .store, .save, .define, .load, .initAccessor, .initPrivateAccessor,
  .initField, .initPrivateField, .pushUndefined, .pushNull, .pushNan, .pushInfinity,
  .pushUninitialized, .pushTrue, .pushFalse, .pushNumber, .pushString, .pushBigint, .pushRegexp,
  .pushFunction, .pushClass, .pushAsyncFunction, .pushLambda, .pushAsyncLambda, .pushGenerator,
  .pushAsyncGenerator, .pushObject, .pushArray, .pushThis, .superCall, .superMemberCall,
  .getSuperField, .setSuperField, .pushValue, .pushBreakLabel, .pushContinueLabel, .popLabel,
  .setConst, .setUsing, .setAwaitUsing, .setSource, .setBind, .setClass, .setAddress, .setName,
  .setClosure, .inherit, .decorator, .directive, .call, .directEval, .memberCall, .getField,
  .setField, .privateCall, .getPrivateField, .setPrivateField, .setGetter, .setSetter, .setMethod,
  .defPrivateGetter, .defPrivateSetter, .defPrivateMethod, .jumpNull, .jumpNotNull, .jumpFalse,
  .jumpTrue, .jump, .breakOff, .carryOn, .raise, .tryBegin, .tryEnd, .giveBack, .halt, .keys,
  .await, .yield, .next, .awaitNext, .iterator, .asyncIterator, .rest, .restObject, .importModule,
  .assert, .exportName, .exportAll, .breakpoint, .construct, .equal, .notEqual, .strictEqual,
  .greater, .less, .greaterEqual, .lessEqual, .strictNotEqual, .remove, .typeOf, .void, .inc, .dec,
  .add, .sub, .mul, .div, .mod, .pow, .bitNot, .bitAnd, .bitOr, .bitXor, .shr, .shl, .ushr, .plus,
  .negate, .logicalNot, .concat, .spread, .isIn, .instanceOf, .tag, .memberTag, .privateTag,
  .superMemberTag, .removeField, .jumpNotUndefined, .deferInc, .deferDec, .append, .insert]

/-- The number of an operation in an instruction stream. -/
def number (op : Opcode) : Nat :=
  op.ctorIdx

/-- The operation with a number. -/
def ofNumber? (n : Nat) : Option Opcode :=
  all[n]?

/-- The name of an operation in a listing. -/
def mnemonic : Opcode → String
  | .pushScope => "PUSH_SCOPE"
  | .popScope => "POP_SCOPE"
  | .pop => "POP"
  | .store => "STORE"
  | .save => "SAVE"
  | .define => "DEF"
  | .load => "LOAD"
  | .initAccessor => "INIT_ACCESSOR"
  | .initPrivateAccessor => "INIT_PRIVATE_ACCESSOR"
  | .initField => "INIT_FIELD"
  | .initPrivateField => "INIT_PRIVATE_FIELD"
  | .pushUndefined => "PUSH_UNDEFINED"
  | .pushNull => "PUSH_NULL"
  | .pushNan => "PUSH_NAN"
  | .pushInfinity => "PUSH_INFINITY"
  | .pushUninitialized => "PUSH_UNINITIALIZED"
  | .pushTrue => "PUSH_TRUE"
  | .pushFalse => "PUSH_FALSE"
  | .pushNumber => "PUSH_NUMBER"
  | .pushString => "PUSH_STRING"
  | .pushBigint => "PUSH_BIGINT"
  | .pushRegexp => "PUSH_REGEXP"
  | .pushFunction => "PUSH_FUNCTION"
  | .pushClass => "PUSH_CLASS"
  | .pushAsyncFunction => "PUSH_ASYNC_FUNCTION"
  | .pushLambda => "PUSH_LAMBDA"
  | .pushAsyncLambda => "PUSH_ASYNC_LAMBDA"
  | .pushGenerator => "PUSH_GENERATOR"
  | .pushAsyncGenerator => "PUSH_ASYNC_GENERATOR"
  | .pushObject => "PUSH_OBJECT"
  | .pushArray => "PUSH_ARRAY"
  | .pushThis => "PUSH_THIS"
  | .superCall => "SUPER_CALL"
  | .superMemberCall => "SUPER_MEMBER_CALL"
  | .getSuperField => "GET_SUPER_FIELD"
  | .setSuperField => "SET_SUPER_FIELD"
  | .pushValue => "PUSH_VALUE"
  | .pushBreakLabel => "PUSH_BREAK_LABEL"
  | .pushContinueLabel => "PUSH_CONTINUE_LABEL"
  | .popLabel => "POP_LABEL"
  | .setConst => "SET_CONST"
  | .setUsing => "SET_USING"
  | .setAwaitUsing => "SET_AWAIT_USING"
  | .setSource => "SET_SOURCE"
  | .setBind => "SET_BIND"
  | .setClass => "SET_CLASS"
  | .setAddress => "SET_ADDRESS"
  | .setName => "SET_NAME"
  | .setClosure => "SET_CLOSURE"
  | .inherit => "EXTENDS"
  | .decorator => "DECORATOR"
  | .directive => "DIRECTIVE"
  | .call => "CALL"
  | .directEval => "EVAL"
  | .memberCall => "MEMBER_CALL"
  | .getField => "GET_FIELD"
  | .setField => "SET_FIELD"
  | .privateCall => "PRIVATE_CALL"
  | .getPrivateField => "GET_PRIVATE_FIELD"
  | .setPrivateField => "SET_PRIVATE_FIELD"
  | .setGetter => "SET_GETTER"
  | .setSetter => "SET_SETTER"
  | .setMethod => "SET_METHOD"
  | .defPrivateGetter => "DEF_PRIVATE_GETTER"
  | .defPrivateSetter => "DEF_PRIVATE_SETTER"
  | .defPrivateMethod => "DEF_PRIVATE_METHOD"
  | .jumpNull => "JNULL"
  | .jumpNotNull => "JNOT_NULL"
  | .jumpFalse => "JFALSE"
  | .jumpTrue => "JTRUE"
  | .jump => "JMP"
  | .breakOff => "BREAK"
  | .carryOn => "CONTINUE"
  | .raise => "THROW"
  | .tryBegin => "TRY_BEGIN"
  | .tryEnd => "TRY_END"
  | .giveBack => "RET"
  | .halt => "HLT"
  | .keys => "KEYS"
  | .await => "AWAIT"
  | .yield => "YIELD"
  | .next => "NEXT"
  | .awaitNext => "AWAIT_NEXT"
  | .iterator => "ITERATOR"
  | .asyncIterator => "ASYNC_ITERATOR"
  | .rest => "REST"
  | .restObject => "REST_OBJECT"
  | .importModule => "IMPORT"
  | .assert => "ASSERT"
  | .exportName => "EXPORT"
  | .exportAll => "EXPORT_ALL"
  | .breakpoint => "BREAKPOINT"
  | .construct => "NEW"
  | .equal => "EQ"
  | .notEqual => "NE"
  | .strictEqual => "SEQ"
  | .greater => "GT"
  | .less => "LT"
  | .greaterEqual => "GE"
  | .lessEqual => "LE"
  | .strictNotEqual => "SNE"
  | .remove => "DEL"
  | .typeOf => "TYPEOF"
  | .void => "VOID"
  | .inc => "INC"
  | .dec => "DEC"
  | .add => "ADD"
  | .sub => "SUB"
  | .mul => "MUL"
  | .div => "DIV"
  | .mod => "MOD"
  | .pow => "POW"
  | .bitNot => "NOT"
  | .bitAnd => "AND"
  | .bitOr => "OR"
  | .bitXor => "XOR"
  | .shr => "SHR"
  | .shl => "SHL"
  | .ushr => "USHR"
  | .plus => "PLUS"
  | .negate => "NEG"
  | .logicalNot => "LOGICAL_NOT"
  | .concat => "CONCAT"
  | .spread => "SPREAD"
  | .isIn => "IN"
  | .instanceOf => "INSTANCE_OF"
  | .tag => "TAG"
  | .memberTag => "MEMBER_TAG"
  | .privateTag => "PRIVATE_TAG"
  | .superMemberTag => "SUPER_MEMBER_TAG"
  | .removeField => "DEL_FIELD"
  | .jumpNotUndefined => "JNOT_UNDEFINED"
  | .deferInc => "DEFER_INC"
  | .deferDec => "DEFER_DEC"
  | .append => "APPEND"
  | .insert => "INSERT"

/-- The operation with a mnemonic. -/
def ofMnemonic? (name : String) : Option Opcode :=
  all.find? (·.mnemonic == name)

/-- Every mnemonic, in alphabetical order. -/
def mnemonics : List String :=
  (all.map mnemonic).mergeSort fun a b => decide (a ≤ b)

/-- The operands of an operation, in order. -/
def operands : Opcode → List OperandKind
  | .store | .define | .load | .pushString | .pushBigint | .setSource | .setClosure | .directive
  | .breakOff | .carryOn | .importModule | .exportName => [.text]
  | .pushNumber => [.number]
  | .pushRegexp => [.text, .text]
  | .superCall | .superMemberCall | .call | .directEval | .memberCall | .privateCall | .construct
  | .tag | .memberTag | .privateTag | .superMemberTag => [.integer, .integer]
  | .pushValue | .decorator | .insert => [.integer]
  | .pushBreakLabel | .pushContinueLabel => [.text, .address]
  | .setAddress | .jumpNull | .jumpNotNull | .jumpFalse | .jumpTrue | .jump | .jumpNotUndefined =>
    [.address]
  | .tryBegin => [.address, .address]
  | _ => []

/-- The mnemonic of a number, which need not be an operation's. -/
def describe (n : Nat) : String :=
  ((ofNumber? n).map mnemonic).getD "UNKNOWN"

/-- Numbers and operations correspond. -/
theorem ofNumber?_number (op : Opcode) : ofNumber? op.number = some op := by
  cases op <;> rfl

end Opcode

end EcmaStack

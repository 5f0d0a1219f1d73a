import EcmaStack.Scope.Basic

/-!
# The scope table

A table of numbered scopes, each with its enclosing scope, one of them current. Scopes are
numbered as they are opened and stay in the table when they are closed. The chain of the current
scope is what `Scope` speaks of.
-/

namespace EcmaStack

/-- A scope with the number of the scope around it. -/
structure ScopeEntry where
  scope : Scope
  parent : Option Nat

/-- Numbered scopes, one of which may be current. -/
structure ScopeTable where
  entries : List ScopeEntry := []
  current : Option Nat := none

/-- Why an operation on the table is refused. -/
inductive ScopeFault where
  | declare (fault : DeclareFault)
  | poppedOutOfOrder

/-- The wording of a refused operation. -/
def ScopeFault.message : ScopeFault → String
  | .declare fault => fault.message
  | .poppedOutOfOrder => "ast: scope popped out of order"

namespace ScopeTable

/-- The numbers of a scope and of those around it, innermost first, as far as the fuel goes. -/
def chainFrom (t : ScopeTable) : Nat → Option Nat → List Nat
  | 0, _ => []
  | _, none => []
  | fuel + 1, some n =>
    match t.entries[n]? with
    | some e => n :: t.chainFrom fuel e.parent
    | none => []

/-- The numbers of a scope and of those around it. No chain is longer than the table. -/
def chain (t : ScopeTable) (start : Option Nat) : List Nat :=
  t.chainFrom t.entries.length start

/-- The scopes with the given numbers. -/
def scopesAt (t : ScopeTable) (numbers : List Nat) : List Scope :=
  numbers.filterMap fun n => t.entries[n]?.map (·.scope)

/-- Open a scope inside the current one and make it current. -/
def push (t : ScopeTable) (kind : ScopeKind) (generator async : Bool) : Nat × ScopeTable :=
  let n := t.entries.length
  (n, { entries := t.entries ++ [⟨{ kind, generator, async }, t.current⟩], current := some n })

/-- Close a scope, which must be the current one. -/
def pop (t : ScopeTable) (n : Nat) : Except ScopeFault ScopeTable :=
  if t.current == some n then .ok { t with current := t.entries[n]?.bind (·.parent) }
  else .error .poppedOutOfOrder

/-- Abandon a scope, and with it every scope opened after it that is still open: the scope
around it becomes current. It loses its variables and its place. -/
def discard (t : ScopeTable) (n : Nat) : ScopeTable :=
  { entries := t.entries.modify n fun e =>
      { scope := { e.scope with bindings := [] }, parent := none }
    current := t.entries[n]?.bind (·.parent) }

/-- Make another scope current. -/
def setCurrent (t : ScopeTable) (n : Option Nat) : ScopeTable :=
  { t with current := n }

/-- Put scopes back under their numbers. -/
def store (t : ScopeTable) (numbers : List Nat) (scopes : List Scope) : ScopeTable :=
  { t with
    entries := (numbers.zip scopes).foldl
      (fun es (n, s) => es.modify n fun e => { e with scope := s }) t.entries }

/-- Declare a variable where the current scope stands. -/
def declare (t : ScopeTable) (v : Variable) : Except ScopeFault ScopeTable :=
  let numbers := t.chain t.current
  match Scope.declareIn (t.scopesAt numbers) v with
  | .ok scopes => .ok (t.store numbers scopes)
  | .error fault => .error (.declare fault)

/-- The variable a scope declares under a name. -/
def lookup? (t : ScopeTable) (n : Nat) (name : String) : Option Variable :=
  t.entries[n]?.bind fun e => e.scope.lookup? name

/-- The nearest function scope around a scope, itself included. -/
def function? (t : ScopeTable) (n : Nat) : Option Nat :=
  (t.chain (some n)).find? fun m => t.entries[m]?.any (·.scope.kind == .function)

/-- Whether the current place is in a generator. -/
def inGenerator (t : ScopeTable) : Bool :=
  Scope.inGenerator (t.scopesAt (t.chain t.current))

/-- Whether the current place is in an asynchronous function. -/
def inAsync (t : ScopeTable) : Bool :=
  Scope.inAsync (t.scopesAt (t.chain t.current))

end ScopeTable

end EcmaStack

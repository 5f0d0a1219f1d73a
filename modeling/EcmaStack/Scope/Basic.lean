/-!
# Scopes

A scope holds the variables of one lexical region. Regions nest, so the scopes that are open at
a place form a **chain**, innermost first. A `var` and a parameter belong to the nearest
function scope of the chain; every other declaration stays in the innermost scope.

A name may be declared again only where neither declaration is lexical. Then the first record
stays, except that a function takes it over.
-/

namespace EcmaStack

/-- A block, or a region that collects `var` declarations. -/
inductive ScopeKind where
  | block
  | function
  deriving DecidableEq, Inhabited

/-- The form of a declaration. -/
inductive DeclKind where
  | var | letDecl | constDecl | using | awaitUsing | function | param | classDecl | importDecl
  deriving DecidableEq, Inhabited

/-- The word for a kind of scope. -/
def ScopeKind.word : ScopeKind → String
  | .block => "block"
  | .function => "function"

namespace DeclKind

/-- Every form of declaration. -/
def all : List DeclKind :=
  [.var, .letDecl, .constDecl, .using, .awaitUsing, .function, .param, .classDecl, .importDecl]

/-- The word for a form of declaration. -/
def word : DeclKind → String
  | .var => "var"
  | .letDecl => "let"
  | .constDecl => "const"
  | .using => "using"
  | .awaitUsing => "await using"
  | .function => "function"
  | .param => "param"
  | .classDecl => "class"
  | .importDecl => "import"

/-- The form of declaration with a word. -/
def ofWord? (w : String) : Option DeclKind :=
  all.find? (·.word == w)

/-- Whether the declaration belongs to its block and its name may not be declared again. -/
def isLexical : DeclKind → Bool
  | .letDecl | .constDecl | .using | .awaitUsing | .classDecl | .importDecl => true
  | .var | .function | .param => false

/-- Whether the declaration moves out to the nearest function scope. -/
def isHoisted : DeclKind → Bool
  | .var | .param => true
  | _ => false

end DeclKind

/-- A declared name. `site` tells which declaration made the record: the offset at which the
declaring identifier or function declaration starts. -/
structure Variable where
  name : String
  kind : DeclKind
  site : Option Nat := none
  deriving DecidableEq

/-- The variables of a lexical region, in order of declaration, and what kind of region it is.
Scopes are told apart by the numbers they are opened with, and each knows the scope it was
opened in. -/
structure Scope where
  kind : ScopeKind
  generator : Bool := false
  async : Bool := false
  bindings : List Variable := []
  serial : Nat := 0
  parent : Option Nat := none
  deriving DecidableEq

/-- Why a declaration is refused. -/
inductive DeclareFault where
  | redeclared (name : String)
  | outsideScope
  deriving DecidableEq

/-- The wording of a refused declaration. -/
def DeclareFault.message : DeclareFault → String
  | .redeclared name => "Identifier '" ++ name ++ "' has already been declared"
  | .outsideScope => "ast: declaration outside of any scope"

namespace Scope

/-- The variable with a name. -/
def lookup? (s : Scope) (name : String) : Option Variable :=
  s.bindings.find? (·.name == name)

/-- Whether the scope declares a name. -/
def declares (s : Scope) (name : String) : Bool :=
  (s.lookup? name).isSome

/-- Put a record in place of the one with its name. -/
def replace (s : Scope) (v : Variable) : Scope :=
  { s with bindings := s.bindings.map fun w => if w.name == v.name then v else w }

/-- Add a variable to this very scope. -/
def add (s : Scope) (v : Variable) : Except DeclareFault Scope :=
  match s.lookup? v.name with
  | none => .ok { s with bindings := s.bindings ++ [v] }
  | some old =>
    if v.kind.isLexical || old.kind.isLexical then .error (.redeclared v.name)
    else if v.kind == .function then .ok (s.replace v)
    else .ok s

/-- How many scopes lie between the innermost and the nearest function scope, if there is one. A
lexical variable of the name in any scope on the way, the function scope included, is a
conflict. -/
def hoistDistance (name : String) : List Scope → Except DeclareFault (Option Nat)
  | [] => .ok none
  | s :: outer =>
    if (s.lookup? name).any (·.kind.isLexical) then .error (.redeclared name)
    else if s.kind == .function then .ok (some 0)
    else (hoistDistance name outer).map fun n => n.map (· + 1)

/-- Add a variable to the scope at a distance from the innermost. -/
def addAt (v : Variable) : Nat → List Scope → Except DeclareFault (List Scope)
  | _, [] => .error .outsideScope
  | 0, s :: outer => (s.add v).map (· :: outer)
  | n + 1, s :: outer => (addAt v n outer).map (s :: ·)

/-- Declare a variable where the chain of open scopes stands. Without a function scope on the
chain a hoisted variable stays in the innermost scope. -/
def declareIn (chain : List Scope) (v : Variable) : Except DeclareFault (List Scope) :=
  if v.kind.isHoisted then do
    let n ← hoistDistance v.name chain
    addAt v (n.getD 0) chain
  else addAt v 0 chain

/-- The nearest function scope of a chain. -/
def nearestFunction? (chain : List Scope) : Option Scope :=
  chain.find? (·.kind == .function)

/-- Whether the nearest function scope is a generator's. -/
def inGenerator (chain : List Scope) : Bool :=
  (nearestFunction? chain).any (·.generator)

/-- Whether the nearest function scope is asynchronous. -/
def inAsync (chain : List Scope) : Bool :=
  (nearestFunction? chain).any (·.async)

/-- Whether a name is declared in the chain before its first function scope ends. -/
def binds (name : String) : List Scope → Bool
  | [] => false
  | s :: outer => s.declares name || (s.kind != .function && binds name outer)

end Scope

end EcmaStack

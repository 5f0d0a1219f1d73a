import EcmaStack.Grammar.Module
import EcmaStack.Proofs.Tree.Formed

/-!
# Where declarations belong

What the scopes of a tree should hold, told from the tree alone. `Node.inForce` walks a tree
with the chain of scopes in force at each node, innermost first. A declaration has its **home**
on that chain: a `var` and a parameter in the nearest function scope, everything else in the
innermost scope. `Node.declarations` lists what a tree declares, each name with the number of
its home, and `Node.opened` lists the scopes attached to its nodes, each with the number of the
scope it should lie in.

The parts of most nodes stand in the scopes of the node. A class is read in layers: its
decorators stand outside, what it extends stands in the scope of its name, and its elements in
the scope of its body. The discriminant of a switch stands outside the scope of its clauses.
-/

namespace EcmaStack

/-! ## Chains of scopes in force -/

/-- A scope as a chain of scopes in force refers to it. -/
structure Scope.Frame where
  serial : Nat
  kind : ScopeKind

namespace Scope

/-- What a chain keeps of a scope. -/
def frame (s : Scope) : Frame :=
  ⟨s.serial, s.kind⟩

/-- The names of a scope, in order of declaration. -/
def names (s : Scope) : List String :=
  s.bindings.map (·.name)

/-- The chain inside scopes that are opened one in the other, the outermost first. -/
def inside (scopes : List Scope) (chain : List Frame) : List Frame :=
  scopes.foldl (fun chain s => s.frame :: chain) chain

@[simp] theorem inside_nil (chain : List Frame) : inside [] chain = chain := rfl

@[simp] theorem inside_cons (s : Scope) (scopes : List Scope) (chain : List Frame) :
    inside (s :: scopes) chain = inside scopes (s.frame :: chain) := rfl

/-- Scopes that are opened one in the other, each with the number of the scope around it. -/
def layers (around : Option Nat) : List Scope → List (Option Nat × Scope)
  | [] => []
  | s :: rest => (around, s) :: layers (some s.serial) rest

@[simp] theorem layers_nil (around : Option Nat) : layers around [] = [] := rfl

@[simp] theorem layers_cons (around : Option Nat) (s : Scope) (rest : List Scope) :
    layers around (s :: rest) = (around, s) :: layers (some s.serial) rest := rfl

end Scope

/-- The number of the innermost scope of a chain. -/
def innermost (chain : List Scope.Frame) : Option Nat :=
  chain.head?.map (·.serial)

@[simp] theorem innermost_cons (s : Scope) (chain : List Scope.Frame) :
    innermost (s.frame :: chain) = some s.serial :=
  rfl

/-- The number of the scope that a declaration belongs to. -/
def DeclKind.home (kind : DeclKind) (chain : List Scope.Frame) : Option Nat :=
  if kind.isHoisted then (chain.find? (·.kind == .function)).map (·.serial) else innermost chain

/-- A name that is declared, with the number of its home. -/
structure Declaration where
  home : Option Nat
  name : String

/-- Names that are declared where a chain of scopes is in force. -/
def declared (kind : DeclKind) (chain : List Scope.Frame) (names : List Name) : List Declaration :=
  names.map fun n => ⟨kind.home chain, n.text⟩

/-- A name that is declared in a scope of its own. -/
theorem declared_own (own : Scope) (chain : List Scope.Frame) (n : Name) :
    declared .constDecl (own.frame :: chain) [n] = [⟨some own.serial, n.text⟩] :=
  rfl

/-! ## What a node opens and declares -/

/-- The scopes of a function-like node, the scope of its own name outside the other. -/
def Env.scopes (e : Env) : List Scope :=
  e.nameScope.toList ++ e.scope.toList

/-- The own name of a function-like node belongs to the scope that was opened for it. -/
def Env.ownName (e : Env) (name : Option Name) : List Declaration :=
  e.nameScope.toList.flatMap fun s => name.toList.map fun n => ⟨some s.serial, n.text⟩

/-- The names a declaration of variables declares. -/
def VarDecl.names (d : VarDecl) : List Name :=
  d.list.flatMap fun x => x.target.boundNames

/-- The names of this module that an import declares. -/
def Node.importedNames (specifiers : List Node) : List Name :=
  specifiers.filterMap fun
    | .importSpecifier s => Parse.importedName s
    | _ => none

/-- The scopes attached to an expression. -/
def Expr.scopes : Expr → List Scope
  | .function f => f.env.scopes
  | .arrow _ _ _ _ _ env => env.scopes
  | .classExpr c => c.env.scopes
  | _ => []

/-- What an expression declares in its own scopes. -/
def Expr.declared (chain : List Scope.Frame) : Expr → List Declaration
  | .function f =>
    f.env.ownName f.name ++
      EcmaStack.declared .param (Scope.inside f.env.scopes chain) f.params.boundNames
  | .arrow _ params _ _ _ env =>
    EcmaStack.declared .param (Scope.inside env.scopes chain) params.boundNames
  | .classExpr c => c.env.ownName c.name
  | _ => []

namespace Node

/-- The scopes attached to a node, each inside the one before it. -/
def scopes : Node → List Scope
  | .program p => p.scope.toList
  | .expr e | .pattern (.target e) => e.scopes
  | .stmt (.block b) => b.scope.toList
  | .stmt (.switch _ _ _ scope) | .stmt (.forLoop _ _ _ _ _ scope) | .stmt (.forIn _ _ _ _ scope)
  | .stmt (.forOf _ _ _ _ _ scope) => scope.toList
  | .catchClause c => c.scope.toList
  | .classElement (.staticBlock _ _ env) => env.scopes
  | _ => []

/-- What a node declares, itself and not its parts. -/
def declared (chain : List Scope.Frame) : Node → List Declaration
  | .expr e | .pattern (.target e) => e.declared chain
  | .stmt (.declaration d) => EcmaStack.declared d.kind chain d.names
  | .stmt (.function _ f) => EcmaStack.declared .function chain f.name.toList
  | .stmt (.classDecl _ c) => EcmaStack.declared .classDecl chain c.name.toList
  | .stmt (.importDecl _ specifiers _ _) =>
    EcmaStack.declared .importDecl chain (importedNames specifiers)
  | .catchClause c =>
    EcmaStack.declared .letDecl (Scope.inside c.scope.toList chain)
      (Pattern.boundNamesOption c.param)
  | _ => []

/-- The chain in force at a child of a node. -/
def inner (chain : List Scope.Frame) : Node → Node → List Scope.Frame
  | .expr (.classExpr _), .decorator _ => chain
  | .expr (.classExpr c), .expr _ => Scope.inside c.env.nameScope.toList chain
  | .stmt (.switch _ _ _ _), .expr _ => chain
  | n, _ => Scope.inside n.scopes chain

/-- The nodes of a tree in order of the source, each with the chain of scopes in force there. -/
def inForce (chain : List Scope.Frame) (n : Node) : List (List Scope.Frame × Node) :=
  (chain, n) :: n.children.attach.flatMap fun ⟨c, _⟩ => inForce (n.inner chain c) c
termination_by sizeOf n
decreasing_by exact sizeOf_lt_of_mem_children ‹_›

/-- What is declared in a tree. -/
def declarations (chain : List Scope.Frame) (n : Node) : List Declaration :=
  (n.inForce chain).flatMap fun (chain, m) => m.declared chain

/-- The scopes attached to the nodes of a tree, each with the number of the scope it lies in. -/
def opened (chain : List Scope.Frame) (n : Node) : List (Option Nat × Scope) :=
  (n.inForce chain).flatMap fun (chain, m) => Scope.layers (innermost chain) m.scopes

/-! ## A tree by its parts -/

/-- What is in force at the nodes of a tree: at the node itself, and at its children what
the node makes of it. -/
theorem inForce_eq (chain : List Scope.Frame) (n : Node) :
    n.inForce chain = (chain, n) :: n.children.flatMap fun c => c.inForce (n.inner chain c) := by
  rw [inForce]
  simp only [List.flatMap_subtype, List.unattach_attach]

/-- The walk with chains comes by the nodes of the tree. -/
theorem inForce_walk (chain : List Scope.Frame) (n : Node) :
    (n.inForce chain).map (·.2) = n.walk := by
  rw [inForce_eq, walk_eq, List.map_cons, List.map_flatMap]
  congr 1
  refine List.flatMap_congr fun c hc => ?_
  have hsmaller := sizeOf_lt_of_mem_children hc
  exact inForce_walk (n.inner chain c) c
termination_by sizeOf n

/-- A part that is missing opens nothing, declares nothing and has no parts. -/
private theorem nothing_of_isMissing {n : Node} (h : n.isMissing = true) :
    n.scopes = [] ∧ (∀ chain, n.declared chain = []) ∧ n.children = [] := by
  unfold isMissing at h
  split at h
  · exact ⟨rfl, fun _ => rfl, rfl⟩
  · exact ⟨rfl, fun _ => rfl, rfl⟩
  · exact ⟨rfl, fun _ => rfl, rfl⟩
  · exact ⟨rfl, fun _ => rfl, rfl⟩
  · exact ⟨rfl, fun _ => rfl, rfl⟩
  · exact ⟨rfl, fun _ => rfl, rfl⟩
  · exact ⟨rfl, fun _ => rfl, rfl⟩
  · exact ⟨rfl, fun _ => rfl, rfl⟩
  · cases h

/-- So it may as well be left out. -/
private theorem flatMap_children {β : Type} (n : Node) {f : Node → List β}
    (hf : ∀ c, c.isMissing = true → f c = []) :
    n.children.flatMap f = n.slots.flatMap f := by
  rw [children]
  generalize n.slots = slots
  induction slots with
  | nil => rfl
  | cons c rest ih =>
    by_cases hc : c.isMissing = true
    · rw [List.filter_cons_of_neg (by simp [hc]), ih, List.flatMap_cons, hf c hc, List.nil_append]
    · rw [List.filter_cons_of_pos (by simp [hc]), List.flatMap_cons, List.flatMap_cons, ih]

/-- What is missing declares nothing, -/
theorem declarations_of_isMissing {n : Node} (h : n.isMissing = true) (chain : List Scope.Frame) :
    n.declarations chain = [] := by
  obtain ⟨_, hdeclared, hchildren⟩ := nothing_of_isMissing h
  rw [declarations, inForce_eq, hchildren]
  simp [hdeclared]

/-- and opens no scope. -/
theorem opened_of_isMissing {n : Node} (h : n.isMissing = true) (chain : List Scope.Frame) :
    n.opened chain = [] := by
  obtain ⟨hscopes, _, hchildren⟩ := nothing_of_isMissing h
  rw [opened, inForce_eq, hchildren]
  simp [hscopes]

/-- What is declared in a tree is what its root declares and what is declared in the parts of
the root. -/
theorem declarations_eq (chain : List Scope.Frame) (n : Node) :
    n.declarations chain = n.declared chain ++ n.slots.flatMap fun c =>
    c.declarations (n.inner chain c) := by
  rw [← flatMap_children n fun c hc => declarations_of_isMissing hc _, declarations, inForce_eq,
    List.flatMap_cons, List.flatMap_assoc]
  rfl

/-- The scopes that are opened in a node are its own and those opened in its slots. -/
theorem opened_eq (chain : List Scope.Frame) (n : Node) :
    n.opened chain =
      Scope.layers (innermost chain) n.scopes ++ n.slots.flatMap fun c =>
      c.opened (n.inner chain c) := by
  rw [← flatMap_children n fun c hc => opened_of_isMissing hc _, opened, inForce_eq,
    List.flatMap_cons, List.flatMap_assoc]
  rfl

/-! ## The layers of a class -/

section

variable {chain : List Scope.Frame} {c : Class}

@[simp] theorem inner_class_decorator {d : Decorator} :
    (Node.expr (.classExpr c)).inner chain (.decorator d) = chain := rfl

@[simp] theorem inner_class_expr {x : Expr} :
    (Node.expr (.classExpr c)).inner chain (.expr x) = Scope.inside c.env.nameScope.toList chain :=
  rfl

@[simp] theorem inner_class_element {x : ClassElement} :
    (Node.expr (.classExpr c)).inner chain (.classElement x) = Scope.inside c.env.scopes chain :=
  rfl

end

end Node

end EcmaStack

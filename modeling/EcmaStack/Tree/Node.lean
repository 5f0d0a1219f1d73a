import EcmaStack.Tree.Basic

/-!
# Nodes and their children

The name, the range and the children of every part of a tree that is a node of its own. A node
has slots for its parts, in order of the source; what is there in them are its children. The key
of a shorthand pattern property repeats its value and has no slot.

`Node.walk` lists the nodes of a tree, each before its children; it ends because a child is
smaller than its parent (`Node.sizeOf_lt_of_mem_children`).
-/

namespace EcmaStack

/-! ## Names -/

/-- The name of an expression's type. -/
def Expr.typeName : Expr → String
  | .missing => ""
  | .identifier _ => "Identifier"
  | .privateName _ => "PrivateName"
  | .nullLiteral _ => "NullLiteral"
  | .boolean _ _ => "BooleanLiteral"
  | .number _ _ _ => "NumberLiteral"
  | .bigint _ _ _ => "BigIntLiteral"
  | .string _ => "StringLiteral"
  | .regexp _ _ _ _ => "RegExpLiteral"
  | .template _ => "TemplateLiteral"
  | .tagged _ _ _ => "TaggedTemplate"
  | .thisRef _ => "ThisExpression"
  | .superRef _ => "SuperExpression"
  | .array _ _ => "ArrayLiteral"
  | .object _ _ => "ObjectLiteral"
  | .spread _ _ => "SpreadElement"
  | .paren _ _ => "ParenthesizedExpression"
  | .call _ _ _ _ => "CallExpression"
  | .construct _ _ _ => "NewExpression"
  | .member _ _ _ _ _ => "MemberExpression"
  | .metaProperty _ _ _ => "MetaProperty"
  | .importCall _ _ _ => "ImportExpression"
  | .unary _ _ _ => "UnaryExpression"
  | .await _ _ => "AwaitExpression"
  | .update _ _ _ _ => "UpdateExpression"
  | .binary _ _ _ _ => "BinaryExpression"
  | .conditional _ _ _ _ => "ConditionalExpression"
  | .assign _ _ _ _ => "AssignExpression"
  | .yield _ _ _ => "YieldExpression"
  | .function _ => "FunctionLiteral"
  | .arrow _ _ _ _ _ _ => "ArrowFunction"
  | .classExpr _ => "ClassLiteral"

/-- The name of a pattern's type. -/
def Pattern.typeName : Pattern → String
  | .target e => e.typeName
  | .array _ _ _ => "ArrayPattern"
  | .object _ _ _ => "ObjectPattern"

/-- The name of a statement's type. -/
def Stmt.typeName : Stmt → String
  | .missing => ""
  | .expression _ _ => "ExpressionStatement"
  | .block _ => "BlockStatement"
  | .empty _ => "EmptyStatement"
  | .debugger _ => "DebuggerStatement"
  | .giveBack _ _ => "ReturnStatement"
  | .labelled _ _ _ => "LabelledStatement"
  | .breakOff _ _ => "BreakStatement"
  | .carryOn _ _ => "ContinueStatement"
  | .branch _ _ _ _ => "IfStatement"
  | .switch _ _ _ _ => "SwitchStatement"
  | .raise _ _ => "ThrowStatement"
  | .guarded _ _ _ _ => "TryStatement"
  | .whileLoop _ _ _ => "WhileStatement"
  | .doWhile _ _ _ => "DoWhileStatement"
  | .forLoop _ _ _ _ _ _ => "ForStatement"
  | .forIn _ _ _ _ _ => "ForInStatement"
  | .forOf _ _ _ _ _ _ => "ForOfStatement"
  | .declaration _ => "VariableDeclaration"
  | .function _ _ => "FunctionDeclaration"
  | .classDecl _ _ => "ClassDeclaration"
  | .importDecl _ _ _ _ => "ImportDeclaration"
  | .exportNamed _ _ _ _ _ => "ExportNamedDeclaration"
  | .exportDefault _ _ => "ExportDefaultDeclaration"
  | .exportAll _ _ _ _ => "ExportAllDeclaration"

/-- The name of a class element's type. -/
def ClassElement.typeName : ClassElement → String
  | .missing => ""
  | .method _ _ _ _ _ _ _ => "MethodDefinition"
  | .field _ _ _ _ _ _ _ => "FieldDefinition"
  | .staticBlock _ _ _ => "ClassStaticBlock"

namespace Node

/-- The name of a node's type. -/
def typeName : Node → String
  | .program _ => "Program"
  | .stmt s => s.typeName
  | .expr e => e.typeName
  | .pattern p => p.typeName
  | .templateElement _ => "TemplateElement"
  | .property .missing => ""
  | .property (.keyed _ _ _ _ _) => "PropertyKeyed"
  | .property (.short _ _) => "PropertyShort"
  | .property (.spread _ _) => "SpreadElement"
  | .element _ => "BindingElement"
  | .patternProperty _ => "PatternProperty"
  | .params _ => "ParameterList"
  | .body _ => "FunctionBody"
  | .classElement e => e.typeName
  | .decorator _ => "Decorator"
  | .declarator _ => "VariableDeclarator"
  | .caseClause _ => "CaseClause"
  | .catchClause _ => "CatchClause"
  | .importSpecifier (.named _ _ _) => "ImportSpecifier"
  | .importSpecifier (.standard _ _) => "ImportDefaultSpecifier"
  | .importSpecifier (.whole _ _) => "ImportNamespaceSpecifier"
  | .importAttribute _ => "ImportAttribute"
  | .exportSpecifier _ => "ExportSpecifier"
  | .directive _ => "Directive"

/-- The range of a node. -/
def span : Node → Span
  | .program p => p.span
  | .stmt s => s.span
  | .expr e => e.span
  | .pattern p => p.span
  | .templateElement t => t.span
  | .property (.keyed s _ _ _ _) | .property (.short s _) | .property (.spread s _) => s
  | .property .missing | .element .hole | .params .missing | .body .missing => {}
  | .element (.bound s _ _) => s
  | .patternProperty p => p.span
  | .params (.list s _ _) => s
  | .body (.block s _ _) => s
  | .classElement e => e.span
  | .decorator d => d.span
  | .declarator d => d.span
  | .caseClause c => c.span
  | .catchClause c => c.span
  | .importSpecifier (.named s _ _) | .importSpecifier (.standard s _) | .importSpecifier
    (.whole s _) => s
  | .importAttribute a => a.span
  | .exportSpecifier s => s.span
  | .directive d => d.span

/-- An identifier as a node. -/
def name (n : Name) : Node :=
  .expr (.identifier n)

/-- A string literal as a node. -/
def string (l : StringLiteral) : Node :=
  .expr (.string l)

/-- A function as a node. -/
def function (f : Function) : Node :=
  .expr (.function f)

/-- Whether a node stands for a part that is missing. -/
def isMissing : Node → Bool
  | .expr .missing | .pattern (.target .missing) | .stmt .missing | .property .missing
  | .classElement .missing | .element .hole | .params .missing | .body .missing => true
  | _ => false

/-- Nothing, or one node. -/
def maybe {α : Type} (f : α → Node) (a : Option α) : List Node :=
  (a.map f).toList

end Node

/-! ## Slots and children -/

/-- Texts and expressions in turn; expressions beyond the last text are left out. -/
def Template.slots : List TemplateElement → List Expr → List Node
  | [], _ => []
  | q :: qs, [] => .templateElement q :: Template.slots qs []
  | q :: qs, e :: es => .templateElement q :: .expr e :: Template.slots qs es

/-- What an arrow function does: its statements, and only without them its expression. -/
def Body.orValue (b : Body) (value : Option Expr) : List Node :=
  match b with
  | .missing => Node.maybe .expr value
  | b => [.body b]

/-- The slots of an expression. -/
def Expr.slots : Expr → List Node
  | .missing | .identifier _ | .privateName _ | .nullLiteral _ | .boolean _ _ | .number _ _ _
  | .bigint _ _ _ | .string _ | .regexp _ _ _ _ | .thisRef _ | .superRef _ => []
  | .template t => Template.slots t.quasis t.expressions
  | .tagged _ tag quasi => [.expr tag, .expr (.template quasi)]
  | .array _ elements => elements.map .expr
  | .object _ properties => properties.map .property
  | .spread _ e | .paren _ e | .unary _ _ e | .await _ e | .update _ _ e _ => [.expr e]
  | .call _ callee args _ | .construct _ callee args => .expr callee :: args.map .expr
  | .member _ base property _ _ => [.expr base, .expr property]
  | .metaProperty _ owner property => Node.maybe .name owner ++ Node.maybe .name property
  | .importCall _ source options => .expr source :: Node.maybe .expr options
  | .binary _ _ left right => [.expr left, .expr right]
  | .conditional _ test consequent alternate => [.expr test, .expr consequent, .expr alternate]
  | .assign _ _ target value => [.pattern target, .expr value]
  | .yield _ argument _ => Node.maybe .expr argument
  | .function f => Node.maybe .name f.name ++ [.params f.params, .body f.body]
  | .arrow _ params body value _ _ => .params params :: body.orValue value
  | .classExpr c =>
    c.decorators.map .decorator ++ Node.maybe .name c.name ++ Node.maybe .expr c.superClass ++
      c.body.map .classElement

/-- The slots of a pattern. -/
def Pattern.slots : Pattern → List Node
  | .target e => e.slots
  | .array _ elements rest => elements.map .element ++ Node.maybe .pattern rest
  | .object _ properties rest => properties.map .patternProperty ++ Node.maybe .pattern rest

/-- The slots of a statement. -/
def Stmt.slots : Stmt → List Node
  | .missing | .empty _ | .debugger _ => []
  | .expression _ e | .raise _ e => [.expr e]
  | .block b => b.body.map .stmt
  | .giveBack _ argument => Node.maybe .expr argument
  | .labelled _ label body => Node.maybe .name label ++ [.stmt body]
  | .breakOff _ label | .carryOn _ label => Node.maybe .name label
  | .branch _ test consequent alternate =>
    .expr test :: .stmt consequent :: Node.maybe .stmt alternate
  | .switch _ discriminant cases _ => .expr discriminant :: cases.map .caseClause
  | .guarded _ main handler finalizer =>
    .stmt (.block main) :: Node.maybe .catchClause handler ++
      Node.maybe (fun b => .stmt (.block b)) finalizer
  | .whileLoop _ test body => [.expr test, .stmt body]
  | .doWhile _ body test => [.stmt body, .expr test]
  | .forLoop _ init test update body _ =>
    init.toList ++ Node.maybe .expr test ++ Node.maybe .expr update ++ [.stmt body]
  | .forIn _ left right body _ | .forOf _ left right body _ _ => [left, .expr right, .stmt body]
  | .declaration d => d.list.map .declarator
  | .function _ f => [.function f]
  | .classDecl _ c => [.expr (.classExpr c)]
  | .importDecl _ specifiers source attributes =>
    specifiers ++ .string source :: attributes.map .importAttribute
  | .exportNamed _ declared specifiers source attributes =>
    Node.maybe .stmt declared ++ specifiers.map .exportSpecifier ++ Node.maybe .string source ++
      attributes.map .importAttribute
  | .exportDefault _ declared => [declared]
  | .exportAll _ exported source attributes =>
    Node.maybe .name exported ++ .string source :: attributes.map .importAttribute

/-- The slots of a class element. -/
def ClassElement.slots : ClassElement → List Node
  | .missing => []
  | .method _ key _ _ _ function decorators =>
    decorators.map .decorator ++ .expr key :: Node.maybe .function function
  | .field _ key _ _ _ initializer decorators =>
    decorators.map .decorator ++ .expr key :: Node.maybe .expr initializer
  | .staticBlock _ body _ => body.map .stmt

namespace Node

/-- The slots of a node, in order of the source. -/
def slots : Node → List Node
  | .program p => p.directives.map .directive ++ p.body.map .stmt
  | .stmt s => s.slots
  | .expr e => e.slots
  | .pattern p => p.slots
  | .templateElement _ | .directive _ => []
  | .property .missing => []
  | .property (.keyed _ key _ _ value) => [.expr key, .expr value]
  | .property (.short _ n) => Node.maybe .name n
  | .property (.spread _ e) => [.expr e]
  | .element .hole | .params .missing | .body .missing => []
  | .element (.bound _ target fallback) => .pattern target :: Node.maybe .expr fallback
  | .patternProperty p =>
    (if p.shorthand then [] else [.expr p.key]) ++ .pattern p.value :: Node.maybe .expr p.fallback
  | .params (.list _ items rest) => items.map .element ++ Node.maybe .pattern rest
  | .body (.block _ directives items) => directives.map .directive ++ items.map .stmt
  | .classElement e => e.slots
  | .decorator d => [.expr d.expression]
  | .declarator d => .pattern d.target :: Node.maybe .expr d.initializer
  | .caseClause c => Node.maybe .expr c.test ++ c.consequent.map .stmt
  | .catchClause c => Node.maybe .pattern c.param ++ c.body.map .stmt
  | .importSpecifier (.named _ imported inner) => [.name imported, .name inner]
  | .importSpecifier (.standard _ inner) | .importSpecifier (.whole _ inner) =>
    Node.maybe .name inner
  | .importAttribute a => [.string a.value]
  | .exportSpecifier s => Node.maybe .name s.inner ++ Node.maybe .name s.exported

/-- The children of a node, in order of the source: what is there in its slots. -/
def children (n : Node) : List Node :=
  n.slots.filter fun c => !c.isMissing

end Node

/-! ## A child is smaller than its parent -/

/-- Every node of a list is smaller than a bound. -/
def Node.Below (bound : Nat) (nodes : List Node) : Prop :=
  ∀ c ∈ nodes, sizeOf c < bound

namespace Node.Below

@[simp] theorem nil {b : Nat} : Node.Below b [] := nofun

@[simp] theorem cons {b : Nat} {n : Node} {ns : List Node} :
    Node.Below b (n :: ns) ↔ sizeOf n < b ∧ Node.Below b ns := by
  simp [Node.Below]

@[simp] theorem append {b : Nat} {ms ns : List Node} :
    Node.Below b (ms ++ ns) ↔ Node.Below b ms ∧ Node.Below b ns := by
  simp only [Node.Below, List.mem_append]
  exact ⟨fun h => ⟨fun c hc => h c (.inl hc), fun c hc => h c (.inr hc)⟩,
    fun h c hc => hc.elim (h.1 c) (h.2 c)⟩

theorem weaken {a b : Nat} {ns : List Node} (h : Node.Below a ns) (hab : a ≤ b) : Node.Below b ns :=
  fun c hc => Nat.lt_of_lt_of_le (h c hc) hab

theorem map {α : Type} [SizeOf α] {b : Nat} {f : α → Node} {xs : List α}
    (h : ∀ x, sizeOf x < sizeOf xs → sizeOf (f x) < b) : Node.Below b (xs.map f) := by
  intro c hc
  obtain ⟨x, hx, rfl⟩ := List.mem_map.1 hc
  exact h x (List.sizeOf_lt_of_mem hx)

theorem maybe {α : Type} [SizeOf α] {b : Nat} {f : α → Node} {a : Option α}
    (h : ∀ x, sizeOf x < sizeOf a → sizeOf (f x) < b) : Node.Below b (Node.maybe f a) := by
  cases a with
  | none => simp [Node.maybe]
  | some x => simpa [Node.maybe] using h x (by simp)

theorem list {b : Nat} {ns : List Node} (h : sizeOf ns ≤ b) : Node.Below b ns :=
  fun _ hc => Nat.lt_of_lt_of_le (List.sizeOf_lt_of_mem hc) h

theorem option {b : Nat} {n : Option Node} (h : sizeOf n ≤ b) : Node.Below b n.toList := by
  cases n with
  | none => simp
  | some n => simp at *; omega

end Node.Below

theorem Span.sizeOf_eq (s : Span) : sizeOf s = 1 + sizeOf s.start + sizeOf s.stop := by
  cases s
  simp

theorem Template.slots_below {b : Nat} {qs : List TemplateElement} {es : List Expr}
    (h : sizeOf qs + sizeOf es < b) : Node.Below b (Template.slots qs es) := by
  induction qs generalizing es with
  | nil => simp [Template.slots]
  | cons q qs ih =>
    cases es with
    | nil =>
      simp [Template.slots] at *
      exact ⟨by omega, ih (by simp at *; omega)⟩
    | cons e es =>
      simp [Template.slots] at *
      exact ⟨by omega, by omega, ih (by omega)⟩

theorem Body.orValue_below (x : Body) (value : Option Expr) :
    Node.Below (1 + sizeOf x + sizeOf value) (x.orValue value) := by
  cases x with
  | missing => exact Node.Below.maybe fun y hy => by simp; omega
  | block =>
    have hpos : 0 < sizeOf value := by
      cases value with
      | none => exact Nat.one_pos
      | some => exact Nat.lt_of_lt_of_le Nat.one_pos (Nat.le_add_right 1 _)
    refine Node.Below.cons.2 ⟨?_, Node.Below.nil⟩
    rw [Node.body.sizeOf_spec]
    omega

theorem Expr.slots_below (e : Expr) : Node.Below (1 + sizeOf e) e.slots := by
  cases e
  case template t =>
    cases t
    exact Template.slots_below (by simp; omega)
  case arrow s p x v a e =>
    exact Node.Below.cons.2 ⟨by simp [Span.sizeOf_eq]; omega,
      (x.orValue_below v).weaken (by simp [Span.sizeOf_eq]; omega)⟩
  case function f =>
    cases f
    simp only [Expr.slots, Node.Below.append, Node.Below.cons, Node.Below.nil]
    exact ⟨Node.Below.maybe fun x hx => by simp [Node.name] at *; omega,
      by simp [Span.sizeOf_eq]; omega,
      by simp [Span.sizeOf_eq]; omega, trivial⟩
  case classExpr c =>
    cases c
    simp only [Expr.slots, Node.Below.append]
    refine ⟨⟨⟨Node.Below.map fun x hx => ?_, Node.Below.maybe fun x hx => ?_⟩,
      Node.Below.maybe fun x hx => ?_⟩,
      Node.Below.map fun x hx => ?_⟩ <;> simp [Node.name, Span.sizeOf_eq] at * <;> omega
  case metaProperty =>
    exact Node.Below.append.2 ⟨Node.Below.maybe fun x hx => by simp [Node.name] at *; omega,
      Node.Below.maybe fun x hx => by simp [Node.name] at *; omega⟩
  all_goals simp [Expr.slots, Span.sizeOf_eq]
  all_goals try omega
  all_goals try (refine ⟨by omega, ?_⟩)
  all_goals first
    | exact Node.Below.map fun x hx => by simp at *; omega
    | exact Node.Below.maybe fun x hx => by simp at *; omega

theorem Pattern.slots_below (p : Pattern) : Node.Below (1 + sizeOf p) p.slots := by
  cases p
  case target e => exact (Expr.slots_below e).weaken (by simp)
  all_goals
    exact Node.Below.append.2 ⟨Node.Below.map fun x hx => by simp at *; omega,
      Node.Below.maybe fun x hx => by simp at *; omega⟩

theorem Stmt.slots_below (s : Stmt) : Node.Below (1 + sizeOf s) s.slots := by
  cases s
  case block b =>
    cases b
    exact Node.Below.map fun x hx => by simp [Span.sizeOf_eq] at *; omega
  case declaration d =>
    cases d
    exact Node.Below.map fun x hx => by simp [Span.sizeOf_eq] at *; omega
  case forLoop s i t u b sc =>
    simp only [Stmt.slots, Node.Below.append, Node.Below.cons, Node.Below.nil]
    exact ⟨⟨⟨Node.Below.option (by simp; omega), Node.Below.maybe fun x hx => by simp at *; omega⟩,
      Node.Below.maybe fun x hx => by simp at *; omega⟩, by simp [Span.sizeOf_eq]; omega, trivial⟩
  case labelled =>
    simp only [Stmt.slots, Node.Below.append, Node.Below.cons, Node.Below.nil, and_true]
    exact ⟨Node.Below.maybe fun x hx => by simp [Node.name] at *; omega,
      by simp only [Node.stmt.sizeOf_spec, Stmt.labelled.sizeOf_spec]; omega⟩
  case exportNamed =>
    simp only [Stmt.slots, Node.Below.append]
    refine ⟨⟨⟨Node.Below.maybe fun x hx => ?_, Node.Below.map fun x hx => ?_⟩,
      Node.Below.maybe fun x hx => ?_⟩,
      Node.Below.map fun x hx => ?_⟩ <;> simp [Node.string, Span.sizeOf_eq] at * <;> omega
  case exportAll =>
    simp only [Stmt.slots, Node.Below.append, Node.Below.cons]
    refine ⟨Node.Below.maybe fun x hx => ?_, ?_, Node.Below.map fun x hx => ?_⟩ <;>
      simp [Node.string, Node.name, Span.sizeOf_eq] at * <;> omega
  case importDecl =>
    simp only [Stmt.slots, Node.Below.append, Node.Below.cons]
    refine ⟨Node.Below.list (by simp; omega), ?_, Node.Below.map fun x hx => ?_⟩ <;>
      simp [Node.string, Span.sizeOf_eq] at * <;> omega
  case guarded =>
    simp only [Stmt.slots, Node.Below.append, Node.Below.cons]
    refine ⟨⟨?_, Node.Below.maybe fun x hx => ?_⟩, Node.Below.maybe fun x hx => ?_⟩ <;>
      simp [Span.sizeOf_eq] at * <;> omega
  all_goals simp [Stmt.slots, Node.function, Span.sizeOf_eq]
  all_goals try omega
  all_goals try (refine ⟨by omega, ?_⟩)
  all_goals try (refine ⟨by omega, ?_⟩)
  all_goals first
    | exact Node.Below.map fun x hx => by simp at *; omega
    | exact Node.Below.maybe fun x hx => by simp [Node.name] at *; omega

theorem ClassElement.slots_below (e : ClassElement) : Node.Below (1 + sizeOf e) e.slots := by
  cases e
  case missing => exact Node.Below.nil
  case method =>
    simp only [ClassElement.slots, Node.Below.append, Node.Below.cons]
    exact ⟨Node.Below.map fun x hx => by simp at *; omega, by simp [Span.sizeOf_eq]; omega,
      Node.Below.maybe fun x hx => by simp [Node.function] at *; omega⟩
  case field =>
    simp only [ClassElement.slots, Node.Below.append, Node.Below.cons]
    exact ⟨Node.Below.map fun x hx => by simp at *; omega, by simp [Span.sizeOf_eq]; omega,
      Node.Below.maybe fun x hx => by simp at *; omega⟩
  case staticBlock => exact Node.Below.map fun x hx => by simp at *; omega

namespace Node

theorem slots_below (n : Node) : Node.Below (sizeOf n) n.slots := by
  cases n
  case stmt s => simpa [slots] using Stmt.slots_below s
  case expr e => simpa [slots] using Expr.slots_below e
  case pattern p => simpa [slots] using Pattern.slots_below p
  case classElement e => simpa [slots] using ClassElement.slots_below e
  case importSpecifier s =>
    cases s
    case named => simp [slots, name, Span.sizeOf_eq]; omega
    all_goals exact Node.Below.maybe fun x hx => by simp [name] at *; omega
  case property p =>
    cases p
    case short => exact Node.Below.maybe fun x hx => by simp [name] at *; omega
    all_goals simp [slots, Span.sizeOf_eq]
    all_goals omega
  case exportSpecifier s =>
    cases s
    exact Node.Below.append.2 ⟨Node.Below.maybe fun x hx => by simp [name] at *; omega,
      Node.Below.maybe fun x hx => by simp [name] at *; omega⟩
  case importAttribute a => cases a; simp [slots, string, Span.sizeOf_eq]; omega
  case decorator d =>
    cases d
    simp only [slots, Node.Below.cons, Node.Below.nil, and_true, Node.expr.sizeOf_spec,
      Node.decorator.sizeOf_spec, Decorator.mk.sizeOf_spec]
    omega
  case patternProperty p =>
    cases p
    simp only [slots, Node.Below.append, Node.Below.cons]
    refine ⟨?_, by simp [Span.sizeOf_eq] at *; omega, Node.Below.maybe fun x hx => by
      simp [Span.sizeOf_eq] at *; omega⟩
    split <;> simp
    omega
  case program p =>
    cases p
    exact Node.Below.append.2 ⟨Node.Below.map fun x hx => by simp at *; omega,
      Node.Below.map fun x hx => by simp at *; omega⟩
  case body b =>
    cases b
    case missing => exact Node.Below.nil
    case block =>
      exact Node.Below.append.2 ⟨Node.Below.map fun x hx => by simp at *; omega,
        Node.Below.map fun x hx => by simp at *; omega⟩
  case params p =>
    cases p
    case missing => exact Node.Below.nil
    case list =>
      exact Node.Below.append.2 ⟨Node.Below.map fun x hx => by simp at *; omega,
        Node.Below.maybe fun x hx => by simp at *; omega⟩
  case caseClause c =>
    cases c
    exact Node.Below.append.2 ⟨Node.Below.maybe fun x hx => by simp at *; omega,
      Node.Below.map fun x hx => by simp at *; omega⟩
  case catchClause c =>
    cases c
    exact Node.Below.append.2 ⟨Node.Below.maybe fun x hx => by simp at *; omega,
      Node.Below.map fun x hx => by simp at *; omega⟩
  case element e =>
    cases e
    case hole => exact Node.Below.nil
    case bound =>
      exact Node.Below.cons.2 ⟨by simp; omega, Node.Below.maybe fun x hx => by simp at *; omega⟩
  case declarator d =>
    cases d
    exact Node.Below.cons.2 ⟨by simp; omega, Node.Below.maybe fun x hx => by simp at *; omega⟩
  all_goals exact Node.Below.nil

/-- A child is smaller than its parent. -/
theorem sizeOf_lt_of_mem_children {n c : Node} (h : c ∈ n.children) : sizeOf c < sizeOf n :=
  n.slots_below c (List.mem_filter.1 h).1

/-- The nodes of a tree in order of the source, each before its children, leaving out what lies
below a node that fails a test. -/
def walkWhere (descend : Node → Bool) (n : Node) : List Node :=
  n :: if descend n then n.children.attach.flatMap fun ⟨c, _⟩ => walkWhere descend c else []
termination_by sizeOf n
decreasing_by exact sizeOf_lt_of_mem_children ‹_›

/-- The nodes of a tree in order of the source, each before its children. -/
def walk (n : Node) : List Node :=
  n.walkWhere fun _ => true

/-- A node's type and range on one line. -/
def summary (n : Node) : String :=
  n.typeName ++ " " ++ toString n.span.start ++ "-" ++ toString n.span.stop

end Node

end EcmaStack

import EcmaStack.Document.Json
import EcmaStack.Source.File
import EcmaStack.Tree.Node

/-!
# Trees as data

A node is described by a record: its type, its location and one field for each of its parts. A
part that is missing is described as nothing. Nodes with a scope describe it; function-like
nodes describe the names they capture, and the scope of their own name where they have one.

`Node.fields` is one node's own fields, with the nodes in them left as nodes; `Node.describe`
goes all the way down.
-/

namespace EcmaStack

/-- What a field of a node holds. -/
inductive Field where
  | value (d : Datum)
  | node (n : Option Node)
  | nodes (ns : List Node)

/-- The nodes in a field. -/
def Field.parts : Field → List Node
  | .value _ => []
  | .node n => n.toList
  | .nodes ns => ns

namespace Field

/-- A field with a text. -/
def text (s : String) : Field :=
  .value (.text s)

/-- A field with a text of the source, which may hold stray bytes. -/
def literal (t : Text) : Field :=
  .value (.ofText t)

/-- A field with a truth value. -/
def flag (b : Bool) : Field :=
  .value (.bool b)

/-- A field with one node. -/
def one (n : Node) : Field :=
  .node (some n)

/-- A field with a node that may be missing. -/
def maybe {α : Type} (f : α → Node) (a : Option α) : Field :=
  .node (a.map f)

/-- A field with a list of nodes. -/
def list {α : Type} (f : α → Node) (xs : List α) : Field :=
  .nodes (xs.map f)

end Field

/-- A variable as data. -/
def Variable.describe (v : Variable) : Datum :=
  .record [("name", .text v.name), ("kind", .text v.kind.word)]

/-- A scope as data. -/
def Scope.describe (s : Scope) : Datum :=
  .record [("kind", .text s.kind.word), ("async", .bool s.async), ("generator", .bool s.generator),
    ("variables", .list (s.bindings.map Variable.describe))]

/-- A scope that may be missing, as data. -/
def describeScope (s : Option Scope) : Field :=
  .value ((s.map Scope.describe).getD .null)

/-- The fields that tell of a function-like node's surroundings. -/
def Env.fields (e : Env) : List (String × Field) :=
  [("scope", describeScope e.scope), ("closure", .value (.texts e.closure))] ++
    match e.nameScope with
    | some s => [("nameScope", .value s.describe)]
    | none => []

/-- The value of a big integer as a field. -/
def Field.integer (value : Option Int) : Field :=
  .value ((value.map fun n => .text (toString n)).getD .null)

/-- The fields of an expression. -/
def Expr.fields : Expr → List (String × Field)
  | .identifier n | .privateName n => [("name", .text n.text)]
  | .missing | .nullLiteral _ | .thisRef _ | .superRef _ => []
  | .boolean _ value => [("value", .flag value)]
  | .number _ raw value => [("raw", .text raw), ("value", .value (.number value))]
  | .bigint _ raw value => [("raw", .text raw), ("value", .integer value)]
  | .string l => [("raw", .literal l.raw), ("value", .literal l.value)]
  | .regexp _ raw pattern flags =>
    [("raw", .literal raw), ("pattern", .literal pattern), ("flags", .text flags)]
  | .template t =>
    [("quasis", .list .templateElement t.quasis), ("expressions", .list .expr t.expressions)]
  | .tagged _ tag quasi => [("tag", .one (.expr tag)), ("quasi", .one (.expr (.template quasi)))]
  | .array _ elements => [("elements", .list .expr elements)]
  | .object _ properties => [("properties", .list .property properties)]
  | .spread _ e | .await _ e => [("argument", .one (.expr e))]
  | .paren _ e => [("expression", .one (.expr e))]
  | .call _ callee args optional =>
    [("callee", .one (.expr callee)), ("arguments", .list .expr args), ("optional", .flag optional)]
  | .construct _ callee args => [("callee", .one (.expr callee)), ("arguments", .list .expr args)]
  | .member _ base property computed optional =>
    [("object", .one (.expr base)), ("property", .one (.expr property)),
      ("computed", .flag computed), ("optional", .flag optional)]
  | .metaProperty _ owner property =>
    [("meta", .maybe .name owner), ("property", .maybe .name property)]
  | .importCall _ source options =>
    [("source", .one (.expr source)), ("options", .maybe .expr options)]
  | .unary _ op operand => [("operator", .text op.describe), ("operand", .one (.expr operand))]
  | .update _ op operand before =>
    [("operator", .text op.describe), ("operand", .one (.expr operand)), ("prefix", .flag before)]
  | .binary _ op left right =>
    [("operator", .text op.describe), ("left", .one (.expr left)), ("right", .one (.expr right))]
  | .conditional _ test consequent alternate =>
    [("test", .one (.expr test)), ("consequent", .one (.expr consequent)),
      ("alternate", .one (.expr alternate))]
  | .assign _ op target value =>
    [("operator", .text op.describe), ("left", .one (.pattern target)),
      ("right", .one (.expr value))]
  | .yield _ argument delegate =>
    [("argument", .maybe .expr argument), ("delegate", .flag delegate)]
  | .function f =>
    [("name", .maybe .name f.name), ("params", .one (.params f.params)),
      ("body", .one (.body f.body)), ("async", .flag f.async), ("generator", .flag f.generator)] ++
      f.env.fields
  | .arrow _ params body value async env =>
    [("params", .one (.params params)), ("body", .one (.body body)),
      ("expression", .maybe .expr value), ("async", .flag async)] ++ env.fields
  | .classExpr c =>
    [("name", .maybe .name c.name), ("superClass", .maybe .expr c.superClass),
      ("body", .list .classElement c.body), ("decorators", .list .decorator c.decorators)] ++
      c.env.fields

/-- The fields of a pattern. -/
def Pattern.fields : Pattern → List (String × Field)
  | .target e => e.fields
  | .array _ elements rest =>
    [("elements", .list .element elements), ("rest", .maybe .pattern rest)]
  | .object _ properties rest =>
    [("properties", .list .patternProperty properties), ("rest", .maybe .pattern rest)]

/-- The fields of a statement. -/
def Stmt.fields : Stmt → List (String × Field)
  | .missing | .empty _ | .debugger _ => []
  | .expression _ e => [("expression", .one (.expr e))]
  | .block b => [("body", .list .stmt b.body), ("scope", describeScope b.scope)]
  | .giveBack _ argument => [("argument", .maybe .expr argument)]
  | .raise _ argument => [("argument", .one (.expr argument))]
  | .labelled _ label body => [("label", .maybe .name label), ("body", .one (.stmt body))]
  | .breakOff _ label | .carryOn _ label => [("label", .maybe .name label)]
  | .branch _ test consequent alternate =>
    [("test", .one (.expr test)), ("consequent", .one (.stmt consequent)),
      ("alternate", .maybe .stmt alternate)]
  | .switch _ discriminant cases scope =>
    [("discriminant", .one (.expr discriminant)), ("cases", .list .caseClause cases),
      ("scope", describeScope scope)]
  | .guarded _ main handler finalizer =>
    [("block", .one (.stmt (.block main))), ("handler", .maybe .catchClause handler),
      ("finalizer", .maybe (fun b => .stmt (.block b)) finalizer)]
  | .whileLoop _ test body | .doWhile _ body test =>
    [("test", .one (.expr test)), ("body", .one (.stmt body))]
  | .forLoop _ init test update body scope =>
    [("init", .node init), ("test", .maybe .expr test), ("update", .maybe .expr update),
      ("body", .one (.stmt body)), ("scope", describeScope scope)]
  | .forIn _ left right body scope =>
    [("left", .one left), ("right", .one (.expr right)), ("body", .one (.stmt body)),
      ("scope", describeScope scope)]
  | .forOf _ left right body await scope =>
    [("left", .one left), ("right", .one (.expr right)), ("body", .one (.stmt body)),
      ("await", .flag await), ("scope", describeScope scope)]
  | .declaration d => [("kind", .text d.kind.word), ("list", .list .declarator d.list)]
  | .function _ f => [("function", .one (.function f))]
  | .classDecl _ c => [("class", .one (.expr (.classExpr c)))]
  | .importDecl _ specifiers source attributes =>
    [("specifiers", .nodes specifiers), ("source", .one (.string source)),
      ("attributes", .list .importAttribute attributes)]
  | .exportNamed _ declared specifiers source attributes =>
    [("declaration", .maybe .stmt declared), ("specifiers", .list .exportSpecifier specifiers),
      ("source", .maybe .string source), ("attributes", .list .importAttribute attributes)]
  | .exportDefault _ declared => [("declaration", .one declared)]
  | .exportAll _ exported source attributes =>
    [("exported", .maybe .name exported), ("source", .one (.string source)),
      ("attributes", .list .importAttribute attributes)]

/-- The fields of a class element. -/
def ClassElement.fields : ClassElement → List (String × Field)
  | .missing => []
  | .method _ key computed static kind function decorators =>
    [("key", .one (.expr key)), ("computed", .flag computed), ("static", .flag static),
      ("kind", .text kind.word), ("function", .maybe .function function),
      ("decorators", .list .decorator decorators)]
  | .field _ key computed static accessor initializer decorators =>
    [("key", .one (.expr key)), ("computed", .flag computed), ("static", .flag static),
      ("accessor", .flag accessor), ("initializer", .maybe .expr initializer),
      ("decorators", .list .decorator decorators)]
  | .staticBlock _ body env => ("body", .list .stmt body) :: env.fields

namespace Node

/-- The fields of a node. -/
def fields : Node → List (String × Field)
  | .program p =>
    [("interpreter", .literal p.interpreter), ("directives", .list .directive p.directives),
      ("body", .list .stmt p.body), ("module", .flag p.module), ("scope", describeScope p.scope)]
  | .stmt s => s.fields
  | .expr e => e.fields
  | .pattern p => p.fields
  | .templateElement t => [("raw", .literal t.raw), ("cooked", .literal t.cooked)]
  | .directive d => [("value", .literal d.value)]
  | .property .missing | .element .hole | .params .missing | .body .missing => []
  | .property (.keyed _ key computed kind value) =>
    [("key", .one (.expr key)), ("computed", .flag computed), ("kind", .text kind.word),
      ("value", .one (.expr value))]
  | .property (.short _ n) => [("name", .maybe .name n)]
  | .property (.spread _ e) => [("argument", .one (.expr e))]
  | .element (.bound _ target fallback) =>
    [("target", .one (.pattern target)), ("default", .maybe .expr fallback)]
  | .patternProperty p =>
    [("key", .one (.expr p.key)), ("computed", .flag p.computed),
      ("value", .one (.pattern p.value)), ("default", .maybe .expr p.fallback),
      ("shorthand", .flag p.shorthand)]
  | .params (.list _ items rest) => [("list", .list .element items), ("rest", .maybe .pattern rest)]
  | .body (.block _ directives items) =>
    [("directives", .list .directive directives), ("body", .list .stmt items)]
  | .classElement e => e.fields
  | .decorator d => [("expression", .one (.expr d.expression))]
  | .declarator d =>
    [("target", .one (.pattern d.target)), ("initializer", .maybe .expr d.initializer)]
  | .caseClause c => [("test", .maybe .expr c.test), ("consequent", .list .stmt c.consequent)]
  | .catchClause c =>
    [("param", .maybe .pattern c.param), ("body", .list .stmt c.body),
      ("scope", describeScope c.scope)]
  | .importSpecifier (.named _ imported inner) =>
    [("imported", .one (.name imported)), ("local", .one (.name inner))]
  | .importSpecifier (.standard _ inner) | .importSpecifier (.whole _ inner) =>
    [("local", .maybe .name inner)]
  | .importAttribute a => [("key", .literal a.key), ("value", .one (.string a.value))]
  | .exportSpecifier s => [("local", .maybe .name s.inner), ("exported", .maybe .name s.exported)]

/-- The nodes in a node's fields. -/
def parts (n : Node) : List Node :=
  n.fields.flatMap fun f => f.2.parts

end Node

/-! ## A part is smaller than its whole -/

section Parts

variable {b : Nat}

/-- The nodes in some fields are smaller than a bound. -/
def Field.AllBelow (b : Nat) (fields : List (String × Field)) : Prop :=
  ∀ f ∈ fields, Node.Below b f.2.parts

@[simp] theorem Field.allBelow_nil : Field.AllBelow b [] := nofun

@[simp] theorem Field.allBelow_cons {f : String × Field} {fs : List (String × Field)} :
    Field.AllBelow b (f :: fs) ↔ Node.Below b f.2.parts ∧ Field.AllBelow b fs := by
  simp [Field.AllBelow]

@[simp] theorem Field.allBelow_append {fs gs : List (String × Field)} :
    Field.AllBelow b (fs ++ gs) ↔ Field.AllBelow b fs ∧ Field.AllBelow b gs := by
  simp only [Field.AllBelow, List.mem_append]
  exact ⟨fun h => ⟨fun f hf => h f (.inl hf), fun f hf => h f (.inr hf)⟩,
    fun h f hf => hf.elim (h.1 f) (h.2 f)⟩

@[simp] theorem Field.parts_value (d : Datum) : (Field.value d).parts = [] := rfl

@[simp] theorem Field.parts_text (s : String) : (Field.text s).parts = [] := rfl

@[simp] theorem Field.parts_literal (t : Text) : (Field.literal t).parts = [] := rfl

@[simp] theorem Field.parts_flag (x : Bool) : (Field.flag x).parts = [] := rfl

@[simp] theorem Field.parts_scope (s : Option Scope) : (describeScope s).parts = [] := rfl

@[simp] theorem Field.parts_one (n : Node) : (Field.one n).parts = [n] := rfl

@[simp] theorem Field.parts_node (n : Option Node) : (Field.node n).parts = n.toList := rfl

@[simp] theorem Field.parts_nodes (ns : List Node) : (Field.nodes ns).parts = ns := rfl

@[simp] theorem Field.parts_maybe {α : Type} (f : α → Node) (a : Option α) :
    (Field.maybe f a).parts = Node.maybe f a := rfl

@[simp] theorem Field.parts_list {α : Type} (f : α → Node) (xs : List α) :
    (Field.list f xs).parts = xs.map f :=
  rfl

@[simp] theorem Field.parts_integer (n : Option Int) : (Field.integer n).parts = [] := rfl

@[simp] theorem Env.fields_below (e : Env) : Field.AllBelow b e.fields := by
  cases e with
  | mk scope nameScope closure => cases nameScope <;> simp [Env.fields]

theorem Expr.fields_below (e : Expr) : Field.AllBelow (1 + sizeOf e) e.fields := by
  cases e
  case template t =>
    cases t
    simp only [Expr.fields, Field.allBelow_cons, Field.parts_list, Field.allBelow_nil, and_true]
    exact ⟨Node.Below.map fun x hx => by simp; omega, Node.Below.map fun x hx => by simp; omega⟩
  case arrow s p x v a e =>
    simp only [Expr.fields, Field.allBelow_append, Field.allBelow_cons, Field.allBelow_nil,
      Env.fields_below, and_true, Field.parts_one, Field.parts_maybe, Node.Below.cons,
      Node.Below.nil]
    exact ⟨by simp [Span.sizeOf_eq]; omega, by simp [Span.sizeOf_eq]; omega,
      Node.Below.maybe fun y hy => by simp; omega, Node.Below.nil⟩
  case function f =>
    cases f with
    | mk s n p x a g e =>
      simp only [Expr.fields, Field.allBelow_append, Field.allBelow_cons, Field.allBelow_nil,
        Env.fields_below, and_true, Field.parts_one, Field.parts_maybe, Node.Below.cons,
        Node.Below.nil]
      exact ⟨Node.Below.maybe fun y hy => by simp [Node.name]; omega,
        by simp [Span.sizeOf_eq]; omega,
        by simp [Span.sizeOf_eq]; omega, Node.Below.nil, Node.Below.nil⟩
  case classExpr c =>
    cases c
    simp only [Expr.fields, Field.allBelow_append, Field.allBelow_cons, Field.allBelow_nil,
      Env.fields_below, and_true, Field.parts_maybe, Field.parts_list]
    exact ⟨Node.Below.maybe fun y hy => by simp [Node.name]; omega, Node.Below.maybe fun y hy => by
      simp; omega,
      Node.Below.map fun y hy => by simp; omega, Node.Below.map fun y hy => by simp; omega⟩
  case metaProperty =>
    simp only [Expr.fields, Field.allBelow_cons, Field.parts_maybe, Field.allBelow_nil, and_true]
    exact ⟨Node.Below.maybe fun y hy => by simp [Node.name]; omega,
      Node.Below.maybe fun y hy => by simp [Node.name]; omega⟩
  all_goals simp [Expr.fields, Span.sizeOf_eq]
  all_goals try omega
  all_goals try (refine ⟨by omega, ?_⟩)
  all_goals first
    | exact Node.Below.map fun x hx => by simp; omega
    | exact Node.Below.maybe fun x hx => by simp; omega

theorem Pattern.fields_below (p : Pattern) : Field.AllBelow (1 + sizeOf p) p.fields := by
  cases p
  case target e =>
    intro f hf
    exact (Expr.fields_below e f hf).weaken (by simp)
  all_goals
    simp only [Pattern.fields, Field.allBelow_cons, Field.allBelow_nil, Field.parts_list,
      Field.parts_maybe, and_true]
    exact ⟨Node.Below.map fun x hx => by simp; omega, Node.Below.maybe fun x hx => by simp; omega⟩

theorem Stmt.fields_below (s : Stmt) : Field.AllBelow (1 + sizeOf s) s.fields := by
  cases s
  case forLoop s i t u d sc =>
    simp only [Stmt.fields, Field.allBelow_cons, Field.parts_maybe, Field.parts_one,
      Field.parts_scope, Node.Below.cons, Node.Below.nil, Field.allBelow_nil, and_true]
    exact ⟨Node.Below.option (by simp; omega), Node.Below.maybe fun x hx => by simp; omega,
      Node.Below.maybe fun x hx => by simp; omega, by simp [Span.sizeOf_eq]; omega⟩
  case block x =>
    cases x
    simp only [Stmt.fields, Field.allBelow_cons, Field.parts_list, Field.parts_scope,
      Node.Below.nil, Field.allBelow_nil, and_true]
    exact Node.Below.map fun x hx => by simp; omega
  case declaration x =>
    cases x
    simp only [Stmt.fields, Field.allBelow_cons, Field.parts_list, Field.parts_text, Node.Below.nil,
      Field.allBelow_nil, and_true, true_and]
    exact Node.Below.map fun x hx => by simp; omega
  case guarded =>
    simp only [Stmt.fields, Field.allBelow_cons, Field.parts_maybe, Field.parts_one,
      Node.Below.cons, Node.Below.nil, Field.allBelow_nil, and_true]
    exact ⟨by simp [Span.sizeOf_eq]; omega, Node.Below.maybe fun x hx => by simp; omega,
      Node.Below.maybe fun x hx => by simp; omega⟩
  case labelled =>
    simp only [Stmt.fields, Field.allBelow_cons, Field.parts_maybe, Field.parts_one,
      Node.Below.cons, Node.Below.nil, Field.allBelow_nil, and_true]
    exact ⟨Node.Below.maybe fun x hx => by simp [Node.name]; omega,
      by simp only [Node.stmt.sizeOf_spec, Stmt.labelled.sizeOf_spec]; omega⟩
  case exportNamed =>
    simp only [Stmt.fields, Field.allBelow_cons, Field.parts_maybe, Field.parts_list,
      Field.allBelow_nil, and_true]
    exact ⟨Node.Below.maybe fun x hx => by simp; omega, Node.Below.map fun x hx => by simp; omega,
      Node.Below.maybe fun x hx => by simp [Node.string]; omega, Node.Below.map fun x hx => by
        simp; omega⟩
  case exportAll =>
    simp only [Stmt.fields, Field.allBelow_cons, Field.parts_maybe, Field.parts_list,
      Field.parts_one, Node.Below.cons, Node.Below.nil, Field.allBelow_nil, and_true]
    exact ⟨Node.Below.maybe fun x hx => by simp [Node.name]; omega,
      by simp [Node.string, Span.sizeOf_eq]; omega,
      Node.Below.map fun x hx => by simp; omega⟩
  case importDecl =>
    simp only [Stmt.fields, Field.allBelow_cons, Field.parts_list, Field.parts_nodes,
      Field.parts_one, Node.Below.cons, Node.Below.nil, Field.allBelow_nil, and_true]
    exact ⟨Node.Below.list (by simp; omega), by simp [Node.string, Span.sizeOf_eq]; omega,
      Node.Below.map fun x hx => by simp; omega⟩
  all_goals simp [Stmt.fields, Node.function, Span.sizeOf_eq]
  all_goals try omega
  all_goals try (refine ⟨by omega, ?_⟩)
  all_goals try (refine ⟨by omega, ?_⟩)
  all_goals first
    | exact Node.Below.map fun x hx => by simp; omega
    | exact Node.Below.maybe fun x hx => by simp [Node.name]; omega

theorem ClassElement.fields_below (e : ClassElement) : Field.AllBelow (1 + sizeOf e) e.fields := by
  cases e <;> simp only [ClassElement.fields, Field.allBelow_cons, Field.parts_list,
    Field.parts_one, Field.parts_flag, Field.parts_text, Field.parts_maybe, Node.Below.cons,
    Node.Below.nil, Field.allBelow_nil, Env.fields_below, and_true, true_and]
  case method =>
    exact ⟨by simp; omega, Node.Below.maybe fun x hx => by simp [Node.function]; omega,
      Node.Below.map fun x hx => by simp; omega⟩
  case field =>
    exact ⟨by simp; omega, Node.Below.maybe fun x hx => by
      simp; omega, Node.Below.map fun x hx => by simp; omega⟩
  case staticBlock => exact Node.Below.map fun x hx => by simp; omega

theorem Node.fields_below (n : Node) : Field.AllBelow (sizeOf n) n.fields := by
  cases n
  case stmt s => simpa [Node.fields] using Stmt.fields_below s
  case expr e => simpa [Node.fields] using Expr.fields_below e
  case pattern p => simpa [Node.fields] using Pattern.fields_below p
  case classElement e => simpa [Node.fields] using ClassElement.fields_below e
  case importSpecifier s =>
    cases s
    case named => simp [Node.fields, Node.name, Span.sizeOf_eq]; omega
    all_goals
      simp only [Node.fields, Field.allBelow_cons, Field.parts_maybe, Field.allBelow_nil, and_true]
      exact Node.Below.maybe fun x hx => by simp [Node.name]; omega
  case property p =>
    cases p
    case short =>
      simp only [Node.fields, Field.allBelow_cons, Field.parts_maybe, Field.allBelow_nil, and_true]
      exact Node.Below.maybe fun x hx => by simp [Node.name]; omega
    all_goals simp [Node.fields, Span.sizeOf_eq]
    all_goals omega
  case exportSpecifier s =>
    cases s
    simp only [Node.fields, Field.allBelow_cons, Field.parts_maybe, Field.allBelow_nil, and_true]
    exact ⟨Node.Below.maybe fun x hx => by simp [Node.name]; omega,
      Node.Below.maybe fun x hx => by simp [Node.name]; omega⟩
  case importAttribute a =>
    cases a
    simp [Node.fields, Node.string, Span.sizeOf_eq]
    omega
  case decorator d =>
    cases d
    simp only [Node.fields, Field.allBelow_cons, Field.parts_one, Field.allBelow_nil, and_true]
    refine Node.Below.cons.2 ⟨?_, Node.Below.nil⟩
    rw [Node.expr.sizeOf_spec, Node.decorator.sizeOf_spec, Decorator.mk.sizeOf_spec]
    omega
  case patternProperty p =>
    cases p
    simp [Node.fields]
    exact ⟨by omega, by omega, Node.Below.maybe fun x hx => by simp; omega⟩
  case program p =>
    cases p
    simp [Node.fields]
    exact ⟨Node.Below.map fun x hx => by simp; omega, Node.Below.map fun x hx => by simp; omega⟩
  case body x =>
    cases x
    case missing => exact Field.allBelow_nil
    case block =>
      simp [Node.fields]
      exact ⟨Node.Below.map fun x hx => by simp; omega, Node.Below.map fun x hx => by simp; omega⟩
  case params p =>
    cases p
    case missing => exact Field.allBelow_nil
    case list =>
      simp [Node.fields]
      exact ⟨Node.Below.map fun x hx => by simp; omega, Node.Below.maybe fun x hx => by simp; omega⟩
  case caseClause c =>
    cases c
    simp [Node.fields]
    exact ⟨Node.Below.maybe fun x hx => by simp; omega, Node.Below.map fun x hx => by simp; omega⟩
  case catchClause c =>
    cases c
    simp [Node.fields]
    exact ⟨Node.Below.maybe fun x hx => by simp; omega, Node.Below.map fun x hx => by simp; omega⟩
  case element e =>
    cases e
    case hole => exact Field.allBelow_nil
    case bound =>
      simp [Node.fields]
      exact ⟨by omega, Node.Below.maybe fun x hx => by simp; omega⟩
  case declarator d =>
    cases d
    simp [Node.fields]
    exact ⟨by omega, Node.Below.maybe fun x hx => by simp; omega⟩
  all_goals simp [Node.fields]

end Parts

/-! ## Descriptions -/

namespace Node

/-- Describe a node and everything below it, `locate` describing a range. -/
def describe (locate : Span → Datum) (n : Node) : Datum :=
  if n.isMissing then .null
  else
    .record <| ("type", .text n.typeName) :: ("location", locate n.span) ::
      n.fields.attach.map fun ⟨(key, field), hf⟩ => (key,
        match field, hf with
        | .value d, _ => d
        | .node none, _ => .null
        | .node (some c), _hf => describe locate c
        | .nodes cs, _hf => .list (cs.attach.map fun ⟨c, _hc⟩ => describe locate c))
termination_by sizeOf n
decreasing_by
  · exact n.fields_below _ _hf c (by simp)
  · exact n.fields_below _ _hf c (by simpa using _hc)

end Node

/-- A range as byte offsets. -/
def locateOffsets (s : Span) : Datum :=
  .record [("begin", .record [("offset", .int s.start)]),
    ("end", .record [("offset", .int s.stop)])]

/-- A position as data. -/
def Position.describe (p : Position) : Datum :=
  .record [("line", .int p.line), ("column", .int p.column), ("offset", .int p.offset)]

/-- A range as lines, columns and offsets of a file with the given line starts. -/
def SourceFile.locate (f : SourceFile) (starts : List Nat) (s : Span) : Datum :=
  .record [("begin", (f.positionIn starts s.offset).describe),
    ("end", (f.positionIn starts s.stop.toNat).describe)]

end EcmaStack

/-!
## Outlines

A described tree as one line for each node, two spaces deeper than its parent: the node's type,
where it begins and ends, and the names it captures. Nodes that stand side by side are in order
of where they begin.
-/

namespace EcmaStack

/-- One end of a location. -/
def Datum.outlinePlace (d : Datum) : String :=
  match d.get "line" with
  | .int line => toString line ++ ":" ++ toString (d.get "column").asInt
  | _ => toString (d.get "offset").asInt

/-- The line of a node. -/
def Datum.outlineLine (d : Datum) : String :=
  let location := d.get "location"
  let names := (d.get "closure").asList.map asText
  (d.get "type").asText ++ " " ++ (location.get "begin").outlinePlace ++ "-" ++
    (location.get "end").outlinePlace ++
    if names.isEmpty then "" else " closure=" ++ ",".intercalate names

/-- The fields of a node that hold no nodes. -/
def outlineSkipped : List String :=
  ["type", "location", "scope", "nameScope", "closure"]

/-- A node's lines with the offset at which it begins. -/
structure OutlineEntry where
  start : Int
  lines : List String

/-- Entries in order of where they begin, as lines one level deeper. -/
def outlineLines (entries : List OutlineEntry) : List String :=
  ((entries.mergeSort fun a b => decide (a.start ≤ b.start)).flatMap (·.lines)).map ("  " ++ ·)

mutual

/-- The nodes that a value is or that stand in a list. -/
def Datum.outlineEntries : Datum → List OutlineEntry
  | .list items => Datum.outlineItems items
  | .record fields =>
    let d : Datum := .record fields
    if (d.get "type").isNull then []
    else
      let parts := (sortedFields (Datum.outlineFields fields)).flatMap (·.2)
      [⟨(((d.get "location").get "begin").get "offset").asInt, d.outlineLine :: outlineLines parts⟩]
  | _ => []

/-- The nodes in a list. -/
def Datum.outlineItems : List Datum → List OutlineEntry
  | [] => []
  | d :: rest => d.outlineEntries ++ Datum.outlineItems rest

/-- The nodes in fields, under their names. -/
def Datum.outlineFields : List (String × Datum) → List (String × List OutlineEntry)
  | [] => []
  | (key, d) :: rest =>
    (key, if outlineSkipped.contains key then [] else d.outlineEntries) :: Datum.outlineFields rest

end

/-- The outline of a described tree. -/
def Datum.outline (d : Datum) : String :=
  String.join (d.outlineEntries.flatMap fun e => e.lines.map (· ++ "\n"))

end EcmaStack

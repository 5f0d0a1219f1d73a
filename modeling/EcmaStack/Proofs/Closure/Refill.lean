import EcmaStack.Closure.Resolve
import EcmaStack.Proofs.Tree.Formed

/-!
# Refilling what nodes capture

A refill leaves no function-like node out, whatever the tree: a walk comes by the same nodes
before and after, each of them refilled (`Node.walk_refill`). So clearing takes what every
function-like node captures, and nothing else (`Program.closures_cleared`).
-/

namespace EcmaStack

/-! ## Lists and options of parts -/

section Lists

variable {how : Captures}

@[simp] theorem Expr.refillList_eq (es : List Expr) :
    Expr.refillList how es = es.map (Expr.refill how) := by
  induction es with
  | nil => rfl
  | cons e es ih => exact congrArg (e.refill how :: ·) ih

@[simp] theorem Property.refillList_eq (xs : List Property) :
    Property.refillList how xs = xs.map (Property.refill how) := by
  induction xs with
  | nil => rfl
  | cons x xs ih => exact congrArg (x.refill how :: ·) ih

@[simp] theorem Element.refillList_eq (xs : List Element) :
    Element.refillList how xs = xs.map (Element.refill how) := by
  induction xs with
  | nil => rfl
  | cons x xs ih => exact congrArg (x.refill how :: ·) ih

@[simp] theorem PatternProperty.refillList_eq (xs : List PatternProperty) :
    PatternProperty.refillList how xs = xs.map (PatternProperty.refill how) := by
  induction xs with
  | nil => rfl
  | cons x xs ih => exact congrArg (x.refill how :: ·) ih

@[simp] theorem ClassElement.refillList_eq (xs : List ClassElement) :
    ClassElement.refillList how xs = xs.map (ClassElement.refill how) := by
  induction xs with
  | nil => rfl
  | cons x xs ih => exact congrArg (x.refill how :: ·) ih

@[simp] theorem Decorator.refillList_eq (xs : List Decorator) :
    Decorator.refillList how xs = xs.map (Decorator.refill how) := by
  induction xs with
  | nil => rfl
  | cons x xs ih => exact congrArg (x.refill how :: ·) ih

@[simp] theorem Declarator.refillList_eq (xs : List Declarator) :
    Declarator.refillList how xs = xs.map (Declarator.refill how) := by
  induction xs with
  | nil => rfl
  | cons x xs ih => exact congrArg (x.refill how :: ·) ih

@[simp] theorem CaseClause.refillList_eq (xs : List CaseClause) :
    CaseClause.refillList how xs = xs.map (CaseClause.refill how) := by
  induction xs with
  | nil => rfl
  | cons x xs ih => exact congrArg (x.refill how :: ·) ih

@[simp] theorem Node.refillList_eq (ns : List Node) :
    Node.refillList how ns = ns.map (Node.refill how) := by
  induction ns with
  | nil => rfl
  | cons n ns ih => exact congrArg (n.refill how :: ·) ih

@[simp] theorem Stmt.refillList_eq (xs : List Stmt) :
    Stmt.refillList how xs = xs.map (Stmt.refill how) := by
  induction xs with
  | nil => rfl
  | cons x xs ih => exact congrArg (x.refill how :: ·) ih

@[simp] theorem Expr.refillOption_eq (o : Option Expr) :
    Expr.refillOption how o = o.map (Expr.refill how) := by
  cases o <;> rfl

@[simp] theorem Pattern.refillOption_eq (o : Option Pattern) :
    Pattern.refillOption how o = o.map (Pattern.refill how) := by
  cases o <;> rfl

@[simp] theorem Function.refillOption_eq (o : Option Function) :
    Function.refillOption how o = o.map (Function.refill how) := by
  cases o <;> rfl

@[simp] theorem Block.refillOption_eq (o : Option Block) :
    Block.refillOption how o = o.map (Block.refill how) := by
  cases o <;> rfl

@[simp] theorem CatchClause.refillOption_eq (o : Option CatchClause) :
    CatchClause.refillOption how o = o.map (CatchClause.refill how) := by
  cases o <;> rfl

@[simp] theorem Node.refillOption_eq (o : Option Node) :
    Node.refillOption how o = o.map (Node.refill how) := by
  cases o <;> rfl

@[simp] theorem Stmt.refillOption_eq (o : Option Stmt) :
    Stmt.refillOption how o = o.map (Stmt.refill how) := by
  cases o <;> rfl

end Lists

/-! ## Parts, and the walk through them -/

namespace Node

variable {how : Captures}

/-- Filling in closures leaves nothing out and adds nothing. -/
theorem isMissing_refill (n : Node) : (n.refill how).isMissing = n.isMissing := by
  cases n with
  | stmt x | expr x | property x | classElement x | element x | params x | body x | program x =>
    cases x <;> rfl
  | pattern x =>
    cases x with
    | target e => cases e <;> rfl
    | array | object => rfl
  | _ => rfl

section Parts

variable {α : Type} (how) (f : α → Node)

/-- Nodes made of values that were refilled are refilled nodes. -/
theorem map_refill {g : α → α} {xs ys : List α} (hys : ys = xs.map g)
    (hf : ∀ x, f (g x) = (f x).refill how) :
    ys.map f = (xs.map f).map (Node.refill how) := by
  rw [hys, List.map_map, List.map_map]
  exact List.map_congr_left fun x _ => hf x

/-- So it is for a node that may be missing, -/
theorem maybe_refill {g : α → α} {o p : Option α} (hp : p = o.map g)
    (hf : ∀ x, f (g x) = (f x).refill how) :
    maybe f p = (maybe f o).map (Node.refill how) := by
  subst hp
  cases o with
  | none => rfl
  | some x => exact congrArg ([·]) (hf x)

/-- Parts that no function-like node is in stay as they are. -/
theorem map_kept (xs : List α) (hf : ∀ x, (f x).refill how = f x) :
    xs.map f = (xs.map f).map (Node.refill how) :=
  map_refill how f (List.map_id xs).symm fun x => (hf x).symm

/-- and for one that holds no closure. -/
theorem maybe_kept (o : Option α) (hf : ∀ x, (f x).refill how = f x) :
    maybe f o = (maybe f o).map (Node.refill how) :=
  maybe_refill how f Option.map_id'.symm fun x => (hf x).symm

end Parts

/-- Two lists of refilled nodes. -/
theorem append_refill {ms ns ms' ns' : List Node} (hm : ms' = ms.map (Node.refill how))
    (hn : ns' = ns.map (Node.refill how)) : ms' ++ ns' = (ms ++ ns).map (Node.refill how) := by
  rw [hm, hn, List.map_append]

end Node

section Slots

open Node

variable {how : Captures}

theorem Template.slots_refill (quasis : List TemplateElement) (es : List Expr) :
    Template.slots quasis (es.map (Expr.refill how)) =
      (Template.slots quasis es).map (Node.refill how) := by
  induction quasis generalizing es with
  | nil => rfl
  | cons q quasis ih =>
    cases es with
    | nil => exact congrArg (.templateElement q :: ·) (ih [])
    | cons e es => exact congrArg (.templateElement q :: .expr (e.refill how) :: ·) (ih es)

theorem Body.orValue_refill (b : Body) (value : Option Expr) :
    (b.refill how).orValue (Expr.refillOption how value) =
      (b.orValue value).map (Node.refill how) := by
  cases b with
  | missing => cases value <;> rfl
  | block => rfl

/-- The slots of an expression are refilled with it. -/
theorem Expr.slots_refill (e : Expr) : (e.refill how).slots = e.slots.map (Node.refill how) := by
  cases e with
  | template t =>
    obtain ⟨_, quasis, es⟩ := t
    exact (congrArg (Template.slots quasis) (refillList_eq es)).trans
      (Template.slots_refill quasis es)
  | tagged _ _ quasi => cases quasi; rfl
  | array _ elements => exact map_refill how .expr (refillList_eq elements) fun _ => rfl
  | object _ properties =>
    exact map_refill how .property (Property.refillList_eq properties) fun _ => rfl
  | call _ _ args | construct _ _ args =>
    exact congrArg (_ :: ·) (map_refill how .expr (refillList_eq args) fun _ => rfl)
  | metaProperty _ owner property =>
    exact append_refill (maybe_kept how .name owner fun _ => rfl)
      (maybe_kept how .name property fun _ => rfl)
  | importCall _ _ options =>
    exact congrArg (_ :: ·) (maybe_refill how .expr (refillOption_eq options) fun _ => rfl)
  | yield _ argument => exact maybe_refill how .expr (refillOption_eq argument) fun _ => rfl
  | function f =>
    obtain ⟨_, name, _, _, _, _, _⟩ := f
    exact append_refill (maybe_kept how .name name fun _ => rfl) rfl
  | arrow _ _ body value => exact congrArg (_ :: ·) (body.orValue_refill value)
  | classExpr c =>
    obtain ⟨_, name, superClass, elements, decorators, _⟩ := c
    have hdecorators := map_refill how .decorator (Decorator.refillList_eq decorators) fun _ => rfl
    have hname := maybe_kept how .name name fun _ => rfl
    have hsuper := maybe_refill how .expr (refillOption_eq superClass) fun _ => rfl
    have helements :=
      map_refill how .classElement (ClassElement.refillList_eq elements) fun _ => rfl
    exact append_refill (append_refill (append_refill hdecorators hname) hsuper) helements
  | _ => rfl

theorem Pattern.slots_refill (p : Pattern) :
    (p.refill how).slots = p.slots.map (Node.refill how) := by
  cases p with
  | target e => exact e.slots_refill
  | array _ elements rest =>
    exact append_refill (map_refill how .element (Element.refillList_eq elements) fun _ => rfl)
      (maybe_refill how .pattern (refillOption_eq rest) fun _ => rfl)
  | object _ properties rest =>
    exact append_refill (map_refill how .patternProperty (PatternProperty.refillList_eq properties)
      fun _ => rfl)
      (maybe_refill how .pattern (refillOption_eq rest) fun _ => rfl)

/-- So are those of a statement. -/
theorem Stmt.slots_refill (s : Stmt) : (s.refill how).slots = s.slots.map (Node.refill how) := by
  cases s with
  | block b =>
    obtain ⟨_, items, _⟩ := b
    exact map_refill how .stmt (refillList_eq items) fun _ => rfl
  | giveBack _ argument => exact maybe_refill how .expr (Expr.refillOption_eq argument) fun _ => rfl
  | labelled _ label => exact append_refill (maybe_kept how .name label fun _ => rfl) rfl
  | breakOff _ label | carryOn _ label => exact maybe_kept how .name label fun _ => rfl
  | branch _ _ _ alternate =>
    exact congrArg (_ :: _ :: ·) (maybe_refill how .stmt (refillOption_eq alternate) fun _ => rfl)
  | switch _ _ cases =>
    exact congrArg (_ :: ·) (map_refill how .caseClause (CaseClause.refillList_eq cases)
      fun _ => rfl)
  | guarded _ _ handler finalizer =>
    have hhandler :=
      maybe_refill how .catchClause (CatchClause.refillOption_eq handler) fun _ => rfl
    have hfinalizer :=
      maybe_refill how (fun b => .stmt (.block b)) (Block.refillOption_eq finalizer) fun _ => rfl
    exact congrArg (_ :: ·) (append_refill hhandler hfinalizer)
  | forLoop _ init test update =>
    have hinit : (Node.refillOption how init).toList = init.toList.map (Node.refill how) :=
      by cases init <;> rfl
    have htest := maybe_refill how .expr (Expr.refillOption_eq test) fun _ => rfl
    have hupdate := maybe_refill how .expr (Expr.refillOption_eq update) fun _ => rfl
    exact append_refill (append_refill (append_refill hinit htest) hupdate) rfl
  | declaration d =>
    obtain ⟨_, _, list⟩ := d
    exact map_refill how .declarator (Declarator.refillList_eq list) fun _ => rfl
  | importDecl _ specifiers _ attributes =>
    have hattributes := map_kept how .importAttribute attributes fun _ => rfl
    exact append_refill (Node.refillList_eq specifiers) (congrArg (_ :: ·) hattributes)
  | exportNamed _ declared specifiers source attributes =>
    have hdeclared := maybe_refill how .stmt (refillOption_eq declared) fun _ => rfl
    have hspecifiers := map_kept how .exportSpecifier specifiers fun _ => rfl
    have hsource := maybe_kept how .string source fun _ => rfl
    have hattributes := map_kept how .importAttribute attributes fun _ => rfl
    exact append_refill (append_refill (append_refill hdeclared hspecifiers) hsource) hattributes
  | exportAll _ exported _ attributes =>
    have hattributes := map_kept how .importAttribute attributes fun _ => rfl
    exact append_refill (maybe_kept how .name exported fun _ => rfl) (congrArg (_ :: ·) hattributes)
  | _ => rfl

theorem ClassElement.slots_refill (x : ClassElement) :
    (x.refill how).slots = x.slots.map (Node.refill how) := by
  cases x with
  | missing => rfl
  | method _ _ _ _ _ function decorators =>
    exact append_refill (map_refill how .decorator (Decorator.refillList_eq decorators)
      fun _ => rfl)
      (congrArg (_ :: ·) (maybe_refill how .function (Function.refillOption_eq function)
        fun _ => rfl))
  | field _ _ _ _ _ initializer decorators =>
    exact append_refill (map_refill how .decorator (Decorator.refillList_eq decorators)
      fun _ => rfl)
      (congrArg (_ :: ·) (maybe_refill how .expr (Expr.refillOption_eq initializer) fun _ => rfl))
  | staticBlock _ body => exact map_refill how .stmt (Stmt.refillList_eq body) fun _ => rfl

end Slots

namespace Node

variable {how : Captures}

/-- The parts of a refilled node are the refilled parts of the node. -/
theorem slots_refill (n : Node) : (n.refill how).slots = n.slots.map (Node.refill how) := by
  cases n with
  | expr e => exact e.slots_refill
  | pattern p => exact p.slots_refill
  | stmt s => exact s.slots_refill
  | classElement x => exact x.slots_refill
  | patternProperty x =>
    -- A shorthand property has no key among its slots.
    obtain ⟨_, _, _, _, fallback, shorthand⟩ := x
    refine append_refill ?_ (congrArg (_ :: ·)
      (maybe_refill how .expr (Expr.refillOption_eq fallback) fun _ => rfl))
    cases shorthand <;> rfl
  | program x =>
    obtain ⟨_, _, directives, items, _, _⟩ := x
    -- Directives and names have no closures in them, so they are kept as they are.
    have hdirectives := map_kept how .directive directives fun _ => rfl
    have hitems := map_refill how .stmt (Stmt.refillList_eq items) fun _ => rfl
    exact append_refill hdirectives hitems
  | property x =>
    cases x with
    | short _ name => exact maybe_kept how .name name fun _ => rfl
    | _ => rfl
  | element x =>
    cases x with
    | hole => rfl
    | bound _ _ fallback =>
      exact congrArg (_ :: ·) (maybe_refill how .expr (Expr.refillOption_eq fallback) fun _ => rfl)
  | params x =>
    cases x with
    | missing => rfl
    | list _ items rest =>
      exact append_refill (map_refill how .element (Element.refillList_eq items) fun _ => rfl)
        (maybe_refill how .pattern (Pattern.refillOption_eq rest) fun _ => rfl)
  | body x =>
    cases x with
    | missing => rfl
    | block _ directives items =>
      have hdirectives := map_kept how .directive directives fun _ => rfl
      have hitems := map_refill how .stmt (Stmt.refillList_eq items) fun _ => rfl
      exact append_refill hdirectives hitems
  | declarator x =>
    obtain ⟨_, _, initializer⟩ := x
    exact congrArg (_ :: ·) (maybe_refill how .expr (Expr.refillOption_eq initializer) fun _ => rfl)
  | caseClause x =>
    obtain ⟨_, test, consequent⟩ := x
    have htest := maybe_refill how .expr (Expr.refillOption_eq test) fun _ => rfl
    have hitems := map_refill how .stmt (Stmt.refillList_eq consequent) fun _ => rfl
    exact append_refill htest hitems
  | catchClause x =>
    obtain ⟨_, param, items, _⟩ := x
    have hparam := maybe_refill how .pattern (Pattern.refillOption_eq param) fun _ => rfl
    have hitems := map_refill how .stmt (Stmt.refillList_eq items) fun _ => rfl
    exact append_refill hparam hitems
  | decorator x => cases x; rfl
  | importSpecifier x =>
    cases x with
    | named => rfl
    | standard _ inner | whole _ inner => exact maybe_kept how .name inner fun _ => rfl
  | exportSpecifier x =>
    exact append_refill (maybe_kept how .name x.inner fun _ => rfl)
      (maybe_kept how .name x.exported fun _ => rfl)
  | _ => rfl

/-- Hence a walk meets the same nodes, refilled. -/
theorem children_refill (n : Node) :
    (n.refill how).children = n.children.map (Node.refill how) := by
  simp only [children, slots_refill, List.filter_map, Function.comp_def, isMissing_refill]

/-- A walk through a refilled tree comes by the same nodes, each of them refilled. -/
theorem walk_refill (n : Node) : (n.refill how).walk = n.walk.map (Node.refill how) := by
  rw [walk_eq, walk_eq, List.map_cons, children_refill, List.flatMap_map, List.map_flatMap]
  refine congrArg (_ :: ·) (List.flatMap_congr fun c hc => ?_)
  exact walk_refill c
termination_by sizeOf n
decreasing_by exact sizeOf_lt_of_mem_children hc

/-- A cleared node knows what it knew of its surroundings, and captures nothing. -/
theorem env?_refill_nothing (n : Node) :
    (n.refill .nothing).env? = n.env?.map fun env => { env with closure := [] } := by
  cases n with
  | expr e =>
    cases e with
    | function x | classExpr x => cases x; rfl
    | _ => rfl
  | classElement x => cases x <;> rfl
  | program p => cases p; rfl
  | _ => rfl

end Node

/-- A program that was cleared has as many closures as before, all of them empty. -/
theorem Program.closures_cleared (p : Program) :
    p.cleared.closures = p.closures.map fun _ => [] := by
  have hnode : Node.program p.cleared = (Node.program p).refill .nothing := by cases p; rfl
  rw [closures, closures, hnode, Node.walk_refill, List.filterMap_map, List.map_filterMap]
  refine List.filterMap_congr fun n _ => ?_
  simp only [Function.comp_apply, Node.env?_refill_nothing, Option.map_map]
  rfl

end EcmaStack

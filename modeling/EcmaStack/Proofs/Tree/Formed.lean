import EcmaStack.Proofs.Tree.Grammatical
import EcmaStack.Tree.Node

/-!
# Nodes of grammatical trees

A node is **formed** when it can stand in a grammatical tree. The nodes in the slots of a formed
node are formed (`Node.Formed.slots`), so every node a walk through the tree of a program comes
by is (`Node.Formed.walk`). Where no superclass's constructor may be called, none may be called
in the slots either, unless they belong to a constructor.
-/

namespace EcmaStack

namespace Node

/-- A node as it stands in a grammatical tree, whatever exits and scopes are around it. -/
def Stands (calls : Bool) : Node → Prop
  | .program p => p.Grammatical
  | .stmt s => ∃ exits chain, s.Grammatical calls exits chain
  | .expr e => e.Grammatical calls
  | .pattern x => x.Grammatical calls
  | .property x => x.Grammatical calls
  | .element x => x.Grammatical calls
  | .patternProperty x => x.Grammatical calls
  | .params x => x.Grammatical calls
  | .body b => ∃ chain, b.Grammatical calls chain
  | .classElement x => ∃ derived, x.Grammatical derived
  | .decorator d => d.expression.Grammatical calls
  | .declarator d => d.target.Grammatical calls ∧ ∀ e ∈ d.initializer, e.Grammatical calls
  | .caseClause c =>
    (∀ e ∈ c.test, e.Grammatical calls) ∧
      ∀ b ∈ c.consequent, ∃ exits chain, b.Grammatical calls exits chain
  | .catchClause c => ∃ exits chain, c.Grammatical calls exits chain
  | .templateElement _ | .importSpecifier _ | .importAttribute _ | .exportSpecifier _
  | .directive _ => True

/-- A node that stands in a grammatical tree and calls a superclass's constructor only if that
is allowed. -/
def Formed (calls : Bool) (n : Node) : Prop :=
  ∃ own, (own = true → calls = true) ∧ n.Stands own

/-- Whether a node is the constructor of a class. -/
def isConstructor : Node → Bool
  | .classElement (.method _ _ _ _ .constructor _ _) => true
  | _ => false

variable {calls : Bool} {n : Node}

/-- What stands somewhere is formed. -/
theorem Stands.formed (h : n.Stands calls) : n.Formed calls :=
  ⟨calls, id, h⟩

/-- What calls no superclass's constructor may stand anywhere. -/
theorem Stands.anywhere (h : n.Stands false) : n.Formed calls :=
  ⟨false, nofun, h⟩

/-- Where calls of the superclass are allowed, so is everything that has none. -/
theorem Formed.mono {more : Bool} (h : n.Formed calls) (hmore : calls = true → more = true) :
    n.Formed more := by
  obtain ⟨own, hown, h⟩ := h
  exact ⟨own, hmore ∘ hown, h⟩

/-- Every node of a list is formed. -/
def AllFormed (calls : Bool) (nodes : List Node) : Prop :=
  ∀ n ∈ nodes, n.Formed calls

namespace AllFormed

variable {α : Type} {f : α → Node}

@[simp] theorem nil : AllFormed calls [] := nofun

@[simp] theorem cons {nodes : List Node} :
    AllFormed calls (n :: nodes) ↔ n.Formed calls ∧ AllFormed calls nodes :=
  List.forall_mem_cons

@[simp] theorem append {a b : List Node} :
    AllFormed calls (a ++ b) ↔ AllFormed calls a ∧ AllFormed calls b :=
  List.forall_mem_append

theorem mono {more : Bool} {nodes : List Node} (h : AllFormed calls nodes)
    (hmore : calls = true → more = true) :
    AllFormed more nodes :=
  fun n hn => (h n hn).mono hmore

theorem formed {xs : List α} (h : ∀ x ∈ xs, (f x).Formed calls) : AllFormed calls (xs.map f) :=
  List.forall_mem_map.mpr h

theorem map {xs : List α} (h : ∀ x ∈ xs, (f x).Stands calls) : AllFormed calls (xs.map f) :=
  formed fun x hx => (h x hx).formed

theorem maybe {o : Option α} (h : ∀ x ∈ o, (f x).Stands calls) :
    AllFormed calls (Node.maybe f o) := by
  cases o with
  | none => exact nil
  | some x => exact cons.mpr ⟨(h x rfl).formed, nil⟩

/-- One node that stands in a slot, and more. -/
theorem one {nodes : List Node} (h : n.Stands calls) (hnodes : AllFormed calls nodes) :
    AllFormed calls (n :: nodes) :=
  cons.mpr ⟨h.formed, hnodes⟩

/-- Names, texts, specifiers and the like are formed wherever they stand. -/
theorem names {o : Option Name} : AllFormed calls (Node.maybe Node.name o) :=
  maybe fun _ _ => .atom rfl

theorem strings {o : Option StringLiteral} : AllFormed calls (Node.maybe Node.string o) :=
  maybe fun _ _ => .atom rfl

/-- The parts of a template, whose texts have nothing in them. -/
theorem template {quasis : List TemplateElement} {es : List Expr}
    (h : ∀ e ∈ es, e.Grammatical calls) :
    AllFormed calls (Template.slots quasis es) := by
  induction quasis generalizing es with
  | nil => exact nil
  | cons q quasis ih =>
    cases es with
    | nil => exact one trivial (ih h)
    | cons e es =>
      exact one trivial (one (h e List.mem_cons_self)
        (ih fun x hx => h x (List.mem_cons_of_mem e hx)))

end AllFormed

end Node

open Node (AllFormed)

section Slots

variable {calls : Bool}

/-- The slots of a grammatical expression are formed with the same calls, but for
functions, which have their own. -/
theorem Expr.Grammatical.slots_formed {e : Expr} (h : e.Grammatical calls) :
    AllFormed calls e.slots := by
  cases h with
  | atom h =>
    cases e with
    | metaProperty => exact AllFormed.append.mpr ⟨.names, .names⟩
    | missing | identifier | privateName | nullLiteral | boolean | number | bigint | string
    | regexp | thisRef | superRef => exact .nil
    | _ => cases h
  | template h => exact .template h
  | @tagged _ _ _ quasi htag h =>
    have hquasi : (Node.expr (.template quasi)).Stands calls := Expr.Grammatical.template h
    exact .one htag (.one hquasi .nil)
  | array h => exact .map h
  | object h => exact .map h
  | spread h | paren h | unary h | await h | update h => exact .one h .nil
  | call _ hcallee h | construct hcallee h => exact .one hcallee (.map h)
  | member hbase hproperty => exact .one hbase (.one hproperty .nil)
  | importCall hsource h => exact .one hsource (.maybe h)
  | binary hleft hright => exact .one hleft (.one hright .nil)
  | conditional htest hyes hno => exact .one htest (.one hyes (.one hno .nil))
  | assign htarget hvalue => exact .one htarget (.one hvalue .nil)
  | yield h => exact .maybe h
  | function hown h =>
    cases h with
    | mk _ hparams hbody =>
      exact AllFormed.append.mpr ⟨.names, AllFormed.mono (.one hparams (.one ⟨_, hbody⟩ .nil)) hown⟩
  | @arrow calls span params body value async env scope _ hparams hbody h =>
    refine .one hparams ?_
    cases body with
    | missing => exact .maybe h
    | block => exact .one ⟨_, hbody⟩ .nil
  | classExpr h =>
    cases h with
    | mk _ _ hsuper hbody hdecorators =>
      simp only [Expr.slots, AllFormed.append]
      exact ⟨⟨⟨.map hdecorators, .names⟩, .maybe hsuper⟩, .map fun x hx => ⟨_, hbody x hx⟩⟩

theorem Pattern.Grammatical.slots_formed {x : Pattern} (h : x.Grammatical calls) :
    AllFormed calls x.slots := by
  cases h with
  | target h => exact h.slots_formed
  | array helements hrest => exact AllFormed.append.mpr ⟨.map helements, .maybe hrest⟩
  | object hproperties hrest => exact AllFormed.append.mpr ⟨.map hproperties, .maybe hrest⟩

theorem Block.Grammatical.slots_formed {b : Block} {exits : Exits} {chain : List Scope}
    (h : b.Grammatical calls exits chain) : AllFormed calls (b.body.map .stmt) := by
  cases h with
  | mk _ h => exact .map fun x hx => ⟨_, _, h x hx⟩

theorem Node.Grammatical.stands {n : Node} {chain : List Scope} (h : n.Grammatical calls chain) :
    n.Stands calls := by
  cases h with
  | declaration h => exact ⟨.none, chain, .declaration h⟩
  | function h => exact ⟨.none, chain, .function h⟩
  | classDecl h => exact ⟨.none, chain, .classDecl h⟩
  | expr h => exact h
  | pattern h => exact h

/-- The slots of a statement are formed with the calls of the surroundings. -/
theorem Stmt.Grammatical.slots_formed {s : Stmt} {exits : Exits} {chain : List Scope}
    (h : s.Grammatical calls exits chain) : AllFormed calls s.slots := by
  cases h with
  | empty | debugger => exact .nil
  | importDecl specifiers =>
    exact AllFormed.append.mpr ⟨.map fun _ _ => trivial, .one (.atom rfl) (.map fun _ _ => trivial)⟩
  | exportNames =>
    simp only [Stmt.slots, AllFormed.append]
    exact ⟨⟨⟨.nil, .map fun _ _ => trivial⟩, .strings⟩, .map fun _ _ => trivial⟩
  | exportAll => exact AllFormed.append.mpr ⟨.names, .one (.atom rfl) (.map fun _ _ => trivial)⟩
  | expression h | raise h => exact .one h .nil
  | block h => exact h.slots_formed
  | giveBack h => exact .maybe h
  | labelled _ _ h => exact AllFormed.append.mpr ⟨.names, .one ⟨_, _, h⟩ .nil⟩
  | breakOff | carryOn => exact .names
  | branch htest hyes hno =>
    exact .one htest (.one ⟨_, _, hyes⟩ (.maybe fun b hb => ⟨_, _, hno b hb⟩))
  | switch _ hdiscriminant htests hbodies _ =>
    exact .one hdiscriminant (.map fun c hc => ⟨htests c hc, fun b hb => ⟨_, _, hbodies c hc b hb⟩⟩)
  | guarded hmain hhandler hfinalizer =>
    refine AllFormed.append.mpr ⟨.one ⟨_, _, .block hmain⟩ ?_, ?_⟩
    · exact .maybe fun c hc => ⟨_, _, hhandler c hc⟩
    · exact .maybe fun b hb => ⟨_, _, .block (hfinalizer b hb)⟩
  | whileLoop htest hbody => exact .one htest (.one ⟨_, _, hbody⟩ .nil)
  | doWhile hbody htest => exact .one ⟨_, _, hbody⟩ (.one htest .nil)
  | forLoop _ hinit htest hupdate hbody =>
    simp only [Stmt.slots, AllFormed.append]
    refine ⟨⟨⟨fun n hn => ?_, .maybe htest⟩, .maybe hupdate⟩, .one ⟨_, _, hbody⟩ .nil⟩
    exact (hinit n (Option.mem_toList.mp hn)).stands.formed
  | forIn _ hleft hright hbody | forOf _ hleft hright hbody =>
    exact .one hleft.stands (.one hright (.one ⟨_, _, hbody⟩ .nil))
  | declaration h =>
    cases h with
    | mk _ htargets hinitializers => exact .map fun d hd => ⟨htargets d hd, hinitializers d hd⟩
  | function h => exact .one h.expr .nil
  | classDecl h => exact .one (.classExpr h) .nil
  | exportNamed h =>
    simp only [Stmt.slots, AllFormed.append]
    exact ⟨⟨⟨.one ⟨_, _, h⟩ .nil, .map fun _ _ => trivial⟩, .strings⟩, .map fun _ _ => trivial⟩
  | exportDefault h => exact .one h.stands .nil

/-- Only a constructor may call the superclass's constructor. -/
theorem ClassElement.Grammatical.slots_formed {x : ClassElement} {derived : Bool}
    (h : x.Grammatical derived) :
    AllFormed (Node.classElement x).isConstructor x.slots := by
  cases h with
  | @method _ calls _ _ _ _ _ function _ hcalls hkey hfunction hdecorators =>
    have hmethod : ∀ f ∈ function, (Node.function f).Stands calls :=
      fun f hf => .function id (hfunction f hf)
    refine AllFormed.append.mpr ⟨.formed fun d hd => Node.Stands.anywhere (hdecorators d hd), ?_⟩
    refine AllFormed.cons.mpr ⟨Node.Stands.anywhere hkey, (AllFormed.maybe hmethod).mono
      fun hown => ?_⟩
    rw [(hcalls hown).2]
    rfl
  | field hkey hinitializer hdecorators =>
    exact AllFormed.append.mpr ⟨.map hdecorators, .one hkey (.maybe hinitializer)⟩
  | staticBlock _ _ h => exact .map fun b hb => ⟨_, _, h b hb⟩

end Slots

namespace Node

/-- What stands in the slots of a node is formed like the node. Where no superclass's
constructor may be called this leaves out the slots of a constructor. -/
theorem Stands.slots {n : Node} (h : n.Stands calls)
    (hcalls : n.isConstructor = true → calls = true) :
    AllFormed calls n.slots := by
  cases n with
  | program p =>
    cases h with
    | mk _ h =>
      exact AllFormed.append.mpr ⟨.map fun _ _ => trivial, .formed fun b hb => Stands.anywhere
        ⟨_, _, h b hb⟩⟩
  | stmt s =>
    obtain ⟨exits, chain, h⟩ := h
    exact h.slots_formed
  | expr e => exact Expr.Grammatical.slots_formed h
  | pattern x => exact Pattern.Grammatical.slots_formed h
  | templateElement | directive => exact .nil
  | property x =>
    cases h with
    | keyed hkey hvalue => exact .one hkey (.one hvalue .nil)
    | short => exact .names
    | spread h => exact .one h .nil
  | element x =>
    cases h with
    | hole => exact .nil
    | bound htarget h => exact .one htarget (.maybe h)
  | patternProperty x =>
    cases h with
    | @mk calls span key computed value fallback shorthand hkey hvalue h =>
      refine AllFormed.append.mpr ⟨?_, .one hvalue (.maybe h)⟩
      cases shorthand with
      | true => exact .nil
      | false => exact .one hkey .nil
  | params x =>
    cases h with
    | list hitems hrest => exact AllFormed.append.mpr ⟨.map hitems, .maybe hrest⟩
  | body b =>
    obtain ⟨chain, h⟩ := h
    cases h with
    | missing => exact .nil
    | block h =>
      exact AllFormed.append.mpr ⟨.map fun _ _ => trivial, .map fun b hb => ⟨_, _, h b hb⟩⟩
  | classElement x =>
    obtain ⟨derived, h⟩ := h
    exact h.slots_formed.mono hcalls
  | decorator d => exact .one h .nil
  | declarator d => exact .one h.1 (.maybe h.2)
  | caseClause c => exact AllFormed.append.mpr ⟨.maybe h.1, .map h.2⟩
  | catchClause c =>
    obtain ⟨exits, chain, h⟩ := h
    cases h with
    | mk _ _ hparam hbody =>
      exact AllFormed.append.mpr ⟨.maybe hparam, .map fun b hb => ⟨_, _, hbody b hb⟩⟩
  | importSpecifier x =>
    cases x with
    | named => exact .one (.atom rfl) (.one (.atom rfl) .nil)
    | standard | whole => exact .names
  | importAttribute a => exact .one (.atom rfl) .nil
  | exportSpecifier x => exact AllFormed.append.mpr ⟨.names, .names⟩

/-- So being formed goes down the tree. A constructor is where calls are gained. -/
theorem Formed.slots {n : Node} (h : n.Formed calls)
    (hcalls : n.isConstructor = true → calls = true) :
    AllFormed calls n.slots := by
  obtain ⟨own, hown, h⟩ := h
  cases n with
  | classElement x =>
    have h : (Node.classElement x).Stands calls := h
    exact h.slots hcalls
  | _ => exact (h.slots nofun).mono hown

/-- A walk visits a node and then what is below it. -/
theorem walk_eq (n : Node) : n.walk = n :: n.children.flatMap Node.walk := by
  rw [walk, walkWhere, if_pos rfl]
  simp only [List.flatMap_subtype, List.unattach_attach]
  rfl

theorem mem_walk_self (n : Node) : n ∈ n.walk := by
  rw [walk_eq]
  exact List.mem_cons_self

/-- A walk comes by what it comes by from a child. -/
theorem mem_walk_of_children {n c x : Node} (hc : c ∈ n.children) (hx : x ∈ c.walk) :
    x ∈ n.walk := by
  rw [walk_eq]
  exact List.mem_cons_of_mem n (List.mem_flatMap.mpr ⟨c, hc, hx⟩)

/-- Every node a walk comes by is formed where the walk starts at a formed node. A walk where no
superclass's constructor may be called has to stay out of constructors. -/
theorem Formed.walkWhere {descend : Node → Bool} {n : Node} (h : n.Formed calls)
    (hdescend : ∀ m, descend m = true → m.isConstructor = true → calls = true) :
    AllFormed calls (n.walkWhere descend) := by
  fun_induction Node.walkWhere descend n with
  | case1 n ih =>
    refine AllFormed.cons.mpr ⟨h, ?_⟩
    split
    · next hn =>
      intro x hx
      obtain ⟨⟨c, hc⟩, -, hx⟩ := List.mem_flatMap.mp hx
      exact ih c hc (h.slots (hdescend n hn) c (List.mem_filter.mp hc).1) x hx
    · exact .nil

/-- Every node of a walk is formed, by induction on the tree. -/
theorem Formed.walk {n : Node} (h : n.Formed true) : AllFormed true n.walk :=
  h.walkWhere fun _ _ _ => rfl

end Node

end EcmaStack

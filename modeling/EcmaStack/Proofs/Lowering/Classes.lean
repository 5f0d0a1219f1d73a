import EcmaStack.Proofs.Lowering.Expressions

/-!
# The code of functions and classes

A function or a class is one more value. The elements of a class are made on the object on top,
and what initializes an instance leaves the stack as it was, so that it can stand after every
call of the superclass's constructor.
-/

namespace EcmaStack

open Code

theorem functionOpcode_moves (async generator : Bool) :
    Moves (op (functionOpcode async generator)) 0 1 := by
  cases async <;> cases generator <;> exact moves_of_height? rfl

/-- The object of a function whose scope holds its parameters and its body. -/
private theorem object_moves (s : CodeSite) (async generator : Bool) (span : Span) (name : Text)
    (closure : List String) {opening params body : Code} (hopening : Opens opening)
    (hparams : Moves params 0 0) (hbody : Moves body 0 1) :
    Moves (s.functionObject (functionOpcode async generator) span name closure
      (opening ++ params ++ body ++ op .giveBack ++ op .popScope)) 0 1 := by
  refine s.functionObject_moves (functionOpcode_moves async generator) span name closure ?_
  have h := returns_inScope hopening (hparams.append hbody)
  simpa only [List.append_assoc] using h

/-- A value made inside a scope for its own name. -/
private theorem named_moves {around object : Code} (haround : Opens around)
    (hobject : Moves object 0 1) (name : Text) :
    Moves (around ++ object ++ (text .store name ++ op .popScope)) 0 1 := by
  intro σ
  have hinside := ((haround σ).append (hobject σ.enter)).append ((store_moves name) σ.enter)
  have hclose : Leads ∅ (op .popScope) (σ.push 1).enter (σ.push 1) := .popScope
  have h := hinside.append hclose
  simpa only [List.append_assoc, StackShape.push_zero] using h

/-- A function is one value, whatever it does when it is called. -/
theorem Function.Sound.of_parts {span : Span} {name : Option Name} {params : Params} {body : Body}
    {async generator : Bool} {env : Env} (hparams : params.Sound) (hbody : body.Sound) :
    Function.Sound ⟨span, name, params, body, async, generator, env⟩ where
  params := hparams
  body := hbody
  lower s hs use := by
    have hinner : (s.inFunction async).Sound := .inFunction async
    obtain ⟨scope, nameScope, closure⟩ := env
    cases nameScope with
    | none =>
      refine (openScope_lowers scope (hbody.hoisted s hs)).bind fun opening hopening => ?_
      refine (hparams _ hinner).bind fun c hc => ?_
      refine (hbody.lower _ hinner).bind fun d hd => .ok ?_
      have h := object_moves s async generator span (nameFor name use) closure hopening hc hd
      exact (Moves.nil.append h).append .nil
    | some own =>
      refine (openScope_lowers (some own) .nil).bind fun around haround => ?_
      refine (openScope_lowers scope (hbody.hoisted s hs)).bind fun opening hopening => ?_
      refine (hparams _ hinner).bind fun c hc => ?_
      refine (hbody.lower _ hinner).bind fun d hd => .ok ?_
      have h := object_moves s async generator span (nameFor name use) closure hopening hc hd
      exact named_moves haround h _

/-! ## Elements of classes -/

/-- What is known of a constructor: its head opens its scope. -/
structure Constructor.Sound (c : Constructor) : Prop where
  head : Lowers Opens c.head
  body : Lowers (Moves · 0 1) c.body

/-- The code of an element makes it on the object on top; if the element is the constructor, its
parts are sound. -/
structure ClassElement.Sound (e : ClassElement) : Prop where
  lower : ∀ s : CodeSite, s.Sound → Lowers (Moves · 1 1) (e.lower s)
  construct : ∀ outside inside : CodeSite, outside.Sound → inside.Sound → ∀ rest,
    (∀ c, ClassElement.constructor? outside inside rest = some c → c.Sound) →
    ∀ c, ClassElement.constructor? outside inside (e :: rest) = some c → c.Sound

section Lists

variable {s : CodeSite}

/-- Decorators, each of which keeps what it is applied to. -/
theorem Decorator.lowerList_lowers (hs : s.Sound) {apply : Code → Code} {n : Nat}
    (happly : ∀ c, Moves c 0 1 → Moves (apply c) n n) {list : List Decorator}
    (h : ∀ d ∈ list, d.expression.Sound) :
    Lowers (Moves · n n) (Decorator.lowerList s apply list) := by
  induction list with
  | nil => exact .ok .nil
  | cons d rest ih =>
    obtain ⟨span, e⟩ := d
    refine (ih fun q hq => h q (List.mem_cons_of_mem _ hq)).bind fun inner hinner => ?_
    exact ((h ⟨span, e⟩ List.mem_cons_self).value hs).bind fun c hc =>
      .ok (hinner.append (happly c hc))

/-- The elements of a kind find the object that they are put on and leave it where it is. -/
theorem ClassElement.lowerWhere_lowers (hs : s.Sound) (selected : ClassElement → Bool)
    {list : List ClassElement} (h : ∀ e ∈ list, e.Sound) :
    Lowers (Moves · 1 1) (ClassElement.lowerWhere s selected list) := by
  induction list with
  | nil => exact .ok .nil
  | cons e rest ih =>
    have hrest := ih fun q hq => h q (List.mem_cons_of_mem _ hq)
    change Lowers _ (if selected e then _ else _)
    split
    · refine ((h e List.mem_cons_self).lower s hs).bind fun c hc => ?_
      exact hrest.bind fun d hd => .ok (hc.append hd)
    · exact hrest.bind fun d hd => .ok (Moves.nil.append hd)

/-- The constructor is one of the elements, so it is made as they are. -/
theorem ClassElement.constructor?_sound {outside inside : CodeSite} (houtside : outside.Sound)
    (hinside : inside.Sound) {list : List ClassElement} (h : ∀ e ∈ list, e.Sound) {c : Constructor}
    (hc : ClassElement.constructor? outside inside list = some c) : c.Sound := by
  induction list generalizing c with
  | nil => cases hc
  | cons e rest ih =>
    refine (h e List.mem_cons_self).construct outside inside houtside hinside rest ?_ c hc
    exact fun d hd => ih (fun q hq => h q (List.mem_cons_of_mem _ hq)) hd

end Lists

/-- A decorator keeps the key and the value of what it is applied to. -/
private theorem decorated_moves {c : Code} (hc : Moves c 0 1) (target : Nat) :
    Moves (c ++ count .decorator target) 3 3 := by
  have hdecorate : Moves (count .decorator target) 4 3 := moves_of_height? rfl
  exact (hc.lift 3).append hdecorate

namespace ClassElement.Sound

variable {span : Span} {key : Expr} {computed static : Bool} {decorators : List Decorator}

/-- A method is put on the object below it. -/
theorem method {kind : PropertyKind} {function : Option Function} (hkey : key.Sound)
    (hfunction : ∀ f ∈ function, f.Sound) (hdecorators : ∀ d ∈ decorators, d.expression.Sound) :
    (ClassElement.method span key computed static kind function decorators).Sound where
  lower s hs := by
    refine (Expr.asKey_lowers hkey hs computed).bind fun c hc => ?_
    have hlower : Lowers (Moves · 0 1) (Function.lowerOption s (key.keyUse computed) function) := by
      cases function with
      | none => exact .refuse _ _
      | some f => exact (hfunction f rfl).lower s hs _
    refine hlower.bind fun d hd => ?_
    refine (Decorator.lowerList_lowers hs (fun c hc => decorated_moves hc _) hdecorators).bind
      fun f hf => .ok ?_
    have hclass : Moves (pick 3 ++ op .setClass) 3 3 := moves_of_height? rfl
    have h := ((((hc.lift 1).append (hd.lift 2)).append hclass).append hf).append
      (methodOpcode_moves (key.isPrivateKey computed) kind)
    simpa only [List.append_assoc] using h
  construct outside inside houtside hinside rest hrest c hc := by
    match kind, function with
    | .constructor, some ⟨_, _, params, body, _, _, env⟩ =>
      cases hc
      have hf := hfunction _ rfl
      refine ⟨?_, hf.body.lower inside hinside⟩
      refine (openScope_lowers env.scope (hf.body.hoisted outside houtside)).bind
        fun opening hopening => ?_
      exact (hf.params outside houtside).bind fun d hd => .ok (hopening.append hd)
    | .constructor, none => exact hrest c hc
    | .value, _ | .method, _ | .getter, _ | .setter, _ => exact hrest c hc

theorem fieldOpcode_moves (isPrivate accessor : Bool) :
    Moves (op (fieldOpcode isPrivate accessor)) 3 1 := by
  cases isPrivate <;> cases accessor <;> exact moves_of_height? rfl

/-- So is a field. -/
theorem field {accessor : Bool} {initializer : Option Expr} (hkey : key.Sound)
    (hinitializer : ∀ e ∈ initializer, e.Sound)
    (hdecorators : ∀ d ∈ decorators, d.expression.Sound) :
    (ClassElement.field span key computed static accessor initializer decorators).Sound where
  lower s hs := by
    refine (Expr.asKey_lowers hkey hs computed).bind fun c hc => ?_
    refine (Expr.lowerOption_lowers hs (key.keyUse_ne_link computed) hinitializer).bind fun o ho =>
      ?_
    refine (Decorator.lowerList_lowers hs (fun c hc => decorated_moves hc _) hdecorators).bind
      fun f hf => .ok ?_
    have hvalue : Moves (o.getD (op .pushUndefined)) 0 1 := by
      cases o with
      | none => exact moves_of_height? rfl
      | some d => exact ho.2 d rfl
    have hinit := fieldOpcode_moves (key.isPrivateKey computed) accessor
    exact (((hc.lift 1).append (hvalue.lift 2)).append hf).append hinit
  construct outside inside _ _ rest hrest c hc := hrest c hc

end ClassElement.Sound

/-! ## Classes -/

section Parts

variable {s : CodeSite} {elements : List ClassElement}

/-- What initializes an instance. -/
private theorem fields_lowers (h : ∀ e ∈ elements, e.Sound) (async : Bool) :
    Lowers (Moves · 0 0) (if elements.any ClassElement.onInstance then do
        let code ← ClassElement.lowerWhere { s.inFunction false with async } ClassElement.onInstance
          elements
        return op .pushThis ++ code ++ op .pop
      else .ok []) := by
  split
  · have hsite : CodeSite.Sound { s.inFunction false with async } := CodeSite.Sound.inFunction async
    have hthis : Moves (op .pushThis) 0 1 := moves_of_height? rfl
    have hpop : Moves (op .pop) 1 0 := moves_of_height? rfl
    exact (ClassElement.lowerWhere_lowers hsite _ h).bind fun c hc =>
      .ok ((hthis.append hc).append hpop)
  · exact .ok .nil

/-- The shape inside a scope, where there is one. -/
private def insideIf (hasScope : Bool) (σ : StackShape) : StackShape :=
  if hasScope then σ.enter else σ

/-- Code that opens a scope where there is one to open. -/
private def OpensIf (hasScope : Bool) (c : Code) : Prop :=
  ∀ σ, Leads ∅ c σ (insideIf hasScope σ)

/-- A scope is closed if it was opened. -/
private theorem closes_if (hasScope : Bool) (σ : StackShape) (n : Nat) :
    Leads ∅ (if hasScope then op .popScope else []) ((insideIf hasScope σ).push n) (σ.push n) := by
  cases hasScope with
  | true =>
    have hclose : Leads ∅ (op .popScope) (σ.push n).enter (σ.push n) := .popScope
    exact hclose
  | false => exact .nil

/-- The head of a constructor opens its scope. Without a constructor there is none to
open. -/
private theorem head_lowers {con : Option Constructor} (h : ∀ c, con = some c → c.Sound) :
    Lowers (OpensIf con.isSome) ((con.map (·.head)).getD (.ok [])) := by
  cases con with
  | none => exact .ok fun σ => .nil
  | some c => exact (h c rfl).head

/-- The body of a constructor leaves what it gives back, which is `undefined` if there is
none. -/
private theorem body_lowers {con : Option Constructor} (h : ∀ c, con = some c → c.Sound) :
    Lowers (Moves · 0 1) ((con.map (·.body)).getD (.ok (op .pushUndefined))) := by
  cases con with
  | none => exact .ok (moves_of_height? rfl)
  | some c => exact (h c rfl).body

/-- The scopes of a class and of its constructor, if it has one, are closed behind the value it
gives back. -/
private theorem constructor_returns {opening head prepared body : Code} {hasConstructor : Bool}
    (hopening : Opens opening) (hhead : OpensIf hasConstructor head)
    (hprepared : Moves prepared 0 0) (hbody : Moves body 0 1) :
    Returns (opening ++ head ++ prepared ++ body ++ op .giveBack ++
      (if hasConstructor then op .popScope else []) ++
      op .popScope) := by
  intro τ
  let σ := insideIf hasConstructor ({} : StackShape).enter
  have hgive : Leads ∅ (op .giveBack) (σ.push 1) (insideIf hasConstructor τ.enter) :=
    .stop (Or.inr rfl) (Nat.le_add_left 1 σ.depth)
  have hvalue := (((hopening {}).append (hhead _)).append (hprepared σ)).append (hbody σ)
  have hclose : Leads ∅ (op .popScope) τ.enter τ := .popScope
  exact ((hvalue.append hgive).append (closes_if hasConstructor τ.enter 0)).append hclose

/-- A decorator of a class keeps the class. -/
private theorem classDecorated_moves {c : Code} (hc : Moves c 0 1) (name : Text) :
    Moves (string name ++ sink 1 ++ c ++ count .decorator classDecorator ++ sink 1 ++ op .pop) 1
    1 := by
  have hopen : Moves (string name ++ sink 1) 1 2 := moves_of_height? rfl
  have hclose : Moves (count .decorator classDecorator ++ sink 1 ++ op .pop) 3 1 :=
    moves_of_height? rfl
  have h := (hopen.append (hc.lift 2)).append hclose
  simpa only [List.append_assoc] using h

/-- What runs once when the class has been made, as a function that is bound to the class and
called. -/
private theorem once_moves {once : Code} (honce : Moves once 1 1) (closure : List String)
    (span : Span) :
    Moves (enclosed (op .pushThis ++ once ++ op .pop ++ op .pushUndefined ++ op .giveBack)
        (op .pushFunction ++ pick 2 ++ op .setBind ++ pick 2 ++ op .setClass) ++
      closure.flatMap (fun n => text .setClosure (.ofString n)) ++ op .pushArray ++
      s.placed .call span ++ op .pop) 1 1 := by
  have hthis : Moves (op .pushThis) 0 1 := moves_of_height? rfl
  have hlast : Moves (op .pop ++ op .pushUndefined) 1 1 := moves_of_height? rfl
  have hbody : Returns (op .pushThis ++ once ++ op .pop ++ op .pushUndefined ++ op .giveBack) := by
    have h := returns_plain ((hthis.append honce).append hlast)
    simpa only [List.append_assoc] using h
  have hobject : Moves (op .pushFunction ++ pick 2 ++ op .setBind ++ pick 2 ++ op .setClass) 1 2 :=
    moves_of_height? rfl
  have hcall : Moves (op .pushArray ++ s.placed .call span ++ op .pop) 2 1 := moves_of_height? rfl
  have h := ((enclosed_moves hbody hobject).append (setClosure_moves closure 1)).append hcall
  simpa only [List.append_assoc] using h

end Parts

/-- A class is one value: constructor, prototype and initializer are put together below
it. -/
theorem Class.Sound.of_parts {span : Span} {name : Option Name} {superClass : Option Expr}
    {elements : List ClassElement} {decorators : List Decorator} {env : Env}
    (hsuper : ∀ e ∈ superClass, e.Sound) (helements : ∀ e ∈ elements, e.Sound)
    (hdecorators : ∀ d ∈ decorators, d.expression.Sound) :
    Class.Sound ⟨span, name, superClass, elements, decorators, env⟩ := by
  intro s hs use
  have hinner : (s.inFunction false).Sound := .inFunction false
  let fields (async : Bool) : Lowering :=
    if elements.any ClassElement.onInstance then do
      let code ← ClassElement.lowerWhere { s.inFunction false with async } ClassElement.onInstance
        elements
      return op .pushThis ++ code ++ op .pop
    else .ok []
  have hfields (async : Bool) : Lowers (Moves · 0 0) (fields async) := fields_lowers helements async
  have hwith : CodeSite.Sound { s.inFunction false with fields := some fields } := by
    rintro _ ⟨⟩ async
    exact hfields async
  have hconstructor (c : Constructor) : ClassElement.constructor? (s.inFunction false)
      (if superClass.isSome then { s.inFunction false with fields := some fields }
        else s.inFunction false) elements =
        some c → c.Sound := by
    refine ClassElement.constructor?_sound hinner ?_ helements
    split
    · exact hwith
    · exact hinner
  have haround : Lowers (OpensIf env.nameScope.isSome)
      (if env.nameScope.isSome then openScope env.nameScope [] else .ok []) := by
    cases env.nameScope with
    | none => exact .ok fun σ => .nil
    | some own => exact openScope_lowers (some own) .nil
  refine Lowers.bind_ite (fun h => by rwa [if_pos h] at haround)
    (fun h => by rwa [if_neg h] at haround)
    fun around haround => ?_
  refine (openScope_lowers env.scope .nil).bind fun opening hopening => ?_
  refine (head_lowers hconstructor).bind fun head hhead => ?_
  refine Lowers.bind_ite_ite (fun _ => hfields false) (fun _ _ => .ok .nil)
    (fun _ _ => CodeSite.implicitSuperCall_lowers hwith span) fun prepared hprepared => ?_
  refine (body_lowers hconstructor).bind fun body hbody => ?_
  refine (Expr.lowerOption_lowers hs Use.noConfusion hsuper).bind fun heritage hheritage => ?_
  refine (ClassElement.lowerWhere_lowers hs _ helements).bind fun onPrototype honPrototype => ?_
  refine (ClassElement.lowerWhere_lowers hs _ helements).bind fun onClass honClass => ?_
  refine (Decorator.lowerList_lowers hs (fun c hc => classDecorated_moves hc _) hdecorators).bind
    fun decorated hdecorated => ?_
  refine (ClassElement.lowerWhere_lowers hinner _ helements).bind fun once honce => .ok ?_
  have hobject := s.functionObject_moves (moves_of_height? rfl : Moves (op .pushClass) 0 1) span
    (nameFor name use) env.closure
    (constructor_returns hopening hhead hprepared hbody)
  have hinherit : Moves ((heritage.map (· ++ op .inherit)).getD []) 1 1 := by
    have hop : Moves (op .inherit) 2 1 := moves_of_height? rfl
    cases heritage with
    | none => exact .nil
    | some c => exact ((hheritage.2 c rfl).lift 1).append hop
  have hprototype : Moves (if elements.any ClassElement.onPrototype then
      pick 1 ++ string "prototype" ++ op .getField ++ onPrototype ++ op .pop else []) 1 1 := by
    have hopen : Moves (pick 1 ++ string "prototype" ++ op .getField) 1 2 := moves_of_height? rfl
    have hpop : Moves (op .pop) 2 1 := moves_of_height? rfl
    split
    · exact (hopen.append (honPrototype.lift 1)).append hpop
    · exact .nil
  have honce : Moves (if elements.any ClassElement.onceOnly then
      enclosed (op .pushThis ++ once ++ op .pop ++ op .pushUndefined ++ op .giveBack)
          (op .pushFunction ++ pick 2 ++ op .setBind ++ pick 2 ++ op .setClass) ++
        env.closure.flatMap (fun n => text .setClosure (.ofString n)) ++ op .pushArray ++
        s.placed .call span ++ op .pop
      else []) 1 1 := by
    split
    · exact once_moves honce env.closure span
    · exact .nil
  have hstore : Moves
      (if env.nameScope.isSome then text .store (nameFor name use) else []) 1 1 := by
    split
    · exact store_moves _
    · exact .nil
  intro σ
  let τ := insideIf env.nameScope.isSome σ
  have hmade :=
    ((((haround σ).append (hobject τ)).append (hinherit τ)).append (hprototype τ)).append
      (honClass τ)
  have hdone := ((hmade.append (hdecorated τ)).append (hstore τ)).append (honce τ)
  exact hdone.append (closes_if env.nameScope.isSome σ 1)

end EcmaStack

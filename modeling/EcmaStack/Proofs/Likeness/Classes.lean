import EcmaStack.Proofs.Likeness.Expressions

/-!
# Functions and classes at like sites

Inside a function nothing is left of what initializes the instances around it, so a function
gives like code wherever the superclass's constructor may be called in it. In a class only the
constructor is lowered where it may be called: what initializes an instance is lowered without
anything that would initialize it again.
-/

namespace EcmaStack

open Code

variable {L : Likeness} {calls : Bool}

/-- What stands in the scope a function or class opens for its own name, where it has one. -/
private theorem named_rel (hasName : Bool) (name : Text) :
    L.rel (if hasName then text .store name ++ op .popScope else [])
      (if hasName then text .store name ++ op .popScope else []) := by
  cases hasName
  · exact L.nil
  · exact L.plain rfl

theorem functionOpcode_ne_setSource (async generator : Bool) :
    functionOpcode async generator ≠ .setSource := by
  cases async <;> cases generator <;> exact Opcode.noConfusion

/-- A function is a site of its own: what its parameters and its body are made of at two
sites that are alike is alike, whatever the function stands in. -/
theorem Function.Alike.of_parts {own : Bool} {span : Span} {name : Option Name} {params : Params}
    {body : Body} {async generator : Bool} {env : Env} (hparams : params.Alike L own)
    (hbody : body.Alike L own) :
    Function.Alike L own ⟨span, name, params, body, async, generator, env⟩ where
  params := hparams
  body := hbody
  lower {calls s s'} hs use := by
    have hinner : (s.inFunction async).Alike L own (s'.inFunction async) := hs.inFunction async
    have hback : L.rel (op .giveBack) (op .giveBack) := L.plain rfl
    have hpop : L.rel (op .popScope) (op .popScope) := L.plain rfl
    refine Paired.bind_ite (openScope_paired env.nameScope .nil) (.ok L.nil) fun _ _ haround => ?_
    refine (openScope_paired env.scope (hbody.hoisted hs)).bind fun _ _ hopening => ?_
    refine (hparams hinner).bind fun _ _ hc => ?_
    refine (hbody.lower hinner).bind fun _ _ hd => .ok ?_
    have hobject := hs.functionObject (functionOpcode_ne_setSource async generator) span
      (nameFor name use) env.closure
      (L.append (L.append (L.append (L.append hopening hc) hd) hback) hpop)
    exact L.append (L.append haround hobject) (named_rel env.nameScope.isSome (nameFor name use))

/-! ## Elements of classes -/

/-- Constructors with like heads and like bodies. -/
structure Constructor.Alike (L : Likeness) (c c' : Constructor) : Prop where
  head : Paired L.rel c.head c'.head
  body : Paired L.rel c.body c'.body

/-- An element gives like code at sites that are alike where the superclass's constructor may
not be called; if the element is the constructor, its parts do so where it may be. -/
structure ClassElement.Alike (L : Likeness) (e : ClassElement) : Prop where
  lower : ∀ {s s' : CodeSite}, s.Alike L false s' → Paired L.rel (e.lower s) (e.lower s')
  construct : ∀ {outside outside' inside inside' : CodeSite}, outside.Alike L true outside' →
    inside.Alike L true inside' → ∀ {rest},
    Option.Rel (Constructor.Alike L) (ClassElement.constructor? outside inside rest)
      (ClassElement.constructor? outside' inside' rest) →
    Option.Rel (Constructor.Alike L) (ClassElement.constructor? outside inside (e :: rest))
      (ClassElement.constructor? outside' inside' (e :: rest))

section Lists

variable {s s' : CodeSite}

/-- Decorators, applied in a way that makes like code of like decorators. -/
theorem Decorator.lowerList_paired (hs : s.Alike L calls s') {apply : Code → Code}
    (happly : ∀ {c c'}, L.rel c c' → L.rel (apply c) (apply c')) {list : List Decorator}
    (h : ∀ d ∈ list, d.expression.Alike L calls) :
    Paired L.rel (Decorator.lowerList s apply list) (Decorator.lowerList s' apply list) := by
  induction list with
  | nil => exact .ok L.nil
  | cons d rest ih =>
    obtain ⟨span, e⟩ := d
    refine (ih fun q hq => h q (List.mem_cons_of_mem _ hq)).bind fun _ _ hinner => ?_
    exact ((h ⟨span, e⟩ List.mem_cons_self).lower hs .value).bind fun _ _ hc =>
      .ok (L.append hinner (happly hc))

/-- The elements of a kind, made at two sites. -/
theorem ClassElement.lowerWhere_paired (hs : s.Alike L false s') (selected : ClassElement → Bool)
    {list : List ClassElement} (h : ∀ e ∈ list, e.Alike L) :
    Paired L.rel (ClassElement.lowerWhere s selected list)
    (ClassElement.lowerWhere s' selected list) := by
  induction list with
  | nil => exact .ok L.nil
  | cons e rest ih =>
    have hrest := ih fun q hq => h q (List.mem_cons_of_mem _ hq)
    refine Paired.bind_ite ((h e List.mem_cons_self).lower hs) (.ok L.nil) fun _ _ hc => ?_
    exact hrest.bind fun _ _ hd => .ok (L.append hc hd)

/-- The constructor is found at both sites or at none. Its head belongs to the site around
the class and its body to the one within. -/
theorem ClassElement.constructor?_alike {outside outside' inside inside' : CodeSite}
    (houtside : outside.Alike L true outside') (hinside : inside.Alike L true inside')
    {list : List ClassElement} (h : ∀ e ∈ list, e.Alike L) :
    Option.Rel (Constructor.Alike L) (ClassElement.constructor? outside inside list)
      (ClassElement.constructor? outside' inside' list) := by
  induction list with
  | nil => exact .none
  | cons e rest ih =>
    exact (h e List.mem_cons_self).construct houtside hinside
      (ih fun q hq => h q (List.mem_cons_of_mem _ hq))

end Lists

private theorem decorated_rel (target : Nat) {c c' : Code} (hc : L.rel c c') :
    L.rel (c ++ count .decorator target) (c' ++ count .decorator target) :=
  L.append hc (L.plain rfl)

namespace ClassElement.Alike

variable {span : Span} {key : Expr} {computed static : Bool} {decorators : List Decorator}

/-- A method is a function of its own, behind its key. -/
theorem method {own : Bool} {kind : PropertyKind} {function : Option Function}
    (hkey : key.Alike L false) (hfunction : ∀ f ∈ function, f.Alike L own)
    (hdecorators : ∀ d ∈ decorators, d.expression.Alike L false) :
    (ClassElement.method span key computed static kind function decorators).Alike L where
  lower {s s'} hs := by
    have hlower : Paired L.rel (Function.lowerOption s (key.keyUse computed) function)
        (Function.lowerOption s' (key.keyUse computed) function) := by
      cases function with
      | none => exact .refuse _ _
      | some f => exact (hfunction f rfl).lower hs _
    refine (Expr.asKey_paired hkey hs computed).bind fun _ _ hc => ?_
    refine hlower.bind fun _ _ hd => ?_
    refine (Decorator.lowerList_paired hs (decorated_rel _) hdecorators).bind fun _ _ hf => .ok ?_
    have hclass := L.append (L.append (L.append hc hd) (L.plain (c := pick 3) rfl))
      (L.plain (c := op .setClass) rfl)
    exact L.append (L.append hclass hf) (methodOpcode_rel (key.isPrivateKey computed) kind)
  construct houtside hinside rest hrest := by
    match kind, function with
    | .constructor, some ⟨_, _, params, body, _, _, env⟩ =>
      have hf := hfunction _ rfl
      refine .some ⟨?_, hf.body.lower (hinside.mono fun _ => rfl)⟩
      refine (openScope_paired env.scope (hf.body.hoisted houtside)).bind fun _ _ hopening => ?_
      exact (hf.params (houtside.mono fun _ => rfl)).bind fun _ _ hd => .ok (L.append hopening hd)
    | .constructor, none => exact hrest
    | .value, _ | .method, _ | .getter, _ | .setter, _ => exact hrest

/-- The value of a field is made by the initializer, which knows the calls of no
constructor. -/
theorem field {accessor : Bool} {initializer : Option Expr} (hkey : key.Alike L false)
    (hinitializer : ∀ e ∈ initializer, e.Alike L false)
    (hdecorators : ∀ d ∈ decorators, d.expression.Alike L false) :
    (ClassElement.field span key computed static accessor initializer decorators).Alike L where
  lower hs := by
    refine (Expr.asKey_paired hkey hs computed).bind fun _ _ hc => ?_
    refine (Expr.lowerOption_paired hs (key.keyUse computed) hinitializer).bind fun _ _ ho => ?_
    refine (Decorator.lowerList_paired hs (decorated_rel _) hdecorators).bind fun _ _ hf => .ok ?_
    have hinit : L.rel (op (fieldOpcode (key.isPrivateKey computed) accessor))
        (op (fieldOpcode (key.isPrivateKey computed) accessor)) := by
      cases key.isPrivateKey computed <;> cases accessor <;> exact L.plain rfl
    exact L.append (L.append (L.append hc (L.default ho (L.plain rfl))) hf) hinit
  construct _ _ _ hrest := hrest

end ClassElement.Alike

/-! ## Classes -/

/-- What initializes an instance of a class with the given elements. -/
def ClassElement.initializer (s : CodeSite) (elements : List ClassElement) : Lowering :=
  if elements.any ClassElement.onInstance then do
    let code ← ClassElement.lowerWhere s ClassElement.onInstance elements
    return op .pushThis ++ code ++ op .pop
  else .ok []

/-- The site inside the constructor of a derived class, where every call of the superclass's
constructor initializes the instance. -/
def CodeSite.inDerived (s : CodeSite) (elements : List ClassElement) : CodeSite :=
  { s.inFunction false with
    fields := some fun async => ClassElement.initializer (s.inFunction async) elements }

section Parts

variable {s s' : CodeSite} {elements : List ClassElement}

/-- What initializes an instance gives like code at sites that need not agree on what
initializes one. -/
theorem ClassElement.initializer_paired (hs : s.Alike L false s') (h : ∀ e ∈ elements, e.Alike L) :
    Paired L.rel (ClassElement.initializer s elements) (ClassElement.initializer s' elements) := by
  refine .ite (fun _ => ?_) fun _ => .ok L.nil
  refine (ClassElement.lowerWhere_paired hs _ h).bind fun _ _ hc => .ok ?_
  exact L.append (L.append (L.plain rfl) hc) (L.plain rfl)

private theorem isSome_iff {α : Type} {R : α → α → Prop} {o o' : Option α} (h : Option.Rel R o o') :
    o.isSome = true ↔ o'.isSome = true := by
  cases h <;> exact Iff.rfl

/-- What is made of the constructor, or without one. -/
private theorem part_paired {con con' : Option Constructor}
    (h : Option.Rel (Constructor.Alike L) con con') {part : Constructor → Lowering}
    (hpart : ∀ {c c'}, c.Alike L c' → Paired L.rel (part c) (part c')) {without : Lowering}
    (hwithout : Paired L.rel without without) :
    Paired L.rel ((con.map part).getD without) ((con'.map part).getD without) := by
  cases h with
  | none => exact hwithout
  | some h => exact hpart h

/-- The scope of a constructor, where there is one on both sides. -/
private theorem closed_rel {c c' : Prop} [Decidable c] [Decidable c'] (h : c ↔ c') :
    L.rel (if c then op .popScope else []) (if c' then op .popScope else []) := by
  simp only [h]
  split
  · exact L.plain rfl
  · exact L.nil

private theorem inherited_rel {heritage heritage' : Option Code}
    (h : Option.Rel L.rel heritage heritage') :
    L.rel ((heritage.map (· ++ op .inherit)).getD []) ((heritage'.map (· ++ op .inherit)).getD
      []) := by
  cases h with
  | none => exact L.nil
  | some h => exact L.append h (L.plain rfl)

/-- The prototype is taken up only where there is something to put on it. -/
private theorem prototype_rel (any : Bool) {c c' : Code} (h : L.rel c c') :
    L.rel (if any then pick 1 ++ string "prototype" ++ op .getField ++ c ++ op .pop else [])
      (if any then pick 1 ++ string "prototype" ++ op .getField ++ c' ++ op .pop else []) := by
  split
  · exact L.append (L.append (L.plain rfl) h) (L.plain rfl)
  · exact L.nil

private theorem stored_rel (hasName : Bool) (name : Text) :
    L.rel (if hasName then text .store name else [])
      (if hasName then text .store name else []) := by
  cases hasName
  · exact L.nil
  · exact L.plain rfl

/-- What runs once when the class has been made. -/
private theorem once_rel (any : Bool) (hs : s.Alike L calls s') {once once' : Code}
    (honce : L.rel once once') (closure : List String) (span : Span) :
    L.rel
      (if any then
        enclosed (op .pushThis ++ once ++ op .pop ++ op .pushUndefined ++ op .giveBack)
            (op .pushFunction ++ pick 2 ++ op .setBind ++ pick 2 ++ op .setClass) ++
          closure.flatMap (fun n => text .setClosure (.ofString n)) ++ op .pushArray ++
          s.placed .call span ++ op .pop
      else [])
      (if any then
        enclosed (op .pushThis ++ once' ++ op .pop ++ op .pushUndefined ++ op .giveBack)
            (op .pushFunction ++ pick 2 ++ op .setBind ++ pick 2 ++ op .setClass) ++
          closure.flatMap (fun n => text .setClosure (.ofString n)) ++ op .pushArray ++
          s'.placed .call span ++ op .pop
      else []) := by
  have hthis : L.rel (op .pushThis) (op .pushThis) := L.plain rfl
  have hpop : L.rel (op .pop) (op .pop) := L.plain rfl
  have hundefined : L.rel (op .pushUndefined) (op .pushUndefined) := L.plain rfl
  have hback : L.rel (op .giveBack) (op .giveBack) := L.plain rfl
  have hbody := L.append (L.append (L.append (L.append hthis honce) hpop) hundefined) hback
  have hfunction := L.enclosed hbody
    (rfl : Code.isPlain (op .pushFunction ++ pick 2 ++ op .setBind ++ pick 2 ++
      op .setClass) = true)
  have hclosure : L.rel (closure.flatMap (fun n => text .setClosure (.ofString n)))
      (closure.flatMap (fun n => text .setClosure (.ofString n))) :=
    L.flatMap fun _ _ => L.plain rfl
  have hcall := hs.placed_rel (o := .call) Opcode.noConfusion span
  split
  · exact L.append (L.append (L.append (L.append hfunction hclosure) (L.plain rfl)) hcall) hpop
  · exact L.nil

/-- A decorator of a class, which is told the name of the class. -/
private theorem classDecorated_rel (name : Text) {c c' : Code} (hc : L.rel c c') :
    L.rel (string name ++ sink 1 ++ c ++ count .decorator classDecorator ++ sink 1 ++ op .pop)
      (string name ++ sink 1 ++ c' ++ count .decorator classDecorator ++ sink 1 ++ op .pop) :=
  L.append (L.append (L.append (L.append (L.plain rfl) hc) (L.plain rfl)) (L.plain rfl))
    (L.plain rfl)

end Parts

/-- A class at two sites. Its initializer is made at sites that are alike as well, so what
follows a call of the superclass is alike too. -/
theorem Class.Alike.of_parts {span : Span} {name : Option Name} {superClass : Option Expr}
    {elements : List ClassElement} {decorators : List Decorator} {env : Env}
    (hsuper : ∀ e ∈ superClass, e.Alike L calls) (helements : ∀ e ∈ elements, e.Alike L)
    (hdecorators : ∀ d ∈ decorators, d.expression.Alike L calls) :
    Class.Alike L calls ⟨span, name, superClass, elements, decorators, env⟩ := by
  intro s s' hs use
  have hinner {own : Bool} : (s.inFunction false).Alike L own (s'.inFunction false) :=
    hs.inFunction false
  -- The two sites have to be alike with the initializer in them, as a super call reads it from
  -- there.
  have hderived : (s.inDerived elements).Alike L true (s'.inDerived elements) :=
    { (hinner : CodeSite.Alike L true _ _) with
      fields :=
      fun _ => .some fun async => ClassElement.initializer_paired (hs.inFunction async) helements }
  have hinside :
      CodeSite.Alike L true (if superClass.isSome then s.inDerived elements else s.inFunction false)
      (if superClass.isSome then s'.inDerived elements else s'.inFunction false) := by
    split
    · exact hderived
    · exact hinner
  have hconstructor := ClassElement.constructor?_alike hinner hinside helements
  refine Paired.bind_ite (openScope_paired env.nameScope .nil) (.ok L.nil) fun _ _ haround => ?_
  refine (openScope_paired (L := L) env.scope .nil).bind fun _ _ hopening => ?_
  refine (part_paired hconstructor Constructor.Alike.head (.ok L.nil)).bind fun head head' hhead =>
    ?_
  refine Paired.bind_ite_ite (isSome_iff hconstructor)
    (ClassElement.initializer_paired hinner helements) (.ok L.nil)
    (hderived.implicitSuperCall span) fun _ _ hprepared => ?_
  refine (part_paired hconstructor Constructor.Alike.body (.ok (L.plain rfl))).bind fun _ _ hbody =>
    ?_
  refine (Expr.lowerOption_paired hs .value hsuper).bind fun _ _ hheritage => ?_
  refine (ClassElement.lowerWhere_paired (hs.mono nofun) _ helements).bind fun _ _ honPrototype =>
    ?_
  refine (ClassElement.lowerWhere_paired (hs.mono nofun) _ helements).bind fun _ _ honClass => ?_
  refine (Decorator.lowerList_paired hs (classDecorated_rel _) hdecorators).bind
    fun _ _ hdecorated => ?_
  refine (ClassElement.lowerWhere_paired hinner _ helements).bind fun _ _ honce => .ok ?_
  -- The parts are put together in the order in which they are written.
  have hback : L.rel (op .giveBack) (op .giveBack) := L.plain rfl
  have hpop : L.rel (op .popScope) (op .popScope) := L.plain rfl
  have hstarted := L.append (L.append (L.append (L.append hopening hhead) hprepared) hbody) hback
  have hobject :=
    hs.functionObject (o := .pushClass) Opcode.noConfusion span (nameFor name use) env.closure
      (L.append (L.append hstarted (closed_rel (isSome_iff hconstructor))) hpop)
  have hmade := L.append (L.append (L.append (L.append haround hobject) (inherited_rel hheritage))
    (prototype_rel (elements.any ClassElement.onPrototype) honPrototype)) honClass
  have hdone :=
    L.append (L.append hmade hdecorated) (stored_rel env.nameScope.isSome (nameFor name use))
  have honce := once_rel (elements.any ClassElement.onceOnly) hs honce env.closure span
  exact L.append (L.append hdone honce) (closed_rel Iff.rfl)

end EcmaStack

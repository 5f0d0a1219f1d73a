import EcmaStack.Proofs.Emission.Expressions

/-!
# Writing functions and classes

A class is written in parts, each of which follows a part of its lowering: the
constructor, which is passed over and prepares every instance, the methods, the
decorators, and the initializer that runs once. A part that has nothing to make is
left out by both.
-/

namespace EcmaStack

open Writing

variable {E : WriteSite} {s : CodeSite}

/-- Code that stands only under a condition. -/
theorem Emits.when {l : Lowering} {m : Writing Unit} (p : Bool) (h : Emits l m) :
    Emits (if p then l else .ok []) (when p m) := by
  cases p with
  | true => exact h
  | false => exact .nil

/-! ## Functions -/

/-- A function is written around its parameters and its body: the scope of its own name is
opened first and closed last, and a jump leads around the code that is run by a call. -/
theorem Function.Written.of_parts {span : Span} {own : Option Name} {params : Params} {body : Body}
    {async generator : Bool} {env : Env} (hparams : params.Written) (hbody : body.Written) :
    Function.Written ⟨span, own, params, body, async, generator, env⟩ where
  params := hparams
  body := hbody
  write E s hs use := by
    have hinner := hs.inFunction async
    have hscope : Emits (if env.nameScope.isSome then openScope env.nameScope [] else .ok [])
        (when env.nameScope.isSome (writePrologue env.nameScope [])) :=
      Emits.when _ (Hoisted.AllAgree.prologue_emits env.nameScope .nil)
    obtain ⟨a, fa, haround, hla⟩ := hscope
    obtain ⟨c, f, hopening, hl⟩ := (hbody.hoisted hs).prologue_emits env.scope
    obtain ⟨d, g, hm, hl'⟩ := hparams hinner
    obtain ⟨d', g', hm', hl''⟩ := hbody.write hinner
    have hleave := (op_writes .giveBack).ending (op_writes .popScope)
    have hobject := hs.functionObject_writes (functionOpcode async generator) span (nameFor own use)
      env.closure (hopening.seq (hm.seq (hm'.ending hleave)))
    have hstore : Writes (when env.nameScope.isSome do
        text .store (nameFor own use)
        op .popScope)
        (if env.nameScope.isSome then Code.text .store (nameFor own use) ++ Code.op .popScope
          else [])
        none :=
      when_put_writes _ ((text_writes .store _).ending (op_writes .popScope))
    refine ⟨_, _, ?_, hla.bind_ite (hl.bind (hl'.bind (hl''.map _)))⟩
    have hall := haround.seq (hobject.ending hstore)
    simp only [nameFor, bind_assoc, List.append_assoc] at hall ⊢
    exact hall

/-! ## Elements of classes -/

/-- What writes a constructor follows its lowering. -/
structure Constructor.Agrees (c : Constructor) (x : ConstructorWriter) : Prop where
  head : Emits c.head x.head
  body : Emits c.body x.body

/-- What is written for an element of a class; if the element is the constructor, its
parts. -/
structure ClassElement.Written (e : ClassElement) : Prop where
  write : ∀ ⦃E s⦄, WriteSite.Agrees E s → Emits (e.lower s) (e.write E)
  construct : ∀ ⦃E s E' s'⦄, WriteSite.Agrees E s → WriteSite.Agrees E' s' → ∀ rest,
    Option.Rel Constructor.Agrees (ClassElement.constructor? s s' rest)
      (ClassElement.constructorWriter? E E' rest) →
    Option.Rel Constructor.Agrees (ClassElement.constructor? s s' (e :: rest))
      (ClassElement.constructorWriter? E E' (e :: rest))

section Lists

/-- Decorators are applied from the last one to the first, so the list is written from
behind. -/
theorem Decorator.writeKind_emits (hs : E.Agrees s) (kind : Nat) {list : List Decorator}
    (h : ∀ d ∈ list, d.expression.Written) :
    Emits (Decorator.lowerList s (· ++ Code.count .decorator kind) list)
      (Decorator.writeKind E kind list) := by
  induction list with
  | nil => exact .nil
  | cons d rest ih =>
    obtain ⟨span, e⟩ := d
    obtain ⟨c, f, hm, hl⟩ := ih fun q hq => h q (List.mem_cons_of_mem _ hq)
    obtain ⟨d, g, hm', hl'⟩ := (h ⟨span, e⟩ List.mem_cons_self).value hs
    have hcount : Writes (put (Code.count .decorator kind)) (Code.count .decorator kind) none :=
      put_writes rfl
    exact ⟨_, _, hm.seq (hm'.ending hcount), hl.bind (hl'.map _)⟩

/-- The decorators of a class are told the name of the class, which is taken off the stack
again. -/
theorem Decorator.writeNamed_emits (hs : E.Agrees s) (name : Text) {list : List Decorator}
    (h : ∀ d ∈ list, d.expression.Written) :
    Emits (Decorator.lowerList s (fun d => Code.string name ++ Code.sink 1 ++ d ++
        Code.count .decorator classDecorator ++ Code.sink 1 ++ Code.op .pop) list)
      (Decorator.writeNamed E name list) := by
  induction list with
  | nil => exact .nil
  | cons d rest ih =>
    obtain ⟨span, e⟩ := d
    obtain ⟨c, f, hm, hl⟩ := ih fun q hq => h q (List.mem_cons_of_mem _ hq)
    obtain ⟨d, g, hm', hl'⟩ := (h ⟨span, e⟩ List.mem_cons_self).value hs
    have hcount : Writes (put (Code.count .decorator classDecorator))
        (Code.count .decorator classDecorator) none := put_writes rfl
    have hdecorate := hm'.ending (hcount.ending ((sink_writes 1).ending (op_writes .pop)))
    have hall := hm.seq ((string_writes name).before ((sink_writes 1).before hdecorate))
    refine ⟨_, _, ?_, hl.bind (hl'.map _)⟩
    simp only [List.append_assoc] at hall ⊢
    exact hall

/-- The elements of a kind are written in the order in which they stand, whatever stands
between them. -/
theorem ClassElement.writeWhere_emits (hs : E.Agrees s) (selected : ClassElement → Bool)
    {list : List ClassElement} (h : ∀ e ∈ list, e.Written) :
    Emits (ClassElement.lowerWhere s selected list) (ClassElement.writeWhere E selected list) := by
  induction list with
  | nil => exact .nil
  | cons e rest ih =>
    obtain ⟨c, f, hm, hl⟩ := Emits.when (selected e) ((h e List.mem_cons_self).write hs)
    obtain ⟨d, g, hm', hl'⟩ := ih fun q hq => h q (List.mem_cons_of_mem _ hq)
    exact ⟨_, _, hm.seq hm', hl.bind_ite (hl'.map _)⟩

/-- What is written around the selected elements of a class, if there are any. -/
theorem ClassElement.writeAround_emits (hs : E.Agrees s) (selected : ClassElement → Bool)
    {list : List ClassElement} (h : ∀ e ∈ list, e.Written) {F : Code → Code} {m : Writing Unit}
    (hm : ∀ c f, Writes (ClassElement.writeWhere E selected list) c f → Writes m (F c) f) :
    EmitsAs (fun c => if list.any selected then F c else [])
      (ClassElement.lowerWhere s selected list) (when (list.any selected) m) := by
  obtain ⟨c, f, hwhere, hl⟩ := ClassElement.writeWhere_emits hs selected h
  by_cases hany : list.any selected = true
  · rw [hany]
    exact ⟨c, f, hm c f hwhere, hl⟩
  · have hnone : ClassElement.lowerWhere s selected list = .ok [] := by
      clear h hm hwhere hl
      induction list with
      | nil => rfl
      | cons e rest ih =>
        rw [List.any_cons, Bool.or_eq_true, not_or] at hany
        rw [ClassElement.lowerWhere, if_neg hany.1, ih hany.2]
        rfl
    rw [hnone, Bool.eq_false_iff.mpr hany]
    exact ⟨[], none, .pure (), .made []⟩

/-- The first constructor in the body is the one that is written, as it is the one that is
lowered. -/
theorem ClassElement.constructorWriter?_agrees {E' : WriteSite} {s' : CodeSite} (hs : E.Agrees s)
    (hs' : E'.Agrees s') {list : List ClassElement} (h : ∀ e ∈ list, e.Written) :
    Option.Rel Constructor.Agrees (ClassElement.constructor? s s' list)
      (ClassElement.constructorWriter? E E' list) := by
  induction list with
  | nil => exact .none
  | cons e rest ih =>
    exact (h e List.mem_cons_self).construct hs hs' rest
      (ih fun q hq => h q (List.mem_cons_of_mem _ hq))

end Lists

namespace ClassElement.Written

variable {span : Span} {key : Expr} {computed static : Bool} {decorators : List Decorator}

/-- A method: its key, its function, and the class it belongs to, which is found three
places down. -/
theorem method {kind : PropertyKind} {function : Option Function} (hkey : key.Written)
    (hfunction : ∀ f ∈ function, f.Written) (hdecorators : ∀ d ∈ decorators, d.expression.Written) :
    (ClassElement.method span key computed static kind function decorators).Written where
  write E s hs := by
    have hmade : Emits (Function.lowerOption s (key.keyUse computed) function)
        (Function.writeOption E (key.keyUse computed).name function) := by
      cases function with
      | none => exact .refuse {} .missingPart (op_writes .pushUndefined)
      | some f => exact (hfunction f rfl).write hs _
    obtain ⟨c, f, hm, hl⟩ := key.asKey_emits computed (hkey.value hs)
    obtain ⟨d, g, hm', hl'⟩ := hmade
    obtain ⟨d', g', hm'', hl''⟩ := Decorator.writeKind_emits hs (methodDecorator kind) hdecorators
    refine ⟨_, _, ?_, hl.bind (hl'.bind (hl''.map _))⟩
    have hplace := hm''.ending (op_writes (methodOpcode (key.isPrivateKey computed) kind))
    have hall := hm.seq (hm'.seq ((pick_writes 3).before ((op_writes .setClass).before hplace)))
    simp only [List.append_assoc] at hall ⊢
    exact hall
  construct E s E' s' hs hs' rest hrest := by
    match kind, function with
    | .constructor, some ⟨_, _, params, body, _, _, env⟩ =>
      have hf := hfunction _ rfl
      refine .some ⟨?_, hf.body.write hs'⟩
      exact ((hf.body.hoisted hs).prologue_emits env.scope).append (hf.params hs)
    | .constructor, none => exact hrest
    | .value, _ | .method, _ | .getter, _ | .setter, _ => exact hrest

/-- A field: its key and the value that it starts with. -/
theorem field {accessor : Bool} {initializer : Option Expr} (hkey : key.Written)
    (hinitializer : ∀ e ∈ initializer, e.Written)
    (hdecorators : ∀ d ∈ decorators, d.expression.Written) :
    (ClassElement.field span key computed static accessor initializer decorators).Written where
  write E s hs := by
    obtain ⟨c, f, hm, hl⟩ := key.asKey_emits computed (hkey.value hs)
    obtain ⟨o, g, hm', hl'⟩ := Expr.writeOption_emits hs (key.keyUse_ne_link computed) hinitializer
    obtain ⟨d, g', hm'', hl''⟩ := Decorator.writeKind_emits hs (fieldDecorator accessor) hdecorators
    refine ⟨_, _, ?_, hl.bind (hl'.bind (hl''.map _))⟩
    have hplace := hm''.ending (op_writes (fieldOpcode (key.isPrivateKey computed) accessor))
    have hall := hm.seq (hm'.seq hplace)
    simp only [List.append_assoc] at hall ⊢
    exact hall
  construct _ _ _ _ _ _ _ hrest := hrest

end ClassElement.Written

/-! ## Classes -/

/-- What stands for the parts of a constructor, also where none is declared. -/
private theorem constructor_emits {con : Option Constructor} {declared : Option ConstructorWriter}
    (h : Option.Rel Constructor.Agrees con declared) :
    Emits ((con.map (·.head)).getD (.ok [])) ((declared.map (·.head)).getD (return)) ∧
    Emits ((con.map (·.body)).getD (.ok (Code.op .pushUndefined)))
      ((declared.map (·.body)).getD (op .pushUndefined)) ∧
    declared.isSome = con.isSome := by
  cases h with
  | none => exact ⟨.nil, .of_ok (op_writes .pushUndefined), rfl⟩
  | some h => exact ⟨h.head, h.body, rfl⟩

/-- The constructor of a class, from what its parts add. -/
private theorem writeConstructor_writes (hs : E.Agrees s) (span : Span) (name : Text) (env : Env)
    {declared : Option ConstructorWriter} {prepare : Writing Unit} {a c d e : Code}
    {fa f g g' : Option WriteReport} (hopening : Writes (writePrologue env.scope []) a fa)
    (hhead : Writes ((declared.map (·.head)).getD (return)) c f) (hprepare : Writes prepare d g)
    (hbody : Writes ((declared.map (·.body)).getD (op .pushUndefined)) e g') :
    Writes (E.writeConstructor span name env declared prepare)
      (s.functionObject .pushClass span name env.closure
        (a ++ c ++ d ++ e ++ Code.op .giveBack ++
          (if declared.isSome then Code.op .popScope else []) ++ Code.op .popScope))
      (fa.or (f.or (g.or g'))) := by
  have hclose := when_put_writes declared.isSome (op_writes .popScope)
  have hleave := (op_writes .giveBack).before (hclose.ending (op_writes .popScope))
  have hobject := hs.functionObject_writes .pushClass span name env.closure
    (hopening.seq (hhead.seq (hprepare.seq (hbody.ending hleave))))
  simp only [WriteSite.writeConstructor, bind_assoc, List.append_assoc] at hobject ⊢
  exact hobject

/-- What prepares an instance before the declared constructor runs: in a class that
extends nothing, its fields, and without a constructor, the superclass's. -/
private theorem prepare_emits {fields : Lowering} {writeFields : Writing Unit}
    (hfields : Emits fields writeFields) (span : Span) (derived declared : Bool)
    (hs : derived = true → E.Agrees s) :
    Emits (if !derived then fields else if declared then .ok [] else s.implicitSuperCall span) (do
      when (!derived) writeFields
      when (derived && !declared) do
        text .load "arguments"
        E.superCall span
        op .pop) := by
  cases derived with
  | false =>
    obtain ⟨c, f, hm, hl⟩ := hfields
    exact ⟨c, f, hm.answering (), hl⟩
  | true =>
    cases declared with
    | true => exact .nil
    | false =>
      obtain ⟨c, f, hm, hl⟩ := (hs rfl).superCall_emits span
      refine ⟨_, f, ?_, hl.map _⟩
      rw [List.append_assoc]
      exact (text_writes .load "arguments").before (hm.ending (op_writes .pop))

/-- What runs once when the class has been made. -/
private theorem writeInitializer_writes (hs : E.Agrees s) (span : Span) (closure : List String)
    {m : Writing Unit} {c : Code} {f : Option WriteReport} (hm : Writes m c f) :
    Writes (E.writeInitializer span closure m)
      (Code.enclosed (Code.op .pushThis ++ c ++ Code.op .pop ++ Code.op .pushUndefined ++
        Code.op .giveBack)
          (Code.op .pushFunction ++ Code.pick 2 ++ Code.op .setBind ++ Code.pick 2 ++
            Code.op .setClass) ++
        closure.flatMap (fun n => Code.text .setClosure (.ofString n)) ++ Code.op .pushArray ++
        s.placed .call span ++ Code.op .pop)
      f := by
  have hreturn := (op_writes .pop).before ((op_writes .pushUndefined).ending (op_writes .giveBack))
  have hbody := (op_writes .pushThis).before (hm.ending hreturn)
  have hbound := (op_writes .setBind).before ((pick_writes 2).ending (op_writes .setClass))
  have hobject := (op_writes .pushFunction).before ((pick_writes 2).before hbound)
  have hclosure :
      Writes (writeClosure closure) (closure.flatMap (fun n => Code.text .setClosure (.ofString n)))
      none :=
    forM_writes (fun n => text_writes .setClosure (.ofString n)) closure
  have hcall :=
    (op_writes .pushArray).before ((hs.placed_writes .call span).ending (op_writes .pop))
  have hall := (hbody.enclosed hobject).ending (hclosure.ending hcall)
  rw [Option.or_none] at hall
  simp only [WriteSite.writeInitializer, bind_assoc, List.append_assoc] at hall ⊢
  exact hall

/-- What initializes an instance: its fields, in the order of the body. -/
private theorem fields_emits (hs : E.Agrees s) {elements : List ClassElement}
    (helements : ∀ e ∈ elements, e.Written) (async : Bool) :
    Emits (if elements.any ClassElement.onInstance then do
        let code ← ClassElement.lowerWhere (s.inFunction async) ClassElement.onInstance elements
        return Code.op .pushThis ++ code ++ Code.op .pop
      else .ok [])
      (when (elements.any ClassElement.onInstance) do
        op .pushThis
        ClassElement.writeWhere (E.inFunction async) ClassElement.onInstance elements
        op .pop) := by
  obtain ⟨c, f, hm, hl⟩ :=
    ClassElement.writeWhere_emits (hs.inFunction async) ClassElement.onInstance helements
  exact Emits.when _ ⟨_, f, (op_writes .pushThis).before (hm.ending (op_writes .pop)), hl.map _⟩

/-- The methods of instances stand on the prototype, which is got for them. -/
private theorem prototype_emits (hs : E.Agrees s) {elements : List ClassElement}
    (helements : ∀ e ∈ elements, e.Written) :
    EmitsAs (fun c => if elements.any ClassElement.onPrototype then
        Code.pick 1 ++ Code.string "prototype" ++ Code.op .getField ++ c ++ Code.op .pop
      else []) (ClassElement.lowerWhere s ClassElement.onPrototype elements)
      (when (elements.any ClassElement.onPrototype) do
        pick 1
        Writing.string "prototype"
        op .getField
        ClassElement.writeWhere E ClassElement.onPrototype elements
        op .pop) := by
  refine ClassElement.writeAround_emits hs ClassElement.onPrototype helements
    (F := fun c => Code.pick 1 ++ Code.string "prototype" ++ Code.op .getField ++ c ++ Code.op .pop)
    fun c f hm => ?_
  have hmethods := (op_writes .getField).before (hm.ending (op_writes .pop))
  have hall := (pick_writes 1).before ((string_writes "prototype").before hmethods)
  simpa only [List.append_assoc] using hall

/-- A class is written around its elements. What initializes the instances is told by the
body alone, so it is the same in the constructor and in front of it. -/
theorem Class.Written.of_parts {span : Span} {own : Option Name} {superClass : Option Expr}
    {elements : List ClassElement} {decorators : List Decorator} {env : Env}
    (hsuper : ∀ e ∈ superClass, e.Written) (helements : ∀ e ∈ elements, e.Written)
    (hdecorators : ∀ d ∈ decorators, d.expression.Written) :
    Class.Written ⟨span, own, superClass, elements, decorators, env⟩ := by
  intro E s hs use
  have hinner := hs.inFunction false
  -- The initializer of the fields is handed down to the constructor on both sides, so the two
  -- sites have to agree on it before anything is written.
  let fields (async : Bool) : Lowering :=
    if elements.any ClassElement.onInstance then do
      let code ← ClassElement.lowerWhere (s.inFunction async) ClassElement.onInstance elements
      return Code.op .pushThis ++ code ++ Code.op .pop
    else .ok []
  let writeFields (async : Bool) : Writing Unit := when (elements.any ClassElement.onInstance) do
    op .pushThis
    ClassElement.writeWhere (E.inFunction async) ClassElement.onInstance elements
    op .pop
  have hfields (async : Bool) : Emits (fields async) (writeFields async) :=
    fields_emits hs helements async
  -- Only the constructor of a derived class sees the initializer: it follows the super call.
  let inside : CodeSite :=
    if superClass.isSome then { s.inFunction false with fields := some fields }
    else s.inFunction false
  let writeInside : WriteSite :=
    if superClass.isSome then { E.inFunction false with fields := some writeFields }
    else E.inFunction false
  have hwith : WriteSite.Agrees { E.inFunction false with fields := some writeFields }
      { s.inFunction false with fields := some fields } := ⟨hinner.code, .some hfields⟩
  have hinside : writeInside.Agrees inside := by
    unfold writeInside inside
    split
    · exact hwith
    · exact hinner
  have hderived (h : superClass.isSome = true) :
      writeInside.Agrees { s.inFunction false with fields := some fields } := by
    unfold writeInside
    rw [if_pos h]
    exact hwith
  obtain ⟨hhead, hbody, hsame⟩ :=
    constructor_emits (ClassElement.constructorWriter?_agrees hinner hinside helements)
  have hprepare := prepare_emits (hfields false) span superClass.isSome
    (ClassElement.constructor? (s.inFunction false) inside elements).isSome hderived
  have hscope : Emits (if env.nameScope.isSome then openScope env.nameScope [] else .ok [])
      (when env.nameScope.isSome (writePrologue env.nameScope [])) :=
    Emits.when _ (Hoisted.AllAgree.prologue_emits env.nameScope .nil)
  have hheritage := Expr.lowerOption_emits hs Use.value_ne_link (Expr.writeHeritage E)
    (F := fun c => (c.map (· ++ Code.op .inherit)).getD []) hsuper
    (.pure ()) fun e c f hm => hm.ending (op_writes .inherit)
  have hprototype := prototype_emits hs helements
  have honce := ClassElement.writeAround_emits hinner ClassElement.onceOnly helements
    fun _ _ hm => writeInitializer_writes hs span env.closure hm
  obtain ⟨a, fa, haround, hla⟩ := hscope
  obtain ⟨b, fb, hopening, hlb⟩ := Hoisted.AllAgree.prologue_emits env.scope .nil
  obtain ⟨i, fi, hhead, hli⟩ := hhead
  obtain ⟨j, fj, hprepare, hlj⟩ := hprepare
  obtain ⟨k, fk, hbody, hlk⟩ := hbody
  obtain ⟨h, fh, hheritage, hlh⟩ := hheritage
  obtain ⟨p, fp, hprototype, hlp⟩ := hprototype
  obtain ⟨m, fm, hclass, hlm⟩ := ClassElement.writeWhere_emits hs ClassElement.onClass helements
  obtain ⟨d, fd, hdecorated, hld⟩ := Decorator.writeNamed_emits hs (nameFor own use) hdecorators
  obtain ⟨o, fo, honce, hlo⟩ := honce
  refine ⟨_, _, ?_, hla.bind_ite (hlb.bind (hli.bind (hlj.bind_ite_ite (hlk.bind (hlh.bind
    (hlp.bind (hlm.bind (hld.bind (hlo.map _)))))))))⟩
  have hmissing : (!(ClassElement.constructor? (s.inFunction false) inside elements).isSome) =
      (ClassElement.constructorWriter? (E.inFunction false) writeInside elements).isNone := by
    rw [← hsame, Option.not_isSome]
  rw [hmissing] at hprepare
  have hconstructor :=
    writeConstructor_writes hs span (nameFor own use) env hopening hhead hprepare hbody
  have hstore := when_put_writes env.nameScope.isSome (text_writes .store (nameFor own use))
  have hclose := when_put_writes env.nameScope.isSome (op_writes .popScope)
  have hdone := hdecorated.seq (hstore.before (honce.ending hclose))
  have hall : Writes (Class.write E use.name ⟨span, own, superClass, elements, decorators, env⟩)
      _ _ :=
    haround.seq (hconstructor.seq (hheritage.seq (hprototype.seq (hclass.seq hdone))))
  rw [hsame] at hall
  simp only [List.append_assoc, Option.or_assoc] at hall ⊢
  exact hall

end EcmaStack

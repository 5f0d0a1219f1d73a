import EcmaStack.Lowering.Tree
import Mathlib.Data.List.Forall2

/-!
# Sites that give like code

The same tree may be lowered at two sites that differ in whether source texts are kept, or in
what initializes an instance. A **likeness** is a relation between the code of the one site and
the code of the other that survives every way in which lowering puts code together (`Likeness`).
Here stands what follows from it for the parts of expressions: members, targets and scopes that
are alike have code that is alike.
-/

namespace EcmaStack

open Code

/-! ## Pairs of lowerings -/

/-- Two lowerings that make related things, or that are refused for the same fault. -/
inductive Paired {α β : Type} (R : α → β → Prop) :
    Except WriteFault α → Except WriteFault β → Prop where
  | ok {a : α} {b : β} (h : R a b) : Paired R (.ok a) (.ok b)
  | refused (fault : WriteFault) : Paired R (.error fault) (.error fault)

namespace Paired

variable {α β γ δ : Type} {R : α → β → Prop} {S : γ → δ → Prop}

/-- Two lowerings that go on from answers which are related. -/
theorem bind {x : Except WriteFault α} {y : Except WriteFault β} {f : α → Except WriteFault γ}
    {g : β → Except WriteFault δ} (h : Paired R x y) (hfg : ∀ a b, R a b → Paired S (f a) (g b)) :
    Paired S (x >>= f) (y >>= g) := by
  cases h with
  | ok h => exact hfg _ _ h
  | refused fault => exact .refused fault

/-- One of two ways, the same on both sides. -/
theorem ite {c : Prop} [Decidable c] {x x' : Except WriteFault α} {y y' : Except WriteFault β}
    (hyes : c → Paired R x y) (hno : ¬c → Paired R x' y') :
    Paired R (if c then x else x') (if c then y else y') := by
  split
  · next h => exact hyes h
  · next h => exact hno h

/-- One of two ways, and what is the same after each of them. -/
theorem bind_ite {c : Prop} [Decidable c] {x x' : Except WriteFault α} {y y' : Except WriteFault β}
    {f : α → Except WriteFault γ} {g : β → Except WriteFault δ} (hyes : Paired R x y)
    (hno : Paired R x' y') (hfg : ∀ a b, R a b → Paired S (f a) (g b)) :
    Paired S (if c then x >>= f else x' >>= f) (if c then y >>= g else y' >>= g) :=
  ite (fun _ => hyes.bind hfg) fun _ => hno.bind hfg

/-- One of three ways, where one of the questions may be asked of either side. -/
theorem bind_ite_ite {c d d' : Prop} [Decidable c] [Decidable d] [Decidable d']
    {x x' x'' : Except WriteFault α} {y y' y'' : Except WriteFault β} {f : α → Except WriteFault γ}
    {g : β → Except WriteFault δ} (hd : d ↔ d') (hfirst : Paired R x y) (hsecond : Paired R x' y')
    (hthird : Paired R x'' y'') (hfg : ∀ a b, R a b → Paired S (f a) (g b)) :
    Paired S (if c then x >>= f else if d then x' >>= f else x'' >>= f)
      (if c then y >>= g else if d' then y' >>= g else y'' >>= g) := by
  refine ite (fun _ => hfirst.bind hfg) fun _ => ?_
  simp only [hd]
  exact bind_ite hsecond hthird hfg

/-- A refusal is the same at both sites. -/
theorem refuse (span : Span) (cause : WriteCause) :
    Paired R (EcmaStack.refuse span cause) (EcmaStack.refuse span cause) :=
  .refused (.at span.offset cause)

end Paired

/-! ## Likeness -/

/-- Code without addresses and without source texts. -/
def Code.isPlain (c : Code) : Bool :=
  c.all fun i => i.op != .setSource && i.operands.all (·.kind != .address)

/-- The source text of a function, unless it is left out. -/
def Code.sourceText (terse : Bool) (bytes : List UInt8) : Code :=
  if terse then [] else [⟨.setSource, [.text bytes]⟩]

/-- A relation between the code of two sites that survives every way of putting code together.
The sites keep the source texts of functions or leave them out. -/
structure Likeness where
  terse : Bool
  terse' : Bool
  rel : Code → Code → Prop
  plain : ∀ {c : Code}, c.isPlain = true → rel c c
  append : ∀ {a a' b b' : Code}, rel a a' → rel b b' → rel (a ++ b) (a' ++ b')
  sealed : ∀ {a a' : Code}, rel a a' → rel a.sealed a'.sealed
  leave : ∀ {o : Opcode}, o ≠ .setSource → rel (branch o .exit) (branch o .exit)
  bypassed : ∀ {o : Opcode} {a a' : Code}, o ≠ .setSource → rel a a' →
    rel (bypassed o a) (bypassed o a')
  either : ∀ {o : Opcode} {a a' b b' : Code}, o ≠ .setSource → rel a a' → rel b b' →
    rel (Code.bypassed o (a ++ branch .jump (.ahead b.size)) ++ b)
      (Code.bypassed o (a' ++ branch .jump (.ahead b'.size)) ++ b')
  forever : ∀ {a a' : Code}, rel a a' → rel (forever a) (forever a')
  repeated : ∀ {o : Opcode} {a a' b b' : Code}, o ≠ .setSource → rel a a' → rel b b' →
    rel (repeated a o b) (repeated a' o b')
  framed : ∀ {o : Opcode} {a a' : Code} (labels : List String), o ≠ .setSource → rel a a' →
    rel (framed o labels a) (framed o labels a')
  switch : ∀ {d d' : Code} {tests tests' : List (Option Code)} {bodies bodies' : List Code},
    rel d d' →
    List.Forall₂ (Option.Rel rel) tests tests' → List.Forall₂ rel bodies bodies' →
    Paired rel (switchCode d tests bodies) (switchCode d' tests' bodies')
  guarded : ∀ {a a' : Code} {h h' f f' : Option Code}, rel a a' → Option.Rel rel h h' →
    Option.Rel rel f f' →
    rel (tryCode a h f) (tryCode a' h' f')
  enclosed : ∀ {a a' object : Code}, rel a a' → object.isPlain = true →
    rel (enclosed a object) (enclosed a' object)
  object : ∀ {o : Opcode} {a a' : Code} {bytes : List UInt8}, o ≠ .setSource → rel a a' →
    rel (Code.enclosed a (op o) ++ sourceText terse bytes) (Code.enclosed a' (op o) ++
      sourceText terse' bytes)

namespace Likeness

variable (L : Likeness)

theorem nil : L.rel [] [] :=
  L.plain rfl

/-- An operation is like itself unless it is the one that may be left out. -/
theorem op {o : Opcode} (h : o ≠ .setSource) : L.rel (op o) (op o) :=
  L.plain (by simp [Code.isPlain, Code.op, h])

/-- Code for each of some values. -/
theorem flatMap {α : Type} {f g : α → Code} {xs : List α} (h : ∀ x ∈ xs, L.rel (f x) (g x)) :
    L.rel (xs.flatMap f) (xs.flatMap g) := by
  induction xs with
  | nil => exact L.nil
  | cons x rest ih =>
    rw [List.flatMap_cons, List.flatMap_cons]
    exact L.append (h x List.mem_cons_self) (ih fun y hy => h y (List.mem_cons_of_mem x hy))

theorem drop (n : Nat) : L.rel (drop n) (drop n) := by
  induction n with
  | zero => exact L.nil
  | succ n ih => exact L.append (L.plain rfl) ih

/-- A choice between two branches, each of which has its counterpart of the same size. -/
theorem choice {a a' b b' c c' : Code} (ha : L.rel a a') (hb : L.rel b b') (hc : L.rel c c') :
    L.rel (choice a b c) (choice a' b' c') := by
  have hpop : L.rel (Code.op .pop) (Code.op .pop) := L.plain rfl
  have h :=
    L.append ha (L.either (o := .jumpFalse) Opcode.noConfusion (L.append hpop hb)
      (L.append hpop hc))
  simpa only [Code.choice, List.append_assoc] using h

/-- A template joins like values to the same texts. -/
theorem template {quasis : List TemplateElement} {values values' : List Code}
    (h : List.Forall₂ L.rel values values') :
    L.rel (templateCode quasis values) (templateCode quasis values') := by
  have hconcat : L.rel (Code.op .concat) (Code.op .concat) := L.plain rfl
  have hjoined (quasis : List TemplateElement) :
      L.rel (templateCode.joined quasis values) (templateCode.joined quasis values') := by
    induction h generalizing quasis with
    | nil => cases quasis <;> exact L.nil
    | cons hvalue _ ih =>
      cases quasis with
      | nil => exact L.append (L.append hvalue hconcat) (ih [])
      | cons q quasis =>
        have htext : L.rel (string q.cooked) (string q.cooked) := L.plain rfl
        exact L.append (L.append (L.append (L.append hvalue hconcat) htext) hconcat) (ih quasis)
  cases quasis with
  | nil => exact L.plain rfl
  | cons q quasis =>
    have htext : L.rel (string q.cooked) (string q.cooked) := L.plain rfl
    exact L.append htext (hjoined quasis)

/-- An array of values. -/
theorem array {items items' : List Code} (h : List.Forall₂ L.rel items items') :
    L.rel (arrayCode items) (arrayCode items') := by
  have hpush : L.rel (Code.op .pushArray) (Code.op .pushArray) := L.plain rfl
  have happend : L.rel (Code.op .append) (Code.op .append) := L.plain rfl
  refine L.append hpush ?_
  induction h with
  | nil => exact L.nil
  | cons hitem _ ih => exact L.append (L.append hitem happend) ih

theorem optionalExit (optional : Bool) :
    L.rel (optionalExit optional) (EcmaStack.optionalExit optional) := by
  cases optional
  · exact L.nil
  · exact L.leave Opcode.noConfusion

theorem unlessMissing (values : Nat) :
    L.rel (unlessMissing values) (EcmaStack.unlessMissing values) := by
  have hpush : L.rel (Code.op .pushUndefined) (Code.op .pushUndefined) := L.plain rfl
  exact L.bypassed Opcode.noConfusion (L.append (L.append (L.drop values) hpush)
    (L.leave Opcode.noConfusion))

/-- Like links make like chains. -/
theorem finish (use : Use) {a a' : Code} (h : L.rel a a') :
    L.rel (use.finish a) (use.finish a') := by
  cases use with
  | link => exact h
  | value | named => exact L.sealed h

/-- A jump over code, for each of the ways an operator may pass over its right operand. -/
theorem shortCircuit {k : Kind} {o : Opcode} (ho : k.shortCircuit? = some o) : o ≠ .setSource := by
  unfold Kind.shortCircuit? at ho
  split at ho <;> cases ho <;> exact Opcode.noConfusion

theorem binary {k : Kind} {o : Opcode} (ho : k.binaryOpcode? = some o) :
    L.rel (Code.op o) (Code.op o) := by
  unfold Kind.binaryOpcode? at ho
  split at ho <;> cases ho <;> exact L.plain rfl

theorem unary {k : Kind} {o : Opcode} (ho : k.unaryOpcode? = some o) :
    L.rel (Code.op o) (Code.op o) := by
  unfold Kind.unaryOpcode? at ho
  split at ho <;> cases ho <;> exact L.plain rfl

/-- A value that is there on both sides or on neither. -/
theorem default {o o' : Option Code} (h : Option.Rel L.rel o o') {c : Code} (hc : L.rel c c) :
    L.rel (o.getD c) (o'.getD c) := by
  cases h with
  | some h => exact h
  | none => exact hc

end Likeness

/-! ## Sites -/

/-- Sites that give like code, provided that instances are initialized alike where the
superclass's constructor may be called. -/
structure CodeSite.Alike (L : Likeness) (calls : Bool) (s s' : CodeSite) : Prop where
  file : s.file = s'.file
  lineStarts : s.lineStarts = s'.lineStarts
  async : s.async = s'.async
  terse : s.omitSource = L.terse
  terse' : s'.omitSource = L.terse'
  fields : calls = true →
    Option.Rel (fun f f' => ∀ async, Paired L.rel (f async) (f' async)) s.fields s'.fields

namespace CodeSite.Alike

variable {L : Likeness} {calls : Bool} {s s' : CodeSite}

/-- Sites that are alike with calls of the superclass are alike without. -/
theorem mono {fewer : Bool} (h : s.Alike L calls s') (hfewer : fewer = true → calls = true) :
    s.Alike L fewer s' :=
  { h with fields := h.fields ∘ hfewer }

/-- Inside a function nothing is left of what initializes the instances around it. -/
theorem inFunction {own : Bool} (h : s.Alike L calls s') (async : Bool) :
    (s.inFunction async).Alike L own (s'.inFunction async) :=
  { h with async := rfl, fields := fun _ => .none }

/-- An arrow function keeps what its surroundings know. -/
theorem inArrow (h : s.Alike L calls s') (async : Bool) :
    (s.inArrow async).Alike L calls (s'.inArrow async) :=
  { h with async := rfl }

/-- The line of an operation is counted in the same file at both sites. -/
theorem placed (h : s.Alike L calls s') (o : Opcode) (span : Span) :
    s.placed o span = s'.placed o span := by
  simp only [CodeSite.placed, h.file, h.lineStarts]

theorem placed_rel (h : s.Alike L calls s') {o : Opcode} (ho : o ≠ .setSource) (span : Span) :
    L.rel (s.placed o span) (s'.placed o span) := by
  rw [h.placed]
  exact L.plain (by simp [Code.isPlain, CodeSite.placed, Code.placed, ho, Operand.kind])

/-- A call of the superclass goes on with what both sites have for it. -/
theorem superCall (h : s.Alike L true s') (span : Span) :
    Paired L.rel (s.superCall span) (s'.superCall span) := by
  have hcall := h.placed_rel (o := .superCall) Opcode.noConfusion span
  have hfields := h.fields rfl
  unfold CodeSite.superCall
  generalize s.fields = f, s'.fields = f' at hfields
  cases hfields with
  | none => exact .ok hcall
  | some hfields =>
    rw [h.async]
    exact (hfields s'.async).bind fun _ _ hc => .ok (L.append hcall hc)

theorem implicitSuperCall (h : s.Alike L true s') (span : Span) :
    Paired L.rel (s.implicitSuperCall span) (s'.implicitSuperCall span) := by
  have hload : L.rel (text .load "arguments") (text .load "arguments") := L.plain rfl
  have hpop : L.rel (op .pop) (op .pop) := L.plain rfl
  exact (h.superCall span).bind fun _ _ hc => .ok (L.append (L.append hload hc) hpop)

/-- A function object around bodies that are alike. The text of the function is where two
sites may differ. -/
theorem functionObject (h : s.Alike L calls s') {o : Opcode} (ho : o ≠ .setSource) (span : Span)
    (name : Text) (closure : List String) {a a' : Code} (hbody : L.rel a a') :
    L.rel (s.functionObject o span name closure a) (s'.functionObject o span name closure a') := by
  have hsource : s.sourceOf span = s'.sourceOf span := by simp only [CodeSite.sourceOf, h.file]
  have hname : L.rel (if name.isEmpty then [] else string name ++ op .setName)
      (if name.isEmpty then [] else string name ++ op .setName) := by
    split
    · exact L.nil
    · exact L.plain rfl
  have hclosure : L.rel (closure.flatMap (fun n => text .setClosure (.ofString n)))
      (closure.flatMap (fun n => text .setClosure (.ofString n))) :=
    L.flatMap fun _ _ => L.plain rfl
  unfold CodeSite.functionObject
  rw [h.terse, h.terse', hsource]
  exact L.append (L.append (L.object ho hbody) hname) hclosure

end CodeSite.Alike

/-! ## Scopes -/

/-- Declarations of the same function with like code. -/
structure Hoisted.Alike (L : Likeness) (h h' : Hoisted) : Prop where
  site : h.site = h'.site
  name : h.name = h'.name
  code : Paired L.rel h.code h'.code

section Scopes

variable {L : Likeness}

/-- The functions declared in a scope, made and stored one after the other. -/
theorem Hoisted.assign_paired {hs hs' : List Hoisted} (h : List.Forall₂ (Hoisted.Alike L) hs hs') :
    Paired L.rel (Hoisted.assign hs) (Hoisted.assign hs') := by
  induction h with
  | nil => exact .ok L.nil
  | @cons x x' _ _ hx _ ih =>
    have hstore : L.rel (text .store x.name) (text .store x'.name) := hx.name ▸ L.plain rfl
    have hpop : L.rel (op .pop) (op .pop) := L.plain rfl
    refine hx.code.bind fun c c' hc => ?_
    exact ih.bind fun _ _ hd => .ok (L.append (L.append (L.append hc hstore) hpop) hd)

/-- The same binding finds like declarations. -/
theorem Variable.hoisted?_alike {hs hs' : List Hoisted} (h : List.Forall₂ (Hoisted.Alike L) hs hs')
    (v : Variable) :
    Option.Rel (Hoisted.Alike L) (v.hoisted? hs) (v.hoisted? hs') := by
  unfold Variable.hoisted?
  split
  · next site _ _ =>
    induction h with
    | nil => exact .none
    | @cons x x' _ _ hx _ ih =>
      rw [List.find?_cons, List.find?_cons, hx.site]
      cases x'.site == site
      · exact ih
      · exact .some hx
  · exact .none

/-- A scope is opened at both sites or at none. -/
theorem openScope_paired (scope : Option Scope) {hs hs' : List Hoisted}
    (h : List.Forall₂ (Hoisted.Alike L) hs hs') :
    Paired L.rel (openScope scope hs) (openScope scope hs') := by
  have hassigned (vs : List Variable) :
      List.Forall₂ (Hoisted.Alike L) (vs.filterMap (·.hoisted? hs))
        (vs.filterMap (·.hoisted? hs')) := by
    induction vs with
    | nil => exact .nil
    | cons v rest ih =>
      have hv := v.hoisted?_alike h
      rw [List.filterMap_cons, List.filterMap_cons]
      generalize v.hoisted? hs = o, v.hoisted? hs' = o' at hv
      cases hv with
      | none => exact ih
      | some hv => exact .cons hv ih
  have hopening (v : Variable) : L.rel v.opening v.opening := by
    have hdefine : L.rel (text .define v.name) (text .define v.name) := L.plain rfl
    refine L.append ?_ hdefine
    cases v.kind <;> exact L.plain rfl
  have hpush : L.rel (op .pushScope) (op .pushScope) := L.plain rfl
  refine (Hoisted.assign_paired (hassigned _)).bind fun _ _ hc => .ok ?_
  exact L.append (L.append hpush (L.flatMap fun v _ => hopening v)) hc

/-- So it is closed at both or at none. -/
theorem inScope_paired (scope : Option Scope) {hs hs' : List Hoisted}
    (h : List.Forall₂ (Hoisted.Alike L) hs hs') {x x' : Lowering} (hx : Paired L.rel x x') :
    Paired L.rel (inScope scope hs x) (inScope scope hs' x') := by
  have hpop : L.rel (op .popScope) (op .popScope) := L.plain rfl
  refine .ite (fun _ => ?_) fun _ => hx
  refine (openScope_paired scope h).bind fun c c' hc => ?_
  exact hx.bind fun _ _ hd => .ok (L.append (L.append hc hd) hpop)

end Scopes

/-! ## Members and targets -/

/-- Targets of the same form with like code. -/
structure Reference.Alike (L : Likeness) (r r' : Reference) : Prop where
  target : r.target = r'.target
  code : L.rel r.code r'.code

section References

variable {L : Likeness} {r r' : Reference}

theorem Target.get_rel (t : Target) : L.rel t.get t.get := by
  cases t <;> exact L.plain rfl

theorem Target.set_rel (t : Target) : L.rel t.set t.set := by
  cases t <;> exact L.plain rfl

theorem Target.bind_rel (t : Target) : L.rel t.bind t.bind := by
  cases t <;> exact L.plain rfl

namespace Reference.Alike

theorem bind (h : r.Alike L r') : L.rel (r.code ++ r.target.bind) (r'.code ++ r'.target.bind) := by
  rw [h.target]
  exact L.append h.code r'.target.bind_rel

/-- A reference that is set to values which are alike. -/
theorem assign (h : r.Alike L r') {c c' : Code} (hc : L.rel c c') :
    L.rel (r.code ++ c ++ r.target.set) (r'.code ++ c' ++ r'.target.set) := by
  rw [h.target]
  exact L.append (L.append h.code hc) r'.target.set_rel

/-- A reference that is read, combined with a value and set. -/
theorem compound (h : r.Alike L r') {c c' : Code} (hc : L.rel c c') {o : Opcode}
    (ho : L.rel (op o) (op o)) :
    L.rel (r.code ++ r.target.get ++ c ++ op o ++ r.target.set) (r'.code ++ r'.target.get ++ c' ++
      op o ++ r'.target.set) := by
  rw [h.target]
  exact L.append (L.append (L.append (L.append h.code r'.target.get_rel) hc) ho) r'.target.set_rel

theorem update (h : r.Alike L r') (up before : Bool) :
    L.rel (r.update up before) (r'.update up before) := by
  unfold Reference.update
  rw [h.target]
  have hget := L.append h.code r'.target.get_rel
  split
  · have hstep : L.rel (op (if up then .inc else .dec)) (op (if up then .inc else .dec)) := by
      cases up <;> exact L.plain rfl
    exact L.append (L.append hget hstep) r'.target.set_rel
  · have hstep :
        L.rel (op (if up then .deferInc else .deferDec))
          (op (if up then .deferInc else .deferDec)) := by
      cases up <;> exact L.plain rfl
    have hsink : L.rel (sink (r'.target.depth + 1)) (sink (r'.target.depth + 1)) := L.plain rfl
    exact L.append (L.append (L.append (L.append hget hstep) hsink) r'.target.set_rel) (L.plain rfl)

theorem assignUnless (h : r.Alike L r') {c c' : Code} (hc : L.rel c c') {decided : Opcode}
    (ho : decided ≠ .setSource) :
    L.rel (r.assignUnless decided c) (r'.assignUnless decided c') := by
  unfold Reference.assignUnless
  rw [h.target]
  have hpop : L.rel (op .pop) (op .pop) := L.plain rfl
  have hkeep (n : Nat) :
      L.rel (if n == 0 then [] else sink n ++ drop n)
        (if n == 0 then [] else sink n ++ drop n) := by
    split
    · exact L.nil
    · exact L.append (L.plain rfl) (L.drop n)
  have hassign := L.append (L.append hpop hc) r'.target.set_rel
  have heither := L.either ho hassign (hkeep r'.target.depth)
  have h' := L.append (L.append h.code r'.target.get_rel) heither
  simpa only [List.append_assoc] using h'

end Reference.Alike

end References

/-- Members of the same form with like objects and like keys. -/
structure Member.Alike (L : Likeness) (m m' : Member) : Prop where
  ofSuper : m.ofSuper = m'.ofSuper
  isPrivate : m.isPrivate = m'.isPrivate
  optional : m.optional = m'.optional
  object : ∀ use, Paired L.rel (m.object use) (m'.object use)
  key : Paired L.rel m.key m'.key

namespace Member.Alike

variable {L : Likeness} {calls : Bool} {m m' : Member} {s s' : CodeSite}

theorem getter (h : m.Alike L m') : L.rel (op m.getter) (op m'.getter) := by
  unfold Member.getter
  rw [h.isPrivate]
  split <;> exact L.plain rfl

theorem read (h : m.Alike L m') : Paired L.rel m.read m'.read := by
  unfold Member.read
  rw [h.ofSuper, h.optional]
  refine .ite (fun _ => ?_) fun _ => ?_
  · exact h.key.bind fun _ _ hk => .ok (L.append hk (L.plain rfl))
  · refine (h.object .link).bind fun o o' ho => ?_
    refine h.key.bind fun _ _ hk => .ok ?_
    exact L.append (L.append (L.append ho (L.optionalExit m'.optional)) hk) h.getter

theorem remove (h : m.Alike L m') (span : Span) :
    Paired L.rel (m.remove span) (m'.remove span) := by
  unfold Member.remove
  rw [h.ofSuper, h.isPrivate, h.optional]
  refine .ite (fun _ => .refuse span .deletion) fun _ => ?_
  refine (h.object .link).bind fun o o' ho => ?_
  refine h.key.bind fun _ _ hk => .ok ?_
  exact L.sealed (L.append (L.append (L.append ho (L.optionalExit m'.optional)) hk) (L.plain rfl))

theorem call (h : m.Alike L m') (hs : s.Alike L calls s') (direct optional : Bool) (span : Span)
    {items items' : Lowering} (hitems : Paired L.rel items items') :
    Paired L.rel (m.call direct optional s span items)
    (m'.call direct optional s' span items') := by
  have hpush : L.rel (op .pushArray) (op .pushArray) := L.plain rfl
  have hpick : L.rel (pick 1) (pick 1) := L.plain rfl
  unfold Member.call
  rw [h.ofSuper, h.isPrivate, h.optional]
  refine .ite (fun _ => ?_) fun _ => ?_
  · refine h.key.bind fun k k' hk => ?_
    refine hitems.bind fun _ _ hi => .ok ?_
    have hguard : L.rel
        (if optional then pick 1 ++ op .getSuperField ++ unlessMissing 2 ++ op .pop else [])
        (if optional then pick 1 ++ op .getSuperField ++ unlessMissing 2 ++ op .pop else []) := by
      split
      · exact L.append (L.append (L.plain rfl) (L.unlessMissing 2)) (L.plain rfl)
      · exact L.nil
    have hcall := hs.placed_rel (o := .superMemberCall) Opcode.noConfusion span
    exact L.append (L.append (L.append hk hguard) (L.append hpush hi)) hcall
  · refine (h.object _).bind fun o o' ho => ?_
    refine h.key.bind fun k k' hk => ?_
    refine hitems.bind fun i i' hi => ?_
    have hobject := L.append ho (L.optionalExit (m'.optional && direct))
    have harguments := L.append hpush hi
    refine .ite (fun _ => .ok ?_) fun _ => .ok ?_
    · have hcall := hs.placed_rel (o := .privateCall) Opcode.noConfusion span
      exact L.append (L.append (L.append hobject hk) harguments) hcall
    · have hguard :
          L.rel (if optional then unlessMissing 2 else [])
            (if optional then unlessMissing 2 else []) := by
        split
        · exact L.unlessMissing 2
        · exact L.nil
      have hcall := hs.placed_rel (o := .memberCall) Opcode.noConfusion span
      have hread := L.append (L.append (L.append hobject hpick) hk) h.getter
      exact L.append (L.append (L.append hread hguard) harguments) hcall

theorem tag (h : m.Alike L m') (hs : s.Alike L calls s') (span : Span) {parts parts' : Lowering}
    (hparts : Paired L.rel parts parts') :
    Paired L.rel (m.tag s span parts) (m'.tag s' span parts') := by
  have hpick : L.rel (pick 1) (pick 1) := L.plain rfl
  have hget : L.rel (op .getField) (op .getField) := L.plain rfl
  unfold Member.tag
  rw [h.ofSuper, h.isPrivate]
  refine .ite (fun _ => ?_) fun _ => ?_
  · refine h.key.bind fun k k' hk => ?_
    refine hparts.bind fun _ _ hp => .ok ?_
    have hcall := hs.placed_rel (o := .superMemberTag) Opcode.noConfusion span
    exact L.append (L.append hk hp) hcall
  · refine (h.object .value).bind fun o o' ho => ?_
    refine h.key.bind fun k k' hk => ?_
    refine hparts.bind fun p p' hp => ?_
    refine .ite (fun _ => .ok ?_) fun _ => .ok ?_
    · have hcall := hs.placed_rel (o := .privateTag) Opcode.noConfusion span
      exact L.append (L.append (L.append ho hk) hp) hcall
    · have hcall := hs.placed_rel (o := .memberTag) Opcode.noConfusion span
      exact L.append (L.append (L.append (L.append (L.append ho hpick) hk) hget) hp) hcall

theorem reference (h : m.Alike L m') : Paired (Reference.Alike L) m.reference m'.reference := by
  unfold Member.reference
  rw [h.ofSuper, h.isPrivate]
  refine .ite (fun _ => ?_) fun _ => ?_
  · exact h.key.bind fun _ _ hk => .ok ⟨rfl, hk⟩
  · refine (h.object .value).bind fun o o' ho => ?_
    exact h.key.bind fun _ _ hk => .ok ⟨rfl, L.append ho hk⟩

end Member.Alike

end EcmaStack

import EcmaStack.Proofs.Binding.Machine
import EcmaStack.Proofs.Control.Realized
import EcmaStack.Proofs.Evaluation.Fragments
import EcmaStack.Proofs.Token.Reading

/-!
# Every expression has code

Whatever an expression is lowered to is more than nothing, so that pieces of cut code can be
told apart by where they stand.
-/

namespace EcmaStack

/-- There is some code. -/
abbrev Code.Present (c : Code) : Prop :=
  c ≠ []

namespace Code

variable {c d : Code} {o : Opcode}

/-- Code that is there: every operation is some code, -/
theorem present_op : (op o).Present :=
  List.cons_ne_nil _ _

/-- and so is anything with some code in it. -/
theorem Present.before (h : d.Present) : (c ++ d).Present :=
  List.append_ne_nil_of_right_ne_nil c h

theorem Present.after (h : c.Present) : (c ++ d).Present :=
  List.append_ne_nil_of_left_ne_nil h d

theorem Present.sealed (h : c.Present) : c.sealed.Present := by
  cases c with
  | nil => exact absurd rfl h
  | cons i rest => exact List.cons_ne_nil _ _

theorem Present.finish {use : Use} (h : c.Present) : (use.finish c).Present := by
  cases use with
  | link => exact h
  | _ => exact h.sealed

theorem present_functionObject {s : CodeSite} {span : Span} {name : Text} {closure : List String}
    {body : Code} :
    (s.functionObject o span name closure body).Present :=
  .after (.after (.after (.before (List.cons_ne_nil _ _))))

end Code

/-- Lowering makes some code, if it makes any. -/
abbrev Present (x : Lowering) : Prop :=
  Makes Code.Present x

section

variable {m : Member} {s : CodeSite} {span : Span} {use : Use} {r : Reference}

/-- No access to a target is empty, -/
theorem Target.present_get (t : Target) : t.get.Present := by
  cases t <;> exact List.cons_ne_nil _ _

theorem Target.present_set (t : Target) : t.set.Present := by
  cases t <;> exact List.cons_ne_nil _ _

theorem Reference.present_update {up before : Bool} : (r.update up before).Present := by
  rw [update]
  split
  · exact .before r.target.present_set
  · exact .before Code.present_op

theorem Reference.present_assignUnless {decided : Opcode} {value : Code} :
    (r.assignUnless decided value).Present :=
  .after (.after (.before r.target.present_get))

/-- nor is any use of a member, -/
theorem Member.present_read : Present m.read := by
  rw [read]
  split
  · exact .skip fun _ => .ok (.before Code.present_op)
  · exact .skip fun _ => .skip fun _ => .ok (.before Code.present_op)

theorem Member.present_remove : Present (m.remove span) := by
  rw [remove]
  split
  · exact .error
  · exact .skip fun _ => .skip fun _ => .ok (Code.Present.before Code.present_op).sealed

theorem Member.present_tag {parts : Lowering} : Present (m.tag s span parts) := by
  rw [tag]
  split
  · exact .skip fun _ => .skip fun _ => .ok (.before (List.cons_ne_nil _ _))
  · refine .skip fun _ => .skip fun _ => .skip fun _ => ?_
    split <;> exact .ok (.before (List.cons_ne_nil _ _))

theorem Member.present_call {direct optional : Bool} {items : Lowering} :
    Present (m.call direct optional s span items) := by
  rw [call]
  split
  · exact .skip fun _ => .skip fun _ => .ok (.before (List.cons_ne_nil _ _))
  · refine .skip fun _ => .skip fun _ => .skip fun _ => ?_
    split <;> exact .ok (.before (List.cons_ne_nil _ _))

/-- nor is what a template, a function or a class is lowered to. -/
theorem Template.present_lower (t : Template) : Present (t.lower s) := by
  obtain ⟨span, quasis, expressions⟩ := t
  rw [lower]
  split
  · exact .ok (List.cons_ne_nil _ _)
  · refine .skip fun codes => .ok ?_
    cases quasis <;> exact List.cons_ne_nil _ _

theorem Function.present_lower (f : Function) : Present (f.lower s use) := by
  obtain ⟨span, own, params, body, async, generator, env⟩ := f
  rw [lower]
  split <;> refine .skip fun _ => .skip fun _ => .skip fun _ => .skip fun _ => .ok ?_ <;>
    exact .after (.before Code.present_functionObject)

theorem Class.present_lower (c : Class) : Present (c.lower s use) := by
  obtain ⟨span, own, superClass, elements, decorators, env⟩ := c
  -- The object of the class stands amid what is made around it, and is there whatever else is.
  have hwhole {around object heritage proto onClass decorated store once close : Code}
      (h : object.Present) :
      (around ++ object ++ heritage ++ proto ++ onClass ++ decorated ++ store ++ once ++
        close).Present :=
    .after (.after (.after (.after (.after (.after (.after (.before h)))))))
  refine .skip_ite fun around => .skip fun opening => .skip fun head =>
    .skip_ite_ite fun prepared => ?_
  refine .skip fun body => .skip fun heritage => .skip fun onPrototype => .skip fun onClass => ?_
  exact .skip fun decorated => .skip fun once => .ok (hwhole Code.present_functionObject)

/-- Every expression has code, for whatever use. -/
theorem Expr.present_lower (e : Expr) (use : Use) : Present (e.lower s use) := by
  cases e with
  | missing | superRef | spread => exact .error
  | identifier | privateName | nullLiteral | boolean | bigint | string | regexp | thisRef
  | metaProperty =>
    exact .ok (List.cons_ne_nil _ _)
  | number span raw value =>
    refine .ok ?_
    rw [numberCode]
    split
    · exact Code.present_op
    · split <;> exact List.cons_ne_nil _ _
  | template t => exact t.present_lower
  | tagged span tag quasi =>
    rw [lower_tagged]
    split
    · exact Member.present_tag
    · exact .skip fun _ => .skip fun _ => .ok (.before (List.cons_ne_nil _ _))
  | array | object => exact .skip fun _ => .ok (.after Code.present_op)
  | paren span e => exact e.present_lower .value
  | call span callee args optional =>
    rw [lower_call]
    split
    · exact .skip fun _ => .skip fun _ =>
        .ok (Code.Present.finish (.after (.after Code.present_op)))
    · split
      · exact Member.present_call.bind fun _ h => .ok h.finish
      · refine .skip fun _ => .skip fun _ => ?_
        split
        · exact .ok (.before (List.cons_ne_nil _ _))
        · exact .ok (Code.Present.finish (.before (List.cons_ne_nil _ _)))
  | construct => exact .skip fun _ => .skip fun _ => .ok (.before (List.cons_ne_nil _ _))
  | member => exact Member.present_read.bind fun _ h => .ok h.finish
  | importCall => exact .skip fun _ => .skip fun _ => .ok (.before (List.cons_ne_nil _ _))
  | unary span op e =>
    rw [lower_unary]
    split
    · split
      · exact Member.present_remove
      · split
        · exact .ok Code.present_op
        · exact .skip fun _ => .ok (.before Code.present_op)
    · split
      · exact .skip fun _ => .ok (.before Code.present_op)
      · exact .error
  | await => exact .skip fun _ => .ok (.before Code.present_op)
  | update => exact .skip fun _ => .ok Reference.present_update
  | binary span op left right =>
    rw [lower_binary]
    split
    · exact .skip fun _ => .skip fun _ => .ok (.after (.before Code.present_op))
    · split
      · exact .skip fun _ => .skip fun _ => .ok (.before (List.cons_ne_nil _ _))
      · split
        · exact .skip fun _ => .skip fun _ => .ok (.before Code.present_op)
        · exact .error
  | conditional =>
    exact .skip fun _ => .skip fun _ => .skip fun _ =>
      .ok (.after (.before (.after (List.cons_ne_nil _ _))))
  | assign span op target value =>
    rw [lower_assign]
    split
    · exact .skip fun _ => .skip fun _ => .ok (.after (.before (List.cons_ne_nil _ _)))
    · refine .skip fun r => ?_
      split
      · exact .skip fun _ => .ok (.before r.target.present_set)
      · split
        · exact .skip fun _ => .ok Reference.present_assignUnless
        · split
          · exact .skip fun _ => .ok (.before r.target.present_set)
          · exact .error
  | yield span argument delegate =>
    refine .skip fun _ => .ok (.before ?_)
    split
    · exact List.cons_ne_nil _ _
    · exact Code.present_op
  | function f => exact f.present_lower
  | arrow span params body value async env =>
    rw [lower_arrow]
    refine .skip fun _ => .skip fun _ => ?_
    cases body.isMissing <;> exact .skip fun _ => .ok Code.present_functionObject
  | classExpr c => exact c.present_lower

end

end EcmaStack

/-!
## The code of patterns binds

Each operation of a pattern, and the jump over a default, is a fragment with a law of its own.
From these come the laws of the constructs (`Code.Cut.array`, `Code.Cut.objectRest`), and from
those, by induction over the tree, that the code of a pattern does with the value on top of the
stack what the pattern means (`Pattern.lower_binds`).
-/

namespace EcmaStack

/-! ## Operations -/

namespace Parts

open Segments

variable {V : Type} {h : Host V} {stack : List (Entry V)} {lists : List (List V)} {a b c : Entry V}
    {v object : V}

namespace Carries

/-- The operations of the machine, one by one, on the stack and the lists of keys. -/
theorem pop : Carries h (ofCode (Code.op .pop)) ⟨a :: stack, lists⟩ ⟨stack, lists⟩ :=
  instr fun _ => rfl

theorem drop_two : Carries h (ofCode (Code.drop 2)) ⟨a :: b :: stack, lists⟩ ⟨stack, lists⟩ :=
  pop.append pop

/-- A pick copies a slot to the top. -/
theorem pick_one : Carries h (ofCode (Code.pick 1)) ⟨a :: stack, lists⟩ ⟨a :: a :: stack, lists⟩ :=
  instr fun _ => rfl

theorem pick_two :
    Carries h (ofCode (Code.pick 2)) ⟨a :: b :: stack, lists⟩ ⟨b :: a :: b :: stack, lists⟩ :=
  instr fun _ => rfl

theorem pick_three :
    Carries h (ofCode (Code.pick 3)) ⟨a :: b :: c :: stack, lists⟩ ⟨c :: a :: b :: c :: stack,
      lists⟩ :=
  instr fun _ => rfl

/-- A new list of keys is the last of the lists. -/
theorem pushArray :
    Carries h (ofCode (Code.op .pushArray)) ⟨stack, lists⟩ ⟨.keys lists.length :: stack,
      lists ++ [[]]⟩ :=
  instr fun _ => rfl

theorem append_key {n : Nat} :
    Carries h (ofCode (Code.op .append)) ⟨.value v :: .keys n :: stack, lists⟩
    ⟨.keys n :: stack, lists.modify n (· ++ [v])⟩ :=
  instr fun _ => rfl

/-- An operation that pushes a constant. -/
theorem constant {o : Opcode} {k : Constant} (ho : o.constant? [] = some k) :
    Carries h (ofCode (Code.op o)) ⟨stack, lists⟩ ⟨.value (h.constant k) :: stack, lists⟩ := by
  refine instr fun _ => ?_
  cases o <;> cases ho <;> rfl

/-- Constants are pushed as the host makes them. -/
theorem string {text : Text} : Carries h (ofCode (Code.string text)) ⟨stack, lists⟩
    ⟨.value (h.constant (.text text.encode)) :: stack, lists⟩ :=
  instr fun _ => rfl

theorem number {n : Binary64} :
    Carries h (ofCode (numberCode n)) ⟨stack, lists⟩ ⟨.value (h.constant (.ofNumber n)) :: stack,
      lists⟩ := by
  rw [numberCode]
  split
  · next hnan =>
    rw [Constant.ofNumber, if_pos hnan]
    exact constant rfl
  · split
    · next hinfinite =>
      rw [Binary64.eq_infinity hinfinite]
      exact constant rfl
    · exact instr fun _ => rfl

end Carries

namespace Performs

/-- What is asked of the host is answered by it, and may break off. -/
theorem iterator :
    Performs h (ofCode (Code.op .iterator)) ⟨.value v :: stack, lists⟩ (h.ask (.iterator v))
    fun iterator y => y = ⟨.value iterator :: stack, lists⟩ :=
  instr fun _ => rfl

/-- The next value comes with whether the iterator is done on top. -/
theorem next {iterator : V} :
    Performs h (ofCode (Code.op .next)) ⟨.value iterator :: stack, lists⟩ (h.ask (.next iterator))
    fun v y => ∃ done, y = ⟨.value done :: .value v :: .value iterator :: stack, lists⟩ := by
  let act : Attempt V (V × V) := do
    let v ← h.ask (.next iterator)
    let done ← h.isDone
    return (v, done)
  have hact : (act >>= fun x => pure x.1) = h.ask (.next iterator) := by
    simp only [act, bind_assoc, pure_bind]
    exact bind_pure _
  have hrun : Performs h (ofCode (Code.op .next)) ⟨.value iterator :: stack, lists⟩ act
      fun x y => y = ⟨.value x.2 :: .value x.1 :: .value iterator :: stack, lists⟩ :=
    instr fun _ => by simp only [act, bind_assoc, pure_bind]; rfl
  rw [← hact]
  exact hrun.map fun x y hy => ⟨x.2, hy⟩

theorem rest {iterator : V} :
    Performs h (ofCode (Code.op .rest)) ⟨.value iterator :: stack, lists⟩ (h.ask (.rest iterator))
    fun left y => y = ⟨.value left :: .value iterator :: stack, lists⟩ :=
  instr fun _ => rfl

theorem getField {key : V} :
    Performs h (ofCode (Code.op .getField)) ⟨.value key :: .value object :: stack, lists⟩
    (h.ask (.getField object key)) fun v y => y = ⟨.value v :: stack, lists⟩ :=
  instr fun _ => rfl

theorem restObject {n : Nat} {keys : List V} (hkeys : lists[n]? = some keys) :
    Performs h (ofCode (Code.op .restObject)) ⟨.keys n :: .value object :: stack, lists⟩
    (h.ask (.restObject object keys))
      fun left y => y = ⟨.value left :: .keys n :: .value object :: stack, lists⟩ := by
  refine instr fun _ => ?_
  show lists[n]?.map _ = _
  rw [hkeys]
  rfl

theorem store {name : String} :
    Performs h (ofCode (Code.text .store name)) ⟨.value v :: stack, lists⟩
    (h.ask (.store (utf8Bytes name) v)) fun _ y => y = ⟨.value v :: stack, lists⟩ :=
  instr fun _ => rfl

end Performs

/-! ## Defaults -/

/-- The jump over a default, in front of what it passes over. -/
def skipping (g : Parts) : Parts :=
  ofCode (Code.branch .jumpNotUndefined (.ahead g.size))

/-- What the jump does with the value on top. -/
private theorem handle_jumpNotUndefined (reach : Reach) (start : Nat) :
    (Instr.settle id start ⟨.jumpNotUndefined, [.address reach]⟩).handle h start ⟨.value v :: stack,
      lists⟩ =
      some (return (if h.isUndefined v then start + Code.jumpSize
        else reach.target (start + Code.jumpSize) start (start + Code.jumpSize), ⟨.value v :: stack,
          lists⟩)) :=
  rfl

variable {g : Parts}

/-- A value stands, and the default is passed over. -/
theorem Carries.passed (hv : h.isUndefined v = false) :
    Carries h (skipping g ++ g) ⟨.value v :: stack, lists⟩ ⟨.value v :: stack, lists⟩ := by
  refine iff_reaches.mpr fun before after trace => .of_step ?_
  rw [List.append_assoc, List.append_assoc, skipping, Code.branch, ofCode, List.map_singleton,
    List.singleton_append, step_instr, handle_jumpNotUndefined, hv, List.singleton_append,
    size_cons, ← Nat.add_assoc]
  rfl

/-- What is undefined is on top when the default begins. -/
theorem Carries.fallen (hv : h.isUndefined v = true) :
    Carries h (skipping g) ⟨.value v :: stack, lists⟩ ⟨.value v :: stack, lists⟩ :=
  instr fun start => by
    rw [handle_jumpNotUndefined, hv]
    rfl

/-- A default takes the place of a value that is undefined. -/
theorem Performs.supply {e : Expr} {use : Use} (hg : ∀ x, Performs h g x (h.ask (.evaluate e use))
    fun v y => y = { x with stack := .value v :: x.stack }) :
    Performs h (skipping (ofCode (Code.op .pop) ++ g) ++ (ofCode (Code.op .pop) ++ g))
    ⟨.value v :: stack, lists⟩
      (Expr.supply h use (some e) v) fun v y => y = ⟨.value v :: stack, lists⟩ := by
  rw [Expr.supply]
  split
  · next hv => exact ((hg ⟨stack, lists⟩).before .pop).before (.fallen hv)
  · next hv => exact (Carries.passed (Bool.eq_false_iff.mpr hv)).performs rfl

end Parts

/-! ## What fragments of patterns do -/

namespace Parts

/-- The fragment pushes the key of a property. -/
def PushesKey (key : Expr) (computed : Bool) (f : Parts) : Prop :=
  ∀ ⦃V : Type⦄ (h : Host V) (stack : List (Entry V)) (lists : List (List V)),
    f.Performs h ⟨stack, lists⟩ (key.askKey h computed) fun k y => y = ⟨.value k :: stack, lists⟩

/-- The fragment puts a default in the place of the value on top if that is undefined. -/
def Supplies (use : Use) (fallback : Option Expr) (f : Parts) : Prop :=
  ∀ ⦃V : Type⦄ (h : Host V) (v : V) (stack : List (Entry V)) (lists : List (List V)),
    f.Performs h ⟨.value v :: stack, lists⟩ (Expr.supply h use fallback v) fun v y => y =
      ⟨.value v :: stack, lists⟩

/-- The fragment binds the value on top to the pattern and drops it. New lists may be left over,
the old ones stay. -/
def Binds (p : Pattern) (f : Parts) : Prop :=
  ∀ ⦃V : Type⦄ (h : Host V) (v : V) (stack : List (Entry V)) (lists : List (List V)),
    f.Performs h ⟨.value v :: stack, lists⟩ (p.receive h v) fun _ y => ∃ made, y =
      ⟨stack, lists ++ made⟩

/-- The fragment binds what is left of the iterator on top. -/
def BindsRest (rest : Option Pattern) (f : Parts) : Prop :=
  ∀ ⦃V : Type⦄ (h : Host V) (iterator : V) (stack : List (Entry V)) (lists : List (List V)),
    f.Performs h ⟨.value iterator :: stack, lists⟩
      (Pattern.receiveRest h rest (h.ask (.rest iterator)))
      fun _ y => ∃ made, y = ⟨.value iterator :: stack, lists ++ made⟩

/-- The fragment binds the next values of the iterator on top. -/
def BindsElements (elements : List Element) (f : Parts) : Prop :=
  ∀ ⦃V : Type⦄ (h : Host V) (iterator : V) (stack : List (Entry V)) (lists : List (List V)),
    f.Performs h ⟨.value iterator :: stack, lists⟩ (Element.receiveList h elements iterator)
      fun _ y => ∃ made, y = ⟨.value iterator :: stack, lists ++ made⟩

/-- The fragment binds properties of the object on top. -/
def BindsProperties (properties : List PatternProperty) (f : Parts) : Prop :=
  ∀ ⦃V : Type⦄ (h : Host V) (object : V) (stack : List (Entry V)) (lists : List (List V)),
    f.Performs h ⟨.value object :: stack, lists⟩ (PatternProperty.receiveList h properties object)
      fun _ y => ∃ made, y = ⟨.value object :: stack, lists ++ made⟩

/-- The fragment binds properties of the object below the list on top, and adds their keys to
that list. -/
def ListsProperties (properties : List PatternProperty) (f : Parts) : Prop :=
  ∀ ⦃V : Type⦄ (h : Host V) (object : V) (stack : List (Entry V)) (lists more : List
    (List V)) (known : List V),
    f.Performs h ⟨.keys lists.length :: .value object :: stack, lists ++ known :: more⟩
      (PatternProperty.receiveList h properties object)
      fun keys y => ∃ made, y =
        ⟨.keys lists.length :: .value object :: stack, lists ++ (known ++ keys) :: made⟩

end Parts

/-- The code can be cut into a fragment that has the property. -/
def Code.Cut (s : CodeSite) (P : Parts → Prop) (c : Code) : Prop :=
  ∃ f : Parts, f.code = c ∧ f.Faithful s ∧ P f

section

open Segments Parts

variable {s : CodeSite} {c d k b : Code} {p : Pattern} {left : Option Pattern} {key : Expr}
    {computed : Bool}
  {use : Use} {fallback : Option Expr} {elements : List Element} {properties : List PatternProperty}
  {span : Span}

/-! ## Keys and defaults -/

/-- Code that is not cut further is one part. -/
theorem Code.Cut.ofCode {P : Parts → Prop} (h : P (ofCode c)) : c.Cut s P :=
  ⟨Segments.ofCode c, code_ofCode c, .ofCode c, h⟩

/-- The code of a constant pushes a plain key. -/
theorem Parts.PushesKey.constant {f : Parts} (hf : ∀ ⦃V : Type⦄ (h : Host V) stack lists,
    f.Carries h ⟨stack, lists⟩ ⟨.value (h.constant key.keyConstant) :: stack, lists⟩) :
    f.PushesKey key false := by
  intro V h stack lists
  rw [Expr.askKey, if_neg Bool.false_ne_true]
  exact (hf h stack lists).performs rfl

/-- The key of a property is pushed, whether it is written as a name, a string or a
number, -/
theorem Expr.plainKey_cut (key : Expr) : Makes (Code.Cut s (PushesKey key false)) key.plainKey := by
  unfold plainKey
  split
  · exact .ok (.ofCode (.constant fun _ _ _ _ => .number))
  · exact .ok (.ofCode (.constant fun _ _ _ _ => .string))
  · next hnumber hbigint =>
    split
    · next name hname =>
      have hconstant : key.keyConstant = .text name.encode := by
        rw [keyConstant, hname]
        · rfl
        · exact hnumber
        · exact hbigint
      exact .ok (.ofCode (.constant fun _ _ _ _ => hconstant ▸ .string))
    · exact .error

/-- or computed, where it is evaluated. -/
theorem Expr.asKey_cut (key : Expr) (computed : Bool) :
    Makes (Code.Cut s (PushesKey key computed)) (key.asKey computed (key.lower s .value)) := by
  cases computed with
  | false => exact key.plainKey_cut
  | true =>
    intro c hc
    have present := key.present_lower .value c hc
    exact ⟨[.whole ⟨key, .value⟩ c present], List.append_nil c, Parts.Faithful.whole hc present,
      fun _ _ _ _ => Performs.whole⟩

/-- A default is supplied where the value is undefined. -/
theorem Expr.lowerFallback_cut (use : Use) (fallback : Option Expr) :
    Makes (Code.Cut s (Supplies use fallback)) (Expr.lowerFallback s use fallback) := by
  cases fallback with
  | none => exact .ok ⟨[], rfl, .nil, fun _ _ _ _ _ => .nil rfl⟩
  | some e =>
    cases hc : e.lower s use with
    | error fault =>
      rw [lowerFallback, hc]
      exact .error
    | ok c =>
      rw [lowerFallback, hc]
      have present := e.present_lower use c hc
      let g : Parts := [.whole ⟨e, use⟩ c present]
      have hcode : g.code = c := List.append_nil c
      refine .ok ⟨skipping (Segments.ofCode (Code.op .pop) ++ g) ++
        (Segments.ofCode (Code.op .pop) ++ g), ?_, ?_, ?_⟩
      · simp only [skipping, code_append, code_ofCode, size, hcode, Code.bypassed]
      · exact (Faithful.ofCode _).append
          ((Faithful.ofCode _).append (Parts.Faithful.whole hc present))
      · exact fun _ _ _ _ _ => .supply fun _ => .whole

/-! ## Patterns -/

/-- The code of a pattern is cut into parts that bind it: a name is stored, -/
theorem Code.Cut.identifier (n : Name) :
    (Code.text .store n.text ++ Code.op .pop).Cut s (Binds (.target (.identifier n))) :=
  .ofCode fun _ _ _ _ _ => Performs.store.bind fun _ _ hy =>
    hy ▸ Carries.pop.performs ⟨[], by rw [List.append_nil]⟩

/-- the rest of a list is collected and bound, -/
theorem Code.Cut.rest (hp : c.Cut s (Binds p)) :
    (Code.op .rest ++ c).Cut s (BindsRest (some p)) := by
  obtain ⟨f, rfl, hsites, hf⟩ := hp
  refine ⟨Segments.ofCode (Code.op .rest) ++ f, code_append _ _, (Faithful.ofCode _).append hsites,
    ?_⟩
  intro V h iterator stack lists
  refine Performs.rest.bind fun v _ hy => ?_
  cases hy
  exact hf h v (.value iterator :: stack) lists

/-- and a list of elements is taken from an iterator, which is dropped at the end. -/
theorem Code.Cut.array (helements : c.Cut s (BindsElements elements))
    (hrest : d.Cut s (BindsRest left)) :
    (Code.op .iterator ++ c ++ d ++ Code.op .pop).Cut s (Binds (.array span elements left)) := by
  obtain ⟨f, rfl, hsites, hf⟩ := helements
  obtain ⟨g, rfl, hrestSites, hg⟩ := hrest
  refine ⟨Segments.ofCode (Code.op .iterator) ++ (f ++ (g ++ Segments.ofCode (Code.op .pop))), ?_,
    ?_, ?_⟩
  · simp only [code_append, code_ofCode, List.append_assoc]
  · exact (Faithful.ofCode _).append (hsites.append (hrestSites.append (.ofCode _)))
  intro V h v stack lists
  refine Performs.iterator.bind fun iterator _ hy => ?_
  cases hy
  refine (hf h iterator stack lists).bind fun _ _ hy => ?_
  obtain ⟨made, rfl⟩ := hy
  refine (hg h iterator stack (lists ++ made)).after fun _ _ hy => ?_
  obtain ⟨more, rfl⟩ := hy
  exact ⟨_, ⟨made ++ more, by rw [List.append_assoc]⟩, Carries.pop⟩

/-! ## Elements -/

/-- Elements one by one: none, -/
theorem Code.Cut.noElement : Code.Cut s (BindsElements []) [] :=
  ⟨[], rfl, .nil, fun _ _ _ _ lists => .nil ⟨[], by rw [List.append_nil]⟩⟩

/-- a hole, for which the iterator is moved on, -/
theorem Code.Cut.hole (hrest : d.Cut s (BindsElements elements)) :
    (Code.op .next ++ Code.drop 2 ++ d).Cut s (BindsElements (.hole :: elements)) := by
  obtain ⟨g, rfl, hsites, hg⟩ := hrest
  refine ⟨Segments.ofCode (Code.op .next) ++ (Segments.ofCode (Code.drop 2) ++ g), ?_, ?_, ?_⟩
  · simp only [code_append, code_ofCode, List.append_assoc]
  · exact (Faithful.ofCode _).append ((Faithful.ofCode _).append hsites)
  intro V h iterator stack lists
  refine Performs.next.bind fun v _ hy => ?_
  obtain ⟨done, rfl⟩ := hy
  exact (hg h iterator stack lists).before .drop_two

/-- and an element, which may have a default. -/
theorem Code.Cut.element (hfallback : c.Cut s (Supplies p.use fallback)) (hp : b.Cut s (Binds p))
    (hrest : d.Cut s (BindsElements elements)) :
    (Code.op .next ++ Code.op .pop ++ c ++ b ++ d).Cut s
    (BindsElements (.bound span p fallback :: elements)) := by
  obtain ⟨f, rfl, hfallbackSites, hf⟩ := hfallback
  obtain ⟨bind, rfl, hbindSites, hbind⟩ := hp
  obtain ⟨g, rfl, hrestSites, hg⟩ := hrest
  refine ⟨Segments.ofCode (Code.op .next) ++ (Segments.ofCode (Code.op .pop) ++ (f ++ (bind ++ g))),
    ?_, ?_, ?_⟩
  · simp only [code_append, code_ofCode, List.append_assoc]
  · exact (Faithful.ofCode _).append
      ((Faithful.ofCode _).append (hfallbackSites.append (hbindSites.append hrestSites)))
  intro V h iterator stack lists
  refine Performs.next.bind fun v _ hy => ?_
  obtain ⟨done, rfl⟩ := hy
  refine ((hf h v (.value iterator :: stack) lists).bind fun v _ hy => ?_).before .pop
  cases hy
  refine (hbind h v (.value iterator :: stack) lists).bind fun _ _ hy => ?_
  obtain ⟨made, rfl⟩ := hy
  refine (hg h iterator stack (lists ++ made)).mono fun _ _ hy => ?_
  obtain ⟨more, rfl⟩ := hy
  exact ⟨made ++ more, by rw [List.append_assoc]⟩

/-! ## Properties -/

/-- Properties one by one: none, -/
theorem Code.Cut.noProperty : Code.Cut s (BindsProperties []) [] :=
  ⟨[], rfl, .nil, fun _ _ _ _ lists => .nil ⟨[], by rw [List.append_nil]⟩⟩

/-- and one that is read under its key. -/
theorem Code.Cut.property {shorthand : Bool} (hkey : k.Cut s (PushesKey key computed))
    (hfallback : c.Cut s (Supplies p.use fallback)) (hp : b.Cut s (Binds p))
    (hrest : d.Cut s (BindsProperties properties)) :
    (propertyCode k c b ++
      d).Cut s (BindsProperties (⟨span, key, computed, p, fallback, shorthand⟩ :: properties)) := by
  obtain ⟨push, rfl, hkeySites, hpush⟩ := hkey
  obtain ⟨f, rfl, hfallbackSites, hf⟩ := hfallback
  obtain ⟨bind, rfl, hbindSites, hbind⟩ := hp
  obtain ⟨g, rfl, hrestSites, hg⟩ := hrest
  refine ⟨Segments.ofCode (Code.pick 1) ++
    (push ++ (Segments.ofCode (Code.op .getField) ++ (f ++ (bind ++ g)))), ?_, ?_, ?_⟩
  · simp only [propertyCode, code_append, code_ofCode, List.append_assoc]
  · exact (Faithful.ofCode _).append (hkeySites.append ((Faithful.ofCode _).append
      (hfallbackSites.append (hbindSites.append hrestSites))))
  intro V h object stack lists
  refine ((hpush h (.value object :: .value object :: stack) lists).bind fun k _ hy => ?_).before
    .pick_one
  cases hy
  refine Performs.getField.bind fun v _ hy => ?_
  cases hy
  refine (hf h v (.value object :: stack) lists).bind fun v _ hy => ?_
  cases hy
  refine (hbind h v (.value object :: stack) lists).bind fun _ _ hy => ?_
  obtain ⟨made, rfl⟩ := hy
  refine (hg h object stack (lists ++ made)).map fun _ _ hy => ?_
  obtain ⟨more, rfl⟩ := hy
  exact ⟨made ++ more, by rw [List.append_assoc]⟩

/-- An object without a rest is read in place and dropped at the end. -/
theorem Code.Cut.object (hproperties : c.Cut s (BindsProperties properties)) :
    (c ++ Code.op .pop).Cut s (Binds (.object span properties none)) := by
  obtain ⟨f, rfl, hsites, hf⟩ := hproperties
  refine ⟨f ++ Segments.ofCode (Code.op .pop), ?_, hsites.append (.ofCode _), ?_⟩
  · rw [code_append, code_ofCode]
  intro V h v stack lists
  refine (hf h v stack lists).bind fun keys _ hy => ?_
  obtain ⟨made, rfl⟩ := hy
  exact Carries.pop.performs ⟨made, rfl⟩

/-! ## Properties that are listed -/

/-- With a rest the keys are listed as they are read: none, -/
theorem Code.Cut.noListed : Code.Cut s (ListsProperties []) [] :=
  ⟨[], rfl, .nil, fun _ _ _ _ lists more known => .nil ⟨more, by rw [List.append_nil]⟩⟩

/-- Adding a key to the list of keys. -/
private theorem modify_length_append {V : Type} (lists : List (List V)) (known : List V)
    (more : List (List V)) (key : V) :
    (lists ++ known :: more).modify lists.length (· ++ [key]) =
      lists ++ (known ++ [key]) :: more := by
  induction lists with
  | nil => rfl
  | cons first rest ih => exact congrArg (first :: ·) ih

/-- The key on top is added to the list two below it. -/
theorem Parts.Carries.listKey {V : Type} {h : Host V} {stack : List (Entry V)}
    {lists more : List (List V)} {known : List V} {key object : V} :
    Carries h (ofCode (Code.pick 3 ++ Code.pick 2 ++ Code.op .append ++ Code.op .pop))
      ⟨.value key :: .value object :: .keys lists.length :: stack, lists ++ known :: more⟩
      ⟨.value key :: .value object :: .keys lists.length :: stack, lists ++
        (known ++ [key]) :: more⟩ := by
  rw [← modify_length_append]
  exact ((pick_three.append pick_two).append append_key).append pop

/-- and one more. -/
theorem Code.Cut.listed {shorthand : Bool} (hkey : k.Cut s (PushesKey key computed))
    (hfallback : c.Cut s (Supplies p.use fallback)) (hp : b.Cut s (Binds p))
    (hrest : d.Cut s (ListsProperties properties)) :
    (listedPropertyCode k c b ++
      d).Cut s (ListsProperties (⟨span, key, computed, p, fallback, shorthand⟩ :: properties)) := by
  obtain ⟨push, rfl, hkeySites, hpush⟩ := hkey
  obtain ⟨f, rfl, hfallbackSites, hf⟩ := hfallback
  obtain ⟨bind, rfl, hbindSites, hbind⟩ := hp
  obtain ⟨g, rfl, hrestSites, hg⟩ := hrest
  refine ⟨Segments.ofCode (Code.pick 2) ++ (push ++
    (Segments.ofCode (Code.pick 3 ++ Code.pick 2 ++ Code.op .append ++ Code.op .pop) ++
      (Segments.ofCode (Code.op .getField) ++ (f ++ (bind ++ g))))), ?_, ?_, ?_⟩
  · simp only [listedPropertyCode, code_append, code_ofCode, List.append_assoc]
  · exact (Faithful.ofCode _).append
      (hkeySites.append ((Faithful.ofCode _).append ((Faithful.ofCode _).append
      (hfallbackSites.append (hbindSites.append hrestSites)))))
  intro V h object stack lists more known
  let below : List (Entry V) := .keys lists.length :: .value object :: stack
  refine ((hpush h (.value object :: below) (lists ++ known :: more)).bind fun k _ hy => ?_).before
    .pick_two
  cases hy
  refine Performs.before (Performs.getField.bind fun v _ hy => ?_) .listKey
  cases hy
  refine (hf h v below _).bind fun v _ hy => ?_
  cases hy
  refine (hbind h v below _).bind fun _ _ hy => ?_
  obtain ⟨made, rfl⟩ := hy
  rw [List.append_assoc, List.cons_append]
  refine (hg h object stack lists (more ++ made) (known ++ [k])).map fun keys _ hy => ?_
  obtain ⟨others, rfl⟩ := hy
  exact ⟨others, by rw [List.append_assoc, List.singleton_append]⟩

/-- The rest is what the keys that were listed leave of the object. -/
theorem Code.Cut.objectRest (hproperties : c.Cut s (ListsProperties properties))
    (hp : b.Cut s (Binds p)) :
    (Code.op .pushArray ++ c ++ Code.op .restObject ++ b ++ Code.drop 2).Cut s
    (Binds (.object span properties (some p))) := by
  obtain ⟨f, rfl, hsites, hf⟩ := hproperties
  obtain ⟨bind, rfl, hbindSites, hbind⟩ := hp
  refine ⟨Segments.ofCode (Code.op .pushArray) ++ (f ++ (Segments.ofCode (Code.op .restObject) ++
    (bind ++ Segments.ofCode (Code.drop 2)))), ?_, ?_, ?_⟩
  · simp only [code_append, code_ofCode, List.append_assoc]
  · exact (Faithful.ofCode _).append
      (hsites.append ((Faithful.ofCode _).append (hbindSites.append (.ofCode _))))
  intro V h v stack lists
  refine ((hf h v stack lists [] []).bind fun keys _ hy => ?_).before .pushArray
  obtain ⟨made, rfl⟩ := hy
  have hkeys : (lists ++ ([] ++ keys) :: made)[lists.length]? = some keys := by
    rw [List.nil_append, List.getElem?_append_right (Nat.le_refl _), Nat.sub_self,
      List.getElem?_cons_zero]
  refine (Performs.restObject hkeys).bind fun left _ hy => ?_
  cases hy
  refine (hbind h left _ _).after fun _ _ hy => ?_
  obtain ⟨more, rfl⟩ := hy
  exact ⟨_, ⟨(([] ++ keys) :: made) ++ more, by rw [List.append_assoc]⟩, .drop_two⟩

/-! ## Every pattern -/

-- The induction is on the tree. Properties are lowered in two shapes; what is proved of either
-- is a parameter.

mutual

/-- So the code of every binding pattern is cut, by induction on the pattern: -/
theorem Pattern.lower_cut (p : Pattern) (hp : p.isBinding = true) :
    Makes (Code.Cut s (Binds p)) (p.lower s) := by
  cases p with
  | target e =>
    cases e with
    | identifier n => exact .ok (.identifier n)
    | _ => cases hp
  | array span elements rest =>
    obtain ⟨helements, hrest⟩ := Bool.and_eq_true_iff.mp hp
    exact (Element.lowerList_cut elements helements).bind fun c hc =>
      (Pattern.lowerRest_cut rest hrest).bind fun d hd => .ok (.array hc hd)
  | object span properties rest =>
    obtain ⟨hproperties, hrest⟩ := Bool.and_eq_true_iff.mp hp
    cases rest with
    | none =>
      exact (PatternProperty.lowerList_cut .noProperty .property properties hproperties).bind
        fun c hc => .ok (.object hc)
    | some rest =>
      exact (PatternProperty.lowerList_cut .noListed .listed properties hproperties).bind
        fun c hc =>
        (Pattern.lower_cut rest hrest).bind fun d hd => .ok (.objectRest hc hd)

/-- with its rest, -/
theorem Pattern.lowerRest_cut (rest : Option Pattern) (hrest : Pattern.optionBinding rest = true) :
    Makes (Code.Cut s (BindsRest rest)) (Pattern.lowerRest s rest) := by
  cases rest with
  | none => exact .ok ⟨[], rfl, .nil, fun _ _ _ _ _ => .nil ⟨[], by rw [List.append_nil]⟩⟩
  | some p => exact (Pattern.lower_cut p hrest).bind fun c hc => .ok (.rest hc)

/-- with its elements -/
theorem Element.lowerList_cut (elements : List Element)
    (helements : Element.allBinding elements = true) :
    Makes (Code.Cut s (BindsElements elements)) (Element.lowerList s elements) := by
  cases elements with
  | nil => exact .ok .noElement
  | cons element rest =>
    cases element with
    | hole => exact (Element.lowerList_cut rest helements).bind fun d hd => .ok (.hole hd)
    | bound span target fallback =>
      obtain ⟨htarget, hrest⟩ := Bool.and_eq_true_iff.mp helements
      refine .assoc ((Expr.lowerFallback_cut target.use fallback).bind fun c hc => ?_)
      refine .assoc ((Pattern.lower_cut target htarget).bind fun b hb => ?_)
      exact (Element.lowerList_cut rest hrest).bind fun d hd => .ok (.element hc hb hd)

/-- and with its properties, listed or not. -/
theorem PatternProperty.lowerList_cut {shape : Code → Code → Code → Code}
    {P : List PatternProperty → Parts → Prop} (hnil : Code.Cut s (P []) [])
    (hcons : ∀ {span key computed p fallback shorthand rest k c b d},
      k.Cut s (PushesKey key computed) →
      c.Cut s (Supplies p.use fallback) → b.Cut s (Binds p) → d.Cut s (P rest) →
        (shape k c b ++ d).Cut s (P (⟨span, key, computed, p, fallback, shorthand⟩ :: rest)))
    (properties : List PatternProperty)
    (hproperties : PatternProperty.allBinding properties = true) :
    Makes (Code.Cut s (P properties)) (PatternProperty.lowerList s shape properties) := by
  cases properties with
  | nil => exact .ok hnil
  | cons property rest =>
    obtain ⟨span, key, computed, value, fallback, shorthand⟩ := property
    obtain ⟨hvalue, hrest⟩ := Bool.and_eq_true_iff.mp hproperties
    refine .assoc ((key.asKey_cut computed).bind fun k hk => ?_)
    refine .assoc ((Expr.lowerFallback_cut value.use fallback).bind fun c hc => ?_)
    refine .assoc ((Pattern.lower_cut value hvalue).bind fun b hb => ?_)
    exact (PatternProperty.lowerList_cut hnil hcons rest hrest).bind fun d hd =>
      .ok (hcons hk hc hb hd)

end

/-! ## Patterns with something that takes the rest -/

/-- Whether properties have code does not depend on how they are read off. -/
theorem PatternProperty.lowerList_shape {shape other : Code → Code → Code → Code}
    (h : PatternProperty.lowerList s shape properties = .ok c) :
    ∃ d, PatternProperty.lowerList s other properties = .ok d := by
  induction properties generalizing c with
  | nil => exact ⟨[], rfl⟩
  | cons property rest ih =>
    obtain ⟨span, key, computed, value, fallback, shorthand⟩ := property
    obtain ⟨first, hfirst, h⟩ := except_bind_ok h
    obtain ⟨k, hk, hfirst⟩ := except_bind_ok hfirst
    obtain ⟨f, hf, hfirst⟩ := except_bind_ok hfirst
    obtain ⟨b, hb, -⟩ := except_bind_ok hfirst
    obtain ⟨others, hothers, -⟩ := except_bind_ok h
    obtain ⟨d, hd⟩ := ih hothers
    refine ⟨other k f b ++ d, ?_⟩
    rw [lowerList, lower, hk, hf, hb, hd]
    rfl

/-- What takes the rest of an object is asked for once everything before it is bound as it would
be without. -/
theorem Pattern.receive_object_some {V : Type} (h : Host V) (v : V) (trace : List (Event V)) :
    match (Pattern.object span properties none).receive h v trace with
    | (some _, t) => ∃ keys, (Pattern.object span properties (some p)).receive h v trace =
        (do let left ← h.ask (.restObject v keys); p.receive h left : Attempt V PUnit) t
    | (none, t) => (Pattern.object span properties (some p)).receive h v trace = (none, t) := by
  rw [receive, receive]
  rcases hrun : PatternProperty.receiveList h properties v trace with ⟨_ | keys, t⟩
  · rw [Attempt.bind_none hrun, Attempt.bind_none hrun]
  · rw [Attempt.bind_some hrun, Attempt.bind_some hrun]
    exact ⟨keys, rfl⟩

/-- The code of a pattern that binds names, cut into its instructions and the code of
expressions, binds the value on top of the stack to the pattern and leaves the rest of the stack
alone, or throws where binding throws. The names are stored to in the order in which the pattern
has them. Without what takes its rest an object pattern has code as well, and binds the
properties before that in just the same way. -/
theorem Pattern.lower_binds {code : Code} (hp : p.isBinding = true) (hcode : p.lower s = .ok code) :
    code.Cut s (Binds p) ∧
    (∀ ⦃V : Type⦄ (h : Host V) (v : V), (p.receive h v).Stores (storedNames p.boundNames)) ∧
    ∀ span properties rest, p = .object span properties (some rest) →
      ∃ plain, (Pattern.object span properties none).lower s = .ok plain ∧
      plain.Cut s (Binds (.object span properties none)) ∧
        ∀ ⦃V : Type⦄ (h : Host V) (v : V) (trace : List (Event V)),
          match (Pattern.object span properties none).receive h v trace with
          | (some _, t) => ∃ keys, p.receive h v trace =
              (do let left ← h.ask (.restObject v keys); rest.receive h left : Attempt V PUnit) t
          | (none, t) => p.receive h v trace = (none, t) := by
  refine ⟨Pattern.lower_cut p hp code hcode, fun V h v => p.receive_stores h hp v,
    fun span properties rest heq => ?_⟩
  subst heq
  obtain ⟨listed, hlisted, -⟩ := except_bind_ok hcode
  obtain ⟨c, hc⟩ : ∃ c, PatternProperty.lowerList s propertyCode properties = .ok c :=
    PatternProperty.lowerList_shape hlisted
  have hplain : (Pattern.object span properties none).lower s = .ok (c ++ Code.op .pop) := by
    rw [lower, hc]
    rfl
  have hbinding : (Pattern.object span properties none).isBinding = true :=
    Bool.and_eq_true_iff.mpr ⟨(Bool.and_eq_true_iff.mp hp).1, rfl⟩
  exact ⟨_, hplain, Pattern.lower_cut _ hbinding _ hplain, fun V h v trace => receive_object_some h
    v trace⟩

/-- Properties with a nested pattern, a hole, a computed key and defaults: `a: [x, , y = d,
...more], [k]: z = e`. -/
def nestedProperties : List PatternProperty :=
  let name (text : String) : Expr := .identifier ⟨{}, text⟩
  let elements : List Element :=
    [.bound {} (.target (name "x")) none, .hole, .bound {} (.target (name "y")) (some (name "d"))]
  let inner : Pattern := .array {} elements (some (.target (name "more")))
  [⟨{}, name "a", false, inner, none, false⟩, ⟨{}, name "k", true, .target (name "z"),
    some (name "e"), false⟩]

/-- An object pattern with these properties and something that takes the rest. -/
def nestedPattern : Pattern :=
  .object {} nestedProperties (some (.target (.identifier ⟨{}, "others"⟩)))

theorem Pattern.lower_binds_nestedPattern :
    nestedPattern.isBinding = true ∧
    ∃ code plain, nestedPattern.lower ⟨.ofString "nested.js" "", [], true, false, none⟩ = .ok code ∧
      code.Cut ⟨.ofString "nested.js" "", [], true, false, none⟩ (Binds nestedPattern) ∧
      (∀ ⦃V : Type⦄ (h : Host V) (v : V),
        (nestedPattern.receive h v).Stores (["x", "y", "more", "z", "others"].map utf8Bytes)) ∧
      (Pattern.object {} nestedProperties none).lower ⟨.ofString "nested.js" "", [], true, false,
        none⟩ = .ok plain ∧
      plain.Cut ⟨.ofString "nested.js" "", [], true, false, none⟩
      (Binds (.object {} nestedProperties none)) := by
  have hlowers : (nestedPattern.lower ⟨.ofString "nested.js" "", [], true, false, none⟩).toBool =
      true := rfl
  cases hcode : nestedPattern.lower ⟨.ofString "nested.js" "", [], true, false, none⟩ with
  | error fault =>
    rw [hcode] at hlowers
    cases hlowers
  | ok code =>
    obtain ⟨hcut, hstores, hrest⟩ := Pattern.lower_binds (p := nestedPattern) rfl hcode
    obtain ⟨plain, hplain, hcut', -⟩ := hrest _ _ _ rfl
    exact ⟨rfl, code, plain, rfl, hcut, hstores, hplain, hcut'⟩

end

end EcmaStack

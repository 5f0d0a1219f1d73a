import EcmaStack.Proofs.Bytecode.Chains
import EcmaStack.Proofs.Evaluation.Fragments

/-!
# Code that pushes a value

A piece of code **pushes** an evaluation if the machine that runs through it comes to one more
value, that of the evaluation, and to its trace. Operators and templates push what they mean
when the code of their operands does.
-/

namespace EcmaStack

/-- Pushing the outcome of two evaluations in a row is pushing that of the second where
the first left the trace. -/
theorem Memory.push_bind {V α : Type} (m : Memory V) (x : Evaluation V α) (f : α → Evaluation V V) :
    m.push (x >>= f) = .push ⟨m.stack, (x m.trace).2⟩ (f (x m.trace).1) :=
  rfl

namespace Code

/-- The code leaves one more value, and adds to the trace what an evaluation does. -/
structure Pushes {V : Type} (w : World V) (c : Code) (x : Evaluation V V) : Prop where
  closed : c.Closed
  brings : ∀ m : Memory V, Brings w c m (m.push x)

/-- The code of a number leaves no jump open. -/
theorem closed_numberCode (x : Binary64) : (numberCode x).Closed := by
  rw [numberCode]
  split
  · exact closed_op .pushNan
  · split
    · exact closed_op .pushInfinity
    · rfl

/-! ## Values -/

namespace Pushes

variable {V : Type} {w : World V} {c d : Code} {x y z : Evaluation V V}

/-- The opcodes of constants push the constants. -/
theorem constant {o : Opcode} {k : Constant} (h : o.constant? [] = some k) :
    (op o).Pushes w (return w.constant k) :=
  ⟨closed_op o, fun _ => .constant h⟩

theorem number (n : Binary64) : (numberCode n).Pushes w (return w.constant (.ofNumber n)) :=
  ⟨closed_numberCode n, fun _ => .number⟩

/-- Constants are pushed as the world makes them, -/
theorem string (s : Text) : (Code.string s).Pushes w (return w.text s) :=
  ⟨closed_string s, fun _ => .string⟩

/-- and what is loaded is what the world answers. -/
theorem load (name : String) : (text .load name).Pushes w (w.ask (.load (utf8Bytes name))) :=
  ⟨closed_text .load name, fun _ => .load⟩

theorem this : (op .pushThis).Pushes w (w.ask .this) :=
  ⟨closed_op .pushThis, fun _ => .asks rfl⟩

/-- A link of a chain that nothing leaves, as much as a complete chain. -/
theorem finish (h : c.Pushes w x) (use : Use) : (use.finish c).Pushes w x := by
  cases use with
  | link => exact h
  | value | named => exact (congrArg (Pushes w · x) h.closed.sealed).mpr h

/-- An operation on one value. -/
theorem ask {o : Opcode} {action : V → Action V} (h : c.Pushes w x)
    (ho : ∀ v below, o.answer? [] (v :: below) = some (action v, below)) :
    (c ++ op o).Pushes w (do let v ← x; w.ask (action v)) where
  closed := closed_append.mpr ⟨h.closed, closed_op o⟩
  brings m := (h.brings m).append (.asks (ho _ m.stack))

/-- An operation on two values. -/
theorem ask_two {o : Opcode} {action : V → V → Action V} (hc : c.Pushes w x) (hd : d.Pushes w y)
    (ho : ∀ a b below, o.answer? [] (b :: a :: below) = some (action a b, below)) :
    (c ++ d ++ op o).Pushes w (do let a ← x; let b ← y; w.ask (action a b)) where
  closed := by simp [hc.closed, hd.closed]
  brings m := ((hc.brings m).append (hd.brings _)).append (.asks (ho _ _ m.stack))

/-- A value that is dropped, and another. -/
theorem comma (hc : c.Pushes w x) (hd : d.Pushes w y) :
    (c ++ op .pop ++ d).Pushes w (do let _ ← x; y) where
  closed := by simp [hc.closed, hd.closed]
  brings m := ((hc.brings m).append .pop).append (hd.brings ⟨m.stack, _⟩)

/-- A value that may decide, or else another. -/
theorem logical {o : Opcode} {decided : V → Bool} (ho : o.jumps? w = some decided)
    (hc : c.Pushes w x) (hd : d.Pushes w y) :
    (c ++ bypassed o (op .pop ++ d)).Pushes w
    (do let v ← x; if decided v then return v else y) where
  closed := by simp [hc.closed, hd.closed]
  brings m := by
    refine (hc.brings m).append ?_
    rw [Memory.push_bind]
    cases htest : decided (x m.trace).1 with
    | true => exact .passed ho htest
    | false => exact .entered ho htest (Brings.pop.append (hd.brings ⟨m.stack, _⟩))

/-- A choice pushes what the way it goes pushes. -/
theorem choice (hc : c.Pushes w x) {yes no : Code} (hyes : yes.Pushes w y) (hno : no.Pushes w z) :
    (Code.choice c yes no).Pushes w (do let v ← x; if w.truthy v then y else z) where
  closed := by simp [Code.choice, hc.closed, hyes.closed, hno.closed]
  brings m := by
    rw [Code.choice, List.append_assoc]
    refine (hc.brings m).append ?_
    rw [Memory.push_bind]
    have htest : Opcode.jumpFalse.jumps? w = some fun v => !w.truthy v := rfl
    cases htruthy : w.truthy (x m.trace).1 with
    | true =>
      exact .fork htest (fun _ => Brings.pop.append (hyes.brings ⟨m.stack, _⟩)) (by simp [htruthy])
    | false =>
      exact .fork htest (by simp [htruthy]) (fun _ => Brings.pop.append (hno.brings ⟨m.stack, _⟩))

end Pushes

end Code

end EcmaStack

/-!
## Locations on the stack

A target keeps the values of its location on the stack, the key above the object, until
something is stored there. Reading leaves them, and storing drops them from under the value that
is stored. Each way to assign to a target is put together from these.
-/

namespace EcmaStack

open Code

variable {V : Type} {w : World V}

/-- The values that a location has on the stack, the top first. -/
def Location.slots : Location V → List V
  | binding _ => []
  | superField key => [key]
  | field object key | privateField object key => [key, object]

/-- A target and a location of its kind. -/
inductive Target.Fits : Target → Location V → Prop where
  | binding (name : String) : Fits (.binding name) (.binding (utf8Bytes name))
  | superField (key : V) : Fits .superField (.superField key)
  | field (object key : V) : Fits .field (.field object key)
  | privateField (object key : V) : Fits .privateField (.privateField object key)

/-- The code of a reference puts the values of a location on the stack, and the location fits
the target. -/
structure Reference.Locates (w : World V) (r : Reference) (x : Evaluation V (Location V)) :
    Prop where
  closed : r.code.Closed
  fits : ∀ trace, r.target.Fits (x trace).1
  brings : ∀ m : Memory V, Brings w r.code m ⟨(x m.trace).1.slots ++ m.stack, (x m.trace).2⟩

/-! ### Targets -/

namespace Target

@[simp] theorem closed_get (t : Target) : t.get.Closed := by
  cases t <;> simp [get]

@[simp] theorem closed_set (t : Target) : t.set.Closed := by
  cases t <;> simp [set]

namespace Fits

variable {t : Target} {l : Location V} {u v : V} {stack : List V} {trace : List (Action V)}

/-- A target is read through the slots that locate it, -/
theorem get (h : t.Fits l) :
    Brings w t.get ⟨l.slots ++ stack, trace⟩ (.push ⟨l.slots ++ stack, trace⟩ (l.read w)) := by
  cases h with
  | binding => exact .load
  | superField => exact .append .pick_one (.asks rfl)
  | field | privateField => exact (Brings.pick_two.append .pick_two).append (.asks rfl)

/-- and written through them, which leaves the value. -/
theorem set (h : t.Fits l) :
    Brings w t.set ⟨v :: (l.slots ++ stack), trace⟩ ⟨v :: stack, (l.write v trace).2⟩ := by
  cases h with
  | binding => exact .instr fun _ => rfl
  | superField | field | privateField => exact .stores rfl

/-- Move a value below another and the location. -/
theorem sink (h : t.Fits l) :
    Brings w (Code.sink (t.depth + 1)) ⟨v :: u :: (l.slots ++ stack), trace⟩
    ⟨u :: (l.slots ++ v :: stack), trace⟩ := by
  cases h with
  | _ => exact .instr fun _ => rfl

/-- Drop the location from under a value. -/
theorem keep (h : t.Fits l) :
    Brings w (if t.depth == 0 then [] else Code.sink t.depth ++ drop t.depth) ⟨v ::
      (l.slots ++ stack), trace⟩
      ⟨v :: stack, trace⟩ := by
  cases h with
  | binding => exact .nil
  | superField key =>
    have hsink : Brings w (Code.sink 1) ⟨v :: key :: stack, trace⟩ ⟨key :: v :: stack, trace⟩ :=
      .instr fun _ => rfl
    exact hsink.append .pop
  | field object key | privateField object key =>
    have hsink : Brings w (Code.sink 2) ⟨v :: key :: object :: stack, trace⟩
        ⟨key :: object :: v :: stack, trace⟩ :=
      .instr fun _ => rfl
    exact hsink.append (Brings.pop.append .pop)

end Fits

end Target

/-! ### Assignments -/

namespace Reference.Locates

variable {r : Reference} {value : Code} {x : Evaluation V (Location V)} {y : Evaluation V V}

/-- An assignment locates, evaluates and writes, in this order. -/
theorem assign (h : r.Locates w x) (hvalue : value.Pushes w y) :
    (r.code ++ value ++ r.target.set).Pushes w (do
      let l ← x
      let v ← y
      l.write v
      return v) where
  closed := by simp [h.closed, hvalue.closed]
  brings m := ((h.brings m).append (hvalue.brings _)).append (h.fits m.trace).set

/-- A compound one reads the old value before the new one is evaluated, -/
theorem compound (h : r.Locates w x) (hvalue : value.Pushes w y) {o : Opcode}
    {action : V → V → Action V} (ho : ∀ a b below, o.answer? [] (b :: a :: below) =
      some (action a b, below)) :
    (r.code ++ r.target.get ++ value ++ op o ++ r.target.set).Pushes w (do
      let l ← x
      let old ← l.read w
      let v ← y
      let result ← w.ask (action old v)
      l.write result
      return result) where
  closed := by simp [h.closed, hvalue.closed]
  brings m :=
    have hold := (h.brings m).append (h.fits m.trace).get
    have hresult := (hold.append (hvalue.brings _)).append (.asks (ho _ _ _))
    hresult.append (h.fits m.trace).set

/-- and a logical one writes only where the old value does not decide. -/
theorem assignUnless (h : r.Locates w x) (hvalue : value.Pushes w y) {o : Opcode}
    {decided : V → Bool} (ho : o.jumps? w = some decided) :
    (r.assignUnless o value).Pushes w (do
      let l ← x
      let old ← l.read w
      if decided old then return old
      let v ← y
      l.write v
      return v) where
  closed := by
    rw [Reference.assignUnless]
    split <;> simp [h.closed, hvalue.closed]
  brings m := by
    rw [Reference.assignUnless, List.append_assoc]
    refine ((h.brings m).append (h.fits m.trace).get).append ?_
    rw [Memory.push_bind, Memory.push_bind]
    refine .fork ho (fun hundecided => ?_) (fun hdecided => ?_)
    · rw [if_neg (Bool.not_eq_true _ ▸ hundecided)]
      exact (Brings.pop.append (hvalue.brings _)).append (h.fits m.trace).set
    · rw [if_pos hdecided]
      exact (h.fits m.trace).keep

/-- An update gives the old value or the new one, as its operator stands. -/
theorem update (h : r.Locates w x) (up before : Bool) :
    (r.update up before).Pushes w (do
      let l ← x
      let old ← l.read w
      if before then
        let changed ← w.ask (.step up old)
        l.write changed
        return changed
      else
        let old ← w.ask (.numeric old)
        let changed ← w.ask (.step up old)
        l.write changed
        return old) where
  closed := by
    rw [Reference.update]
    split <;> simp [h.closed]
  brings m := by
    have hold := (h.brings m).append (h.fits m.trace).get
    rw [Reference.update]
    cases before with
    | true =>
      have hstep (v : V) (below : List V) :
          Opcode.answer? (if up then .inc else .dec) [] (v :: below) = some (.step up v,
            below) := by
        cases up <;> rfl
      exact (hold.append (.asks (hstep _ _))).append (h.fits m.trace).set
    | false =>
      have hdefer :
          Opcode.defer? (if up then .deferInc else .deferDec) [] = some up := by cases up <;> rfl
      have hmoved := (hold.append (.defers hdefer)).append (h.fits m.trace).sink
      exact (hmoved.append (h.fits m.trace).set).append .pop

end Reference.Locates

end EcmaStack

import EcmaStack.Bytecode.Assembly

/-!
# Fragments without exits

A jump with the reach `exit` waits for the end of the chain that it stands in. A
fragment is closed if it has no such jump. Closed fragments are closed under
`++`, sealing changes nothing in them, and what is sealed is closed: so each of
the layers above asks of a fragment only that its parts are closed.
-/

namespace EcmaStack

/-- Whether an operand is an address that waits for the end of a chain. -/
def Operand.isOpen : Operand Reach → Bool
  | .address .exit => true
  | _ => false

namespace Code

variable {c d : Code}

/-- No jump of the fragment waits for the end of a chain. It is stated as a check,
so that fragments with known operands pass it by evaluation. -/
def Closed (c : Code) : Prop :=
  (c.all fun i => i.operands.all fun o => !o.isOpen) = true

@[simp] theorem closed_nil : Closed [] :=
  rfl

@[simp] theorem closed_cons {i : Instr Reach} :
    Closed (i :: c) ↔ (i.operands.all fun o => !o.isOpen) = true ∧ c.Closed := by
  rw [Closed, List.all_cons, Bool.and_eq_true, Closed]

@[simp] theorem closed_append : Closed (c ++ d) ↔ c.Closed ∧ d.Closed := by
  rw [Closed, List.all_append, Bool.and_eq_true, Closed, Closed]

/-- Closed code followed by closed code is closed. -/
theorem Closed.append (hc : c.Closed) (hd : d.Closed) : (c ++ d).Closed :=
  closed_append.mpr ⟨hc, hd⟩

/-! ## The fragments that are put together -/

@[simp] theorem closed_op (o : Opcode) : (op o).Closed :=
  rfl

@[simp] theorem closed_text (o : Opcode) (s : Text) : (text o s).Closed :=
  rfl

@[simp] theorem closed_count (o : Opcode) (n : Nat) : (count o n).Closed :=
  rfl

/-- A jump is open only where it waits for the end of the chain. -/
theorem closed_branch (o : Opcode) {r : Reach} (h : r ≠ .exit) : (branch o r).Closed := by
  cases r with
  | exit => exact absurd rfl h
  | absent | ahead | back => rfl

@[simp] theorem closed_branch_ahead (o : Opcode) (n : Nat) : (branch o (.ahead n)).Closed :=
  rfl

@[simp] theorem closed_string (s : Text) : (string s).Closed :=
  rfl

@[simp] theorem closed_pick (n : Nat) : (pick n).Closed :=
  rfl

@[simp] theorem closed_sink (n : Nat) : (sink n).Closed :=
  rfl

@[simp] theorem closed_drop (n : Nat) : (drop n).Closed := by
  induction n with
  | zero => exact closed_nil
  | succ n ih => exact (closed_op .pop).append ih

@[simp] theorem closed_bypassed {o : Opcode} : (bypassed o c).Closed ↔ c.Closed :=
  closed_append.trans (and_iff_right rfl)

theorem Closed.bypassed (o : Opcode) (h : c.Closed) : (bypassed o c).Closed :=
  closed_bypassed.mpr h

/-! ## Sealing -/

/-- Closing changes no operand that is not open. -/
private theorem close_of_not_isOpen {o : Operand Reach} (h : (!o.isOpen) = true)
    (following : Unit → Nat) :
    o.map (Reach.close following) = o := by
  cases o with
  | address r =>
    cases r with
    | exit => cases h
    | absent | ahead | back => rfl
  | integer | number | text => rfl

/-- Where nothing waits, there is nothing to seal. -/
theorem Closed.sealed (h : c.Closed) : c.sealed = c := by
  induction c with
  | nil => rfl
  | cons i rest ih =>
    obtain ⟨hfirst, hrest⟩ := closed_cons.mp h
    have hoperands : i.operands.map (Operand.map (Reach.close fun _ => size rest)) = i.operands :=
      (List.map_congr_left fun o ho => close_of_not_isOpen (List.all_eq_true.mp hfirst o ho)
        _).trans
        i.operands.map_id
    rw [Code.sealed, ih hrest, Instr.map, hoperands]

/-- A chain that is complete waits for nothing. -/
theorem closed_sealed (c : Code) : c.sealed.Closed := by
  induction c with
  | nil => rfl
  | cons i rest ih =>
    refine closed_cons.mpr ⟨?_, ih⟩
    rw [Instr.map, List.all_map]
    refine List.all_eq_true.mpr fun o _ => ?_
    cases o with
    | address r => cases r <;> rfl
    | integer | number | text => rfl

end Code

end EcmaStack

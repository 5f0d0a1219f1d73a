import EcmaStack.Proofs.Machine.Fragment

/-!
# Fragments that can stand anywhere

Most fragments do the same to the machine wherever they stand. `Leads W c σ τ` says so of one
pair of shapes: the fragment carries the machine from `σ` to `τ` at every offset, as long as its
surroundings meet the wants `W`. A fragment `Moves m n` when it takes `m` operands and leaves
`n`, whatever lies below them and whatever is open around it.

Code without jumps is settled by counting operands (`moves_of_height?`).
-/

namespace EcmaStack

namespace Code

/-- The fragment carries the machine from one shape to another wherever it stands among what it
wants. -/
def Leads (W : Landings) (c : Code) (σ τ : StackShape) : Prop :=
  ∀ leave wants start, W ⊆ wants → Carries leave wants ∅ start c σ τ

/-- The fragment takes so many operands and leaves so many. -/
def Moves (c : Code) (m n : Nat) : Prop :=
  ∀ σ : StackShape, Leads ∅ c (σ.push m) (σ.push n)

variable {W W' : Landings} {c d : Code} {σ ρ τ : StackShape} {l m n : Nat}

namespace Leads

/-- What leads on with fewer landings leads on with more. -/
theorem mono (h : Leads W c σ τ) (hW : W ⊆ W') : Leads W' c σ τ :=
  fun leave wants start hwants => h leave wants start (hW.trans hwants)

theorem nil : Leads W [] σ σ :=
  fun _ _ _ _ => .nil

theorem append (hc : Leads W c σ ρ) (hd : Leads W d ρ τ) : Leads W (c ++ d) σ τ := by
  intro leave wants start hwants
  have h := (hc leave wants start hwants).append (hd leave wants (start + size c) hwants)
  rwa [Set.union_empty] at h

/-- The fragment at an offset, with its two ends on offer. -/
theorem piece (h : Leads W c σ τ) (leave : Nat → Nat) (start : Nat) {wants : Landings}
    (hwants : W ⊆ wants) :
    Carries leave wants {(start, σ), (start + size c, τ)} start c σ τ := by
  have h' := (h leave wants start hwants).ends
  rwa [Set.empty_union] at h'

end Leads

namespace Moves

/-- A code that moves the stack by a height leads from any shape that is high enough. -/
theorem leads (h : Moves c m n) (W : Landings) (σ : StackShape) : Leads W c (σ.push m) (σ.push n) :=
  (h σ).mono (Set.empty_subset W)

theorem nil : Moves [] n n :=
  fun _ => .nil

theorem append (hc : Moves c l m) (hd : Moves d m n) : Moves (c ++ d) l n :=
  fun σ => (hc σ).append (hd σ)

/-- Operands below stay as they are. -/
theorem lift (h : Moves c m n) (k : Nat) : Moves c (k + m) (k + n) := by
  intro σ
  have h' := h (σ.push k)
  rwa [StackShape.push_push, StackShape.push_push] at h'

/-- A list of fragments that each leave the operands as they found them. -/
theorem flatMap {α : Type} {f : α → Code} {items : List α} (h : ∀ a ∈ items, Moves (f a) n n) :
    Moves (items.flatMap f) n n := by
  induction items with
  | nil => exact nil
  | cons a rest ih =>
    rw [List.flatMap_cons]
    exact (h a (List.mem_cons_self)).append (ih fun b hb => h b (List.mem_cons_of_mem a hb))

end Moves

end Code

/-! ## Straight code -/

/-- Settling its address leaves an operand its kind, -/
theorem Operand.kind_map {α β : Type} (f : α → β) (o : Operand α) : (o.map f).kind = o.kind := by
  cases o <;> rfl

/-- and an instruction the kinds of its operands. -/
theorem Instr.settle_operands (leave : Nat → Nat) (start : Nat) (i : Instr Reach) :
    (i.settle leave start).operands.map Operand.kind = i.operands.map Operand.kind := by
  simp only [settle, map, List.map_map]
  exact List.map_congr_left fun o _ => Operand.kind_map _ o

/-- An operation with an effect on the operands has no other. -/
theorem Opcode.flow_of_effect {op : Opcode} {takes leaves : Nat}
    (h : op.effect = some (takes, leaves)) (operands : List (Operand Nat)) (σ : StackShape) :
    op.flow operands σ =
      if takes ≤ σ.depth then some (.on { σ with depth := σ.depth - takes + leaves })
      else none := by
  cases op <;> first | (cases h; done) | (cases h; rfl)

/-- How many operands there are after an instruction that only touches operands, if there were
enough before it. -/
def Instr.height? (i : Instr Reach) (n : Nat) : Option Nat :=
  if i.operands.map Operand.kind = i.op.operands then
    match i.op, i.operands with
    | .pushValue, [.integer k] => if 1 ≤ k.toInt ∧ k.toInt ≤ n then some (n + 1) else none
    | .insert, [.integer k] => if 0 ≤ k.toInt ∧ k.toInt < n then some n else none
    | op, _ =>
      op.effect.bind fun (takes, leaves) => if takes ≤ n then some (n - takes + leaves) else none
  else none

/-- How many operands there are after code that only touches operands. -/
def Code.height? (c : Code) (n : Nat) : Option Nat :=
  c.foldlM (fun n i => i.height? n) n

/-- An instruction with a height flows on and changes nothing but the height. -/
theorem Instr.flow_of_height? {i : Instr Reach} {m n : Nat} (h : i.height? m = some n)
    (leave : Nat → Nat) (start : Nat) (σ : StackShape) :
    (i.settle leave start).flow (σ.push m) = some (.on (σ.push n)) := by
  rw [height?] at h
  split at h
  · next hkinds =>
    rw [flow, settle_operands]
    change (if i.operands.map Operand.kind = i.op.operands then _ else _) = _
    rw [if_pos hkinds]
    split at h
    · next k hop hoperands =>
      split at h
      · next hk =>
        cases h
        have hk' : 1 ≤ k.toInt ∧ k.toInt ≤ (σ.push m).depth := by rw [StackShape.depth_push]; omega
        simp only [settle, map, hop, hoperands, List.map_cons, List.map_nil, Operand.map,
          Opcode.flow]
        rw [if_pos hk', StackShape.push_push]
      · cases h
    · next k hop hoperands =>
      split at h
      · next hk =>
        cases h
        have hk' : 0 ≤ k.toInt ∧ k.toInt < (σ.push m).depth := by rw [StackShape.depth_push]; omega
        simp only [settle, map, hop, hoperands, List.map_cons, List.map_nil, Operand.map,
          Opcode.flow]
        rw [if_pos hk']
      · cases h
    · obtain ⟨⟨takes, leaves⟩, heffect, hn⟩ := Option.bind_eq_some_iff.mp h
      by_cases hle : takes ≤ m
      · have hn' : m - takes + leaves = n := by simpa only [if_pos hle, Option.some.injEq] using hn
        have hop : (i.settle leave start).op = i.op := rfl
        rw [hop, Opcode.flow_of_effect heffect,
          if_pos (by rw [StackShape.depth_push]; omega), ← hn']
        simp only [StackShape.push]
        congr 3
        omega
      · simp only [if_neg hle, reduceCtorEq] at hn
  · cases h

/-- Code that only touches operands moves them as counting says. -/
theorem Code.moves_of_height? {c : Code} {m n : Nat} (h : c.height? m = some n) : c.Moves m n := by
  induction c generalizing m with
  | nil =>
    cases h
    exact .nil
  | cons i rest ih =>
    rw [height?, List.foldlM_cons] at h
    obtain ⟨k, hk, hrest⟩ := Option.bind_eq_some_iff.mp h
    have hi : Moves [i] m k := by
      intro σ leave wants start _
      refine .instr (Instr.flow_of_height? hk leave start σ) ?_ ?_
      · intro ρ hρ
        cases hρ
        rfl
      · intro a ρ hmem
        cases hmem
    exact hi.append (ih hrest)

/-- Dropping takes off as many values as it says. -/
theorem Code.Moves.drop (n : Nat) : (Code.drop n).Moves n 0 := by
  induction n with
  | zero => exact .nil
  | succ n ih => exact (moves_of_height? (c := op .pop) (m := n + 1) (n := n) rfl).append ih

end EcmaStack

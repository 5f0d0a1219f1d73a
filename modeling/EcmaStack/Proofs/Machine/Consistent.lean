import EcmaStack.Proofs.Bytecode.Faithful
import EcmaStack.Proofs.Machine.Moves

/-!
# Consistent programs

A program is **consistent** with an assignment of shapes to offsets when its start has the empty
shape, every instruction can run in the shape of its place, and control only ever goes on to
instructions, each in the shape of its place. The machine then never goes wrong: whatever it
reaches, it reaches in the assigned shape and at an instruction that can run
(`Consistent.reached`).

Code that carries the machine from the empty shape back to it is consistent once it ends with `halt`
(`consistent_of_carries`).
-/

namespace EcmaStack

/-- An instruction at its offset, with offsets for its addresses. -/
structure Settled where
  offset : Nat
  instr : Instr Nat

/-- The instruction as it stands in a stream, each offset in a word of its own. -/
def Settled.located (l : Settled) : Located :=
  ⟨l.offset, l.instr.map UInt64.ofNat⟩

/-- The bytes of an instruction. -/
def Settled.encode (l : Settled) : List UInt8 :=
  l.located.instr.encode

/-- The instructions of a fragment that starts at an offset, each at its place. -/
def Code.settled : Nat → Code → List Settled
  | _, [] => []
  | start, i :: rest => ⟨start, i.settle id start⟩ :: settled (start + i.size) rest

/-- Every instruction runs in the shape of its place, and control arrives everywhere in the
shape of the place. -/
structure Consistent (program : List Settled) (shape : Nat → StackShape) : Prop where
  entry : shape 0 = {}
  start : ∃ l ∈ program, l.offset = 0
  runs : ∀ l ∈ program, ∃ flow, l.instr.flow (shape l.offset) = some flow ∧
    (∀ τ, flow.fall = some τ → ∃ next ∈ program, next.offset = l.offset + l.instr.size ∧
      shape next.offset = τ) ∧
    ∀ a τ, (a, τ) ∈ flow.jumps → ∃ next ∈ program, next.offset = a ∧ shape next.offset = τ

/-- The offsets that control can reach, with the shape the machine then has. A function may be
entered as soon as its address is set. -/
inductive Reached (program : List Settled) : Nat → StackShape → Prop where
  | start : Reached program 0 {}
  | fall {l : Settled} {σ τ : StackShape} {flow : Flow} : l ∈ program → Reached program l.offset σ →
      l.instr.flow σ = some flow → flow.fall = some τ → Reached program (l.offset + l.instr.size) τ
  | jump {l : Settled} {σ τ : StackShape} {flow : Flow} {a : Nat} : l ∈ program →
    Reached program l.offset σ →
      l.instr.flow σ = some flow → (a, τ) ∈ flow.jumps → Reached program a τ

/-- A consistent program never goes wrong: what is reached is an instruction, in the shape of
its place, and it can run there. -/
theorem Consistent.reached {program : List Settled} {shape : Nat → StackShape}
    (h : Consistent program shape) {n : Nat} {σ : StackShape} (hreached : Reached program n σ) :
    shape n = σ ∧ ∃ l ∈ program, l.offset = n ∧ (l.instr.flow σ).isSome := by
  -- Each way to arrive leads to an instruction whose place has the shape of the arrival.
  suffices harrive : shape n = σ ∧ ∃ l ∈ program, l.offset = n by
    obtain ⟨rfl, l, hl, rfl⟩ := harrive
    obtain ⟨flow, hflow, -⟩ := h.runs l hl
    exact ⟨rfl, l, hl, rfl, Option.isSome_iff_exists.mpr ⟨flow, hflow⟩⟩
  induction hreached with
  | start => exact ⟨h.entry, h.start⟩
  | fall hl _ hflow hfall ih =>
    obtain ⟨flow, hflow', hfalls, -⟩ := h.runs _ hl
    rw [ih.1, hflow] at hflow'
    cases hflow'
    obtain ⟨next, hnext, hoffset, hshape⟩ := hfalls _ hfall
    rw [← hoffset]
    exact ⟨hshape, next, hnext, rfl⟩
  | jump hl _ hflow hjump ih =>
    obtain ⟨flow, hflow', -, hjumps⟩ := h.runs _ hl
    rw [ih.1, hflow] at hflow'
    cases hflow'
    obtain ⟨next, hnext, rfl, hshape⟩ := hjumps _ _ hjump
    exact ⟨hshape, next, hnext, rfl⟩

/-! ## Addresses -/

/-- The operands of an instruction, told by their kinds: one address, -/
private theorem operand_address {os : List (Operand Nat)} (h : os.map Operand.kind = [.address]) :
    ∃ a, os = [.address a] := by
  match os, h with
  | [.address a], _ => exact ⟨a, rfl⟩

/-- a text and an address, -/
private theorem operand_text_address {os : List (Operand Nat)}
    (h : os.map Operand.kind = [.text, .address]) :
    ∃ t a, os = [.text t, .address a] := by
  match os, h with
  | [.text t, .address a], _ => exact ⟨t, a, rfl⟩

/-- or two addresses. -/
private theorem operand_addresses {os : List (Operand Nat)}
    (h : os.map Operand.kind = [.address, .address]) :
    ∃ a b, os = [.address a, .address b] := by
  match os, h with
  | [.address a, .address b], _ => exact ⟨a, b, rfl⟩

/-- Control may go to every address of an instruction that runs, except for the zero that stands
for a handler or a finalizer that is not there. -/
theorem Instr.addresses_of_flow {i : Instr Nat} {σ : StackShape} {flow : Flow}
    (h : i.flow σ = some flow) {a : Nat} (ha : .address a ∈ i.operands) :
    (∃ τ, (a, τ) ∈ flow.jumps) ∨ (i.op = .tryBegin ∧ a = 0) := by
  obtain ⟨op, operands⟩ := i
  rw [Instr.flow] at h
  split at h
  · next hkinds =>
    have hkind : OperandKind.address ∈ op.operands := by
      rw [← hkinds]
      exact List.mem_map_of_mem ha
    -- Few opcodes have addresses among their operands, and each of them jumps there.
    cases op
    case pushBreakLabel | pushContinueLabel =>
      obtain ⟨label, b, rfl⟩ := operand_text_address hkinds
      cases h
      obtain rfl : a = b := by simpa using ha
      exact Or.inl ⟨_, List.mem_singleton_self _⟩
    case jump =>
      obtain ⟨b, rfl⟩ := operand_address hkinds
      cases h
      obtain rfl : a = b := by simpa using ha
      exact Or.inl ⟨_, List.mem_singleton_self _⟩
    case setAddress | jumpNull | jumpNotNull | jumpFalse | jumpTrue | jumpNotUndefined =>
      obtain ⟨b, rfl⟩ := operand_address hkinds
      obtain rfl : a = b := by simpa using ha
      rw [Opcode.flow] at h
      split at h
      · cases h
        exact Or.inl ⟨_, List.mem_singleton_self _⟩
      · cases h
    case tryBegin =>
      obtain ⟨handler, finalizer, rfl⟩ := operand_addresses hkinds
      cases h
      -- An absent handler or finalizer is written as zero, which is no place to jump to.
      by_cases hzero : a = 0
      · exact Or.inr ⟨rfl, hzero⟩
      · rcases (by simpa using ha : a = handler ∨ a = finalizer) with rfl | rfl
        · exact Or.inl ⟨σ.push 1, List.mem_filter.mpr ⟨List.mem_cons_self, bne_iff_ne.mpr hzero⟩⟩
        · exact Or.inl ⟨σ, List.mem_filter.mpr ⟨List.mem_cons_of_mem _ (List.mem_singleton_self _),
            bne_iff_ne.mpr hzero⟩⟩
    all_goals exact absurd hkind (by decide)
  · cases h

/-- The instructions of a consistent program have the operands that their opcodes ask for. -/
theorem Consistent.wellFormed {program : List Settled} {shape : Nat → StackShape}
    (h : Consistent program shape) {l : Settled} (hl : l ∈ program) : l.instr.WellFormed := by
  obtain ⟨flow, hflow, -⟩ := h.runs l hl
  rw [Instr.flow] at hflow
  split at hflow
  · next hkinds => exact hkinds
  · cases hflow

/-- Every address of a consistent program is the offset of an instruction, except for the zero
of a handler or a finalizer that is not there. -/
theorem Consistent.address {program : List Settled} {shape : Nat → StackShape}
    (h : Consistent program shape) {l : Settled} (hl : l ∈ program) {a : Nat}
    (ha : .address a ∈ l.instr.operands) :
    (∃ next ∈ program, next.offset = a) ∨ (l.instr.op = .tryBegin ∧ a = 0) := by
  obtain ⟨flow, hflow, -, hjumps⟩ := h.runs l hl
  rcases Instr.addresses_of_flow hflow ha with ⟨τ, hτ⟩ | hzero
  · obtain ⟨next, hnext, hoffset, -⟩ := hjumps a τ hτ
    exact Or.inl ⟨next, hnext, hoffset⟩
  · exact Or.inr hzero

/-! ## Settled code -/

namespace Code

/-- Resolved code is settled code with its offsets in words. -/
theorem resolve_eq_settled (c : Code) (start : Nat) :
    c.resolve start = (c.settled start).map fun l => l.located.instr := by
  induction c generalizing start with
  | nil => rfl
  | cons i rest ih =>
    have htarget (r : Reach) : r.target (start + i.size) start (start + i.size) =
        r.offset start (start + i.size) := by
      cases r <;> rfl
    have hoperand (o : Operand Reach) :
        o.map (fun r => UInt64.ofNat (r.offset start (start + i.size))) =
        (o.map fun r => r.target (start + i.size) start (start + i.size)).map UInt64.ofNat := by
      cases o with
      | address r => exact congrArg (fun n => Operand.address (UInt64.ofNat n)) (htarget r).symm
      | _ => rfl
    rw [resolve, settled, List.map_cons, ih]
    congr 1
    simp only [Settled.located, Instr.settle, Instr.map, List.map_map, id]
    exact congrArg (Instr.mk i.op) (List.map_congr_left fun o _ => hoperand o)

/-- Where the instructions of resolved code stand. -/
theorem locate_resolve (c : Code) (start : Nat) :
    locate start (c.resolve start) = (c.settled start).map Settled.located := by
  induction c generalizing start with
  | nil => rfl
  | cons i rest ih =>
    have hhead := resolve_eq_settled [i] start
    rw [resolve, settled, List.map_cons] at hhead
    rw [resolve, settled, List.map_cons, locate, Instr.size_map, ih, (List.cons.inj hhead).1]
    rfl

/-- The bytes of resolved code are those of settled code. -/
theorem encode_resolve (c : Code) (start : Nat) :
    (c.resolve start).flatMap Instr.encode = (c.settled start).flatMap Settled.encode := by
  rw [resolve_eq_settled, List.flatMap_map]
  rfl

/-- The instructions of settled code are those of the code, each at the offset after what stands
before it. -/
theorem mem_settled {c : Code} {start : Nat} {l : Settled} :
    l ∈ c.settled start ↔ ∃ before i after, c = before ++ i :: after ∧
      l = ⟨start + size before, i.settle id (start + size before)⟩ := by
  induction c generalizing start with
  | nil =>
    refine ⟨fun h => (nomatch h), ?_⟩
    rintro ⟨before, i, after, hc, -⟩
    cases before <;> cases hc
  | cons j rest ih =>
    rw [settled, List.mem_cons, ih]
    constructor
    · rintro (rfl | ⟨before, i, after, rfl, rfl⟩)
      · exact ⟨[], j, rest, rfl, rfl⟩
      · exact ⟨j :: before, i, after, rfl, by rw [size_cons, Nat.add_assoc]⟩
    · rintro ⟨before, i, after, hc, rfl⟩
      cases before with
      | nil =>
        cases hc
        exact Or.inl rfl
      | cons k before =>
        cases hc
        exact Or.inr ⟨before, i, after, rfl, by rw [size_cons, Nat.add_assoc]⟩

/-- Every place of a fragment, and its end, is an instruction of the program once `halt` stands
behind it. -/
private theorem mem_settled_place {c before after : Code} (h : c = before ++ after) :
    ∃ l ∈ (c ++ op .halt).settled 0, l.offset = size before := by
  cases after with
  | nil =>
    refine ⟨_, mem_settled.mpr ⟨before, ⟨.halt, []⟩, [], ?_, rfl⟩, Nat.zero_add _⟩
    rw [h, List.append_nil]
    rfl
  | cons i after =>
    refine ⟨_, mem_settled.mpr ⟨before, i, after ++ op .halt, ?_, rfl⟩, Nat.zero_add _⟩
    rw [h, List.append_assoc]
    rfl

/-- An instruction of a fragment with one more behind it is that one, or one of the fragment. -/
private theorem split_last {c before after : Code} {i last : Instr Reach}
    (h : c ++ [last] = before ++ i :: after) :
    (c = before ∧ i = last) ∨ ∃ more, c = before ++ i :: more := by
  rcases List.append_eq_append_iff.mp h with ⟨more, rfl, hmore⟩ | ⟨more, rfl, hmore⟩
  · cases more with
    | nil => cases hmore; exact Or.inl ⟨(List.append_nil c).symm, rfl⟩
    | cons k more => cases more <;> cases hmore
  · cases more with
    | nil => cases hmore; exact Or.inl ⟨List.append_nil before, rfl⟩
    | cons k more => cases hmore; exact Or.inr ⟨more, rfl⟩

/-- Code that carries the machine from the empty shape back to it, and then halts. -/
theorem consistent_of_carries {c : Code} (h : Carries id ∅ ∅ 0 c {} {}) :
    ∃ shape, Consistent ((c ++ op .halt).settled 0) shape := by
  obtain ⟨shape, hstart, hend, hagree, -⟩ := h
  rw [Nat.zero_add] at hend
  refine ⟨shape, hstart, mem_settled_place (List.nil_append c).symm, ?_⟩
  intro l hl
  obtain ⟨before, i, after, hsplit, rfl⟩ := mem_settled.mp hl
  -- The last instruction is the halt, from which nothing flows; every other one is one of the
  -- code's.
  rcases split_last hsplit with ⟨rfl, rfl⟩ | ⟨more, hc⟩
  · refine ⟨{ fall := none }, ?_, ?_, ?_⟩
    · dsimp only
      rw [Nat.zero_add, hend]
      rfl
    · rintro τ ⟨⟩
    · rintro a τ ⟨⟩
  · obtain ⟨flow, hflow, hfall, hjumps⟩ := hagree before i more hc
    refine ⟨flow, hflow, ?_, ?_⟩
    · intro τ hτ
      have hafter : c = (before ++ [i]) ++ more := by
        rw [hc, List.append_assoc]
        rfl
      obtain ⟨next, hnext, hoffset⟩ := mem_settled_place hafter
      have hplace : next.offset = 0 + size before + i.size :=
        by rw [hoffset, size_append, size_cons, size_nil]; omega
      refine ⟨next, hnext, ?_, ?_⟩
      · rw [hplace, Instr.settle, Instr.size_map]
      · rw [hplace]
        exact hfall τ hτ
    -- A jump lands at an instruction of the code or at the halt: nothing is offered from outside.
    · intro a τ hτ
      rcases hjumps a τ hτ with ⟨before', after', hc', rfl, hshape⟩ | hwant
      · obtain ⟨next, hnext, hoffset⟩ := mem_settled_place hc'
        rw [Nat.zero_add] at hshape
        exact ⟨next, hnext, by rw [hoffset, Nat.zero_add], by rw [hoffset, hshape]⟩
      · cases hwant

end Code

end EcmaStack

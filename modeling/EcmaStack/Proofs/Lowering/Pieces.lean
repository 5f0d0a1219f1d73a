import EcmaStack.Lowering.Access
import EcmaStack.Lowering.Shape
import EcmaStack.Proofs.Machine.Frames
import EcmaStack.Proofs.Machine.Jumps

/-!
# Chains of optional accesses

A link of a chain may leave for the end of the chain, and does so with one value in place of the
operands of the whole chain. `Links m n` is what `Moves m n` becomes when such exits are
allowed. Sealing a complete chain sends its exits to its end, and what is left moves operands as
any other fragment (`Links.sealed`).
-/

namespace EcmaStack

namespace Code

/-- The fragment takes so many operands and leaves so many, or leaves the chain with one value. -/
def Links (c : Code) (m n : Nat) : Prop :=
  ∀ leave wants start (σ : StackShape), (leave, σ.push 1) ∈ wants →
    Carries (fun _ => leave) wants ∅ start c (σ.push m) (σ.push n)

variable {leave : Nat → Nat} {start : Nat} {wants offers : Landings} {c d : Code} {l m n : Nat}
    {σ τ : StackShape}

/-! ## Sealing -/

/-- Any split of a sealed chain is a split of the chain. -/
private theorem sealed_split {before after : Code} (h : c.sealed = before ++ after) :
    ∃ before' after', c = before' ++ after' ∧ size before' = size before ∧ after =
      after'.sealed := by
  induction before generalizing c with
  | nil => exact ⟨[], c, rfl, rfl, h.symm⟩
  | cons i rest ih =>
    cases c with
    | nil => cases h
    | cons j others =>
      obtain ⟨hi, hrest⟩ := List.cons.inj h
      obtain ⟨before', after', hc, hsize, hafter⟩ := ih hrest
      refine ⟨j :: before', after', by rw [hc, List.cons_append], ?_, hafter⟩
      rw [size_cons, size_cons, hsize, ← hi, Instr.size_map]

/-- Sealing changes addresses and no sizes, so what stands behind stays where it is. -/
private theorem sealed_append (before after : Code) :
    ∃ before', (before ++ after).sealed = before' ++ after.sealed ∧ size before' = size before := by
  induction before with
  | nil => exact ⟨[], rfl, rfl⟩
  | cons i rest ih =>
    obtain ⟨before', happend, hsize⟩ := ih
    refine ⟨i.map (Reach.close fun _ => size (rest ++ after)) :: before', ?_, ?_⟩
    · rw [List.cons_append, sealed, happend, List.cons_append]
    · rw [size_cons, size_cons, hsize, Instr.size_map]

/-- An exit that is sealed leads to the end of the chain. -/
private theorem settle_close (i : Instr Reach) (rest : Code) :
    (i.map (Reach.close fun _ => size rest)).settle leave start =
      i.settle (fun _ => start + i.size + size rest) start := by
  have hreach (r : Reach) : (r.close fun _ => size rest).target (leave (start + i.size)) start
      (start + i.size) =
      r.target (start + i.size + size rest) start (start + i.size) := by
    cases r <;> rfl
  have hoperand (o : Operand Reach) :
      (o.map (Reach.close fun _ => size rest)).map (fun r => r.target (leave (start + i.size)) start
        (start + i.size)) =
      o.map fun r => r.target (start + i.size + size rest) start (start + i.size) := by
    cases o with
    | address r => exact congrArg Operand.address (hreach r)
    | integer | number | text => rfl
  simp only [Instr.settle, Instr.size_map]
  simp only [Instr.map, List.map_map]
  congr 1
  exact List.map_congr_left fun o _ => hoperand o

/-- An address that landed within the code or behind it still does when the code is
sealed. -/
private theorem lands_sealed {shape : Nat → StackShape} {a : Nat} (h : c.Lands start shape a τ) :
    c.sealed.Lands start shape a τ := by
  obtain ⟨before, after, hc, ha, hshape⟩ := h
  obtain ⟨before', happend, hsize⟩ := sealed_append before after
  refine ⟨before', after.sealed, by rw [hc, happend], ?_, ?_⟩
  · rw [hsize, ha]
  · rw [hsize, hshape]

/-- What carries the machine with its exits at the end of the fragment does so once it is sealed. -/
theorem Carries.sealed (h : Carries (fun _ => start + size c) wants offers start c σ τ) :
    Carries leave wants offers start c.sealed σ τ := by
  obtain ⟨shape, hstart, hend, hagree, hoffers⟩ := h
  refine ⟨shape, hstart, by rw [size_sealed, hend], ?_, fun a ρ hmem => lands_sealed (hoffers a ρ
    hmem)⟩
  intro before i after hsplit
  obtain ⟨before', after', hc, hsize, hafter⟩ := sealed_split hsplit
  cases after' with
  | nil => cases hafter
  | cons j rest =>
    obtain ⟨hi, hrest⟩ := List.cons.inj hafter
    obtain ⟨flow, hflow, hfall, hjumps⟩ := hagree before' j rest hc
    have hleave : start + size c = start + size before + j.size + size rest := by
      rw [hc, size_append, size_cons, hsize]
      omega
    rw [hsize] at hflow hfall
    refine ⟨flow, ?_, ?_, fun a ρ hmem => (hjumps a ρ hmem).imp_left lands_sealed⟩
    · rw [hi, settle_close, ← hleave]
      exact hflow
    · intro ρ hρ
      rw [hi, Instr.size_map]
      exact hfall ρ hρ

/-! ## Links -/

/-- Code that leads nowhere is a link. -/
theorem Moves.links (h : Moves c m n) : Links c m n :=
  fun leave wants start σ _ => h σ (fun _ => leave) wants start (Set.empty_subset wants)

namespace Links

theorem nil : Links [] n n :=
  fun _ _ _ _ _ => .nil

/-- Links compose: leaving the first is leaving both. -/
theorem append (hc : Links c l m) (hd : Links d m n) : Links (c ++ d) l n := by
  intro leave wants start σ hleave
  have h := (hc leave wants start σ hleave).append (hd leave wants (start + size c) σ hleave)
  rwa [Set.union_empty] at h

/-- A complete chain. -/
theorem sealed (h : Links c 0 1) : Moves c.sealed 0 1 := by
  intro σ leave wants start _
  let E : Landings := {(start + size c, σ.push 1)}
  have hpiece := (h (start + size c) (wants ∪ E) start σ (Or.inr rfl)).ends
  refine (hpiece.shut ?_).sealed
  rintro _ rfl
  exact Or.inr (Or.inr rfl)

/-- Leaving the chain for a missing object, which is the value of the chain. -/
theorem optionalExit (optional : Bool) : Links (optionalExit optional) 1 1 := by
  rw [EcmaStack.optionalExit]
  split
  · intro leave wants start σ hleave
    exact .branch rfl (Nat.le_add_left 1 σ.depth) rfl hleave
  · exact nil

/-- Leaving the chain unless the value on top is there. -/
theorem unlessMissing (values : Nat) :
    Links (unlessMissing (values + 1)) (values + 1) (values + 1) := by
  intro leave wants start σ hleave
  let out : Code := drop (values + 1) ++ op .pushUndefined ++ Code.branch .jump .exit
  let E : Landings := {(start + jumpSize + size out, σ.push (values + 1))}
  have hundefined : Moves (op .pushUndefined) 0 1 := moves_of_height? rfl
  have hbranch :
      Carries (fun _ => leave) (wants ∪ E) ∅ start (Code.branch .jumpNotNull (.ahead (size out)))
      (σ.push (values + 1)) (σ.push (values + 1)) :=
    .branch rfl (Nat.le_add_left 1 _) rfl (Or.inr rfl)
  have hout : Carries (fun _ => leave) (wants ∪ E) (∅ ∪ ∅) (start + jumpSize) out
      (σ.push (values + 1)) (σ.push (values + 1)) := by
    refine ((((Moves.drop (values + 1)).append hundefined) σ) _ _ _ (Set.empty_subset _)).append ?_
    exact .jump rfl (Or.inl hleave)
  refine (hbranch.append hout.ends).shut ?_
  rintro _ rfl
  exact Or.inr (Or.inr (Or.inr rfl))

end Links

end Code

end EcmaStack

/-!
## Values, members, targets and scopes on the machine

What the code of the parts of expressions does to the shape of the machine. Lowering may refuse
a tree; `Lowers P x` says that what `x` makes has the property `P`, and that a tree is refused
at a place of the source only.
-/

namespace EcmaStack

open Code

/-- What is made has the property, or the tree is refused at a place of the source. -/
inductive Lowers {α : Type} (P : α → Prop) : Except WriteFault α → Prop where
  | ok {a : α} (h : P a) : Lowers P (.ok a)
  | refused (offset : Nat) (cause : WriteCause) : Lowers P (.error (.at offset cause))

namespace Lowers

variable {α β : Type} {P Q : α → Prop} {R : β → Prop}

/-- A weaker claim. -/
theorem mono {x : Except WriteFault α} (hx : Lowers P x) (h : ∀ a, P a → Q a) : Lowers Q x := by
  cases hx with
  | ok ha => exact .ok (h _ ha)
  | refused offset cause => exact .refused offset cause

/-- What is made first is known to what is made of it. -/
theorem bind {x : Except WriteFault α} {f : α → Except WriteFault β} (hx : Lowers P x)
    (hf : ∀ a, P a → Lowers R (f a)) : Lowers R (x >>= f) := by
  cases hx with
  | ok ha => exact hf _ ha
  | refused offset cause => exact .refused offset cause

/-- One of several ways, and what is the same after each of them. -/
theorem bind_ite {c : Prop} [Decidable c] {x y : Except WriteFault α} {f : α → Except WriteFault β}
    (hx : c → Lowers P x) (hy : ¬c → Lowers P y) (hf : ∀ a, P a → Lowers R (f a)) :
    Lowers R (if c then x >>= f else y >>= f) := by
  split
  · next h => exact (hx h).bind hf
  · next h => exact (hy h).bind hf

/-- What goes on behind a choice, with what each branch knows. -/
theorem bind_ite_ite {c d : Prop} [Decidable c] [Decidable d] {x y z : Except WriteFault α}
    {f : α → Except WriteFault β} (hx : c → Lowers P x) (hy : ¬c → d → Lowers P y)
    (hz : ¬c → ¬d → Lowers P z) (hf : ∀ a, P a → Lowers R (f a)) :
    Lowers R (if c then x >>= f else if d then y >>= f else z >>= f) := by
  split
  · next h => exact (hx h).bind hf
  · next h => exact bind_ite (hy h) (hz h) hf

/-- A refusal owes no code. -/
theorem refuse (span : Span) (cause : WriteCause) : Lowers P (EcmaStack.refuse span cause) :=
  .refused span.offset cause

end Lowers

/-! ## Operators and literals -/

/-- Every binary operation takes two values and leaves one, -/
theorem binary_moves {k : Kind} {o : Opcode} (h : k.binaryOpcode? = some o) : Moves (op o) 2 1 := by
  unfold Kind.binaryOpcode? at h
  split at h <;> cases h <;> exact moves_of_height? rfl

/-- and every unary one takes one. -/
theorem unary_moves {k : Kind} {o : Opcode} (h : k.unaryOpcode? = some o) : Moves (op o) 1 1 := by
  unfold Kind.unaryOpcode? at h
  split at h <;> cases h <;> exact moves_of_height? rfl

theorem shortCircuit_isConditional {k : Kind} {o : Opcode} (h : k.shortCircuit? = some o) :
    o.isConditional = true := by
  unfold Kind.shortCircuit? at h
  split at h <;> cases h <;> rfl

theorem string_moves (t : Text) : Moves (string t) 0 1 :=
  moves_of_height? rfl

theorem load_moves (t : Text) : Moves (text .load t) 0 1 :=
  moves_of_height? rfl

theorem store_moves (t : Text) : Moves (text .store t) 1 1 :=
  moves_of_height? rfl

theorem numberCode_moves (x : Binary64) : Moves (numberCode x) 0 1 := by
  rw [numberCode]
  split
  · exact moves_of_height? rfl
  · split <;> exact moves_of_height? rfl

/-- Texts and values joined one after the other to the text on top. -/
private theorem joined_moves {quasis : List TemplateElement} {values : List Code}
    (h : ∀ c ∈ values, Moves c 0 1) :
    Moves (templateCode.joined quasis values) 1 1 := by
  have hconcat : Moves (op .concat) 2 1 := moves_of_height? rfl
  induction values generalizing quasis with
  | nil =>
    cases quasis <;> exact .nil
  | cons c rest ih =>
    have hc := ((h c List.mem_cons_self).lift 1).append hconcat
    have hrest : ∀ quasis, Moves (templateCode.joined quasis rest) 1 1 :=
      fun quasis => ih fun d hd => h d (List.mem_cons_of_mem _ hd)
    cases quasis with
    | nil => exact hc.append (hrest [])
    | cons q quasis =>
      exact ((hc.append ((string_moves q.cooked).lift 1)).append hconcat).append (hrest quasis)

/-- However many values are joined, one string is left. -/
theorem templateCode_moves {quasis : List TemplateElement} {values : List Code}
    (h : ∀ c ∈ values, Moves c 0 1) :
    Moves (templateCode quasis values) 0 1 := by
  cases quasis with
  | nil => exact string_moves ""
  | cons q quasis => exact (string_moves q.cooked).append (joined_moves h)

/-- However many items are appended, one array is left. -/
theorem arrayCode_moves {items : List Code} (h : ∀ c ∈ items, Moves c 0 1) :
    Moves (arrayCode items) 0 1 := by
  have hpush : Moves (op .pushArray) 0 1 := moves_of_height? rfl
  have happend : Moves (op .append) 2 1 := moves_of_height? rfl
  exact hpush.append (.flatMap fun c hc => ((h c hc).lift 1).append happend)

theorem holeCode_moves : Moves holeCode 1 1 :=
  moves_of_height? rfl

/-- A value that is put in place of a missing one. -/
theorem fallback_moves {value : Code} (h : Moves value 0 1) :
    Moves (bypassed .jumpNotUndefined (op .pop ++ value)) 1 1 := by
  have hpop : Moves (op .pop) 1 0 := moves_of_height? rfl
  have hbypassed : Runs .none (bypassed .jumpNotUndefined (op .pop ++ value)) 1 1 :=
    Runs.bypassed rfl (hpop.append h).runs
  exact hbypassed.moves

/-- Taking a property of a value leaves the value where it was, -/
theorem propertyCode_moves {key fallback bind : Code} (hkey : Moves key 0 1)
    (hfallback : Moves fallback 1 1) (hbind : Moves bind 1 0) :
    Moves (propertyCode key fallback bind) 1 1 := by
  have hpick : Moves (pick 1) 1 2 := moves_of_height? rfl
  have hget : Moves (op .getField) 3 2 := moves_of_height? rfl
  exact (((hpick.append (hkey.lift 2)).append hget).append (hfallback.lift 1)).append (hbind.lift 1)

/-- and the list of keys below it. -/
theorem listedPropertyCode_moves {key fallback bind : Code} (hkey : Moves key 0 1)
    (hfallback : Moves fallback 1 1) (hbind : Moves bind 1 0) :
    Moves (listedPropertyCode key fallback bind) 2 2 := by
  have hpick : Moves (pick 2) 2 3 := moves_of_height? rfl
  have hlist : Moves (pick 3 ++ pick 2 ++ op .append ++ op .pop ++ op .getField) 4 3 :=
    moves_of_height? rfl
  have h :=
    (((hpick.append (hkey.lift 3)).append hlist).append (hfallback.lift 2)).append (hbind.lift 2)
  simpa only [listedPropertyCode, List.append_assoc] using h

/-! ## Targets -/

/-- The code of a reference puts the values of its target on the stack. -/
def Reference.Typed (r : Reference) : Prop :=
  Moves r.code 0 r.target.depth

namespace Target

/-- Reading a target keeps what names it, -/
theorem get_moves (t : Target) : Moves t.get t.depth (t.depth + 1) := by
  cases t <;> exact moves_of_height? rfl

/-- setting it takes that away and leaves the value, -/
theorem set_moves (t : Target) : Moves t.set (t.depth + 1) 1 := by
  cases t <;> exact moves_of_height? rfl

/-- and binding it takes the value away as well. -/
theorem bind_moves (t : Target) : Moves t.bind (t.depth + 1) 0 := by
  cases t <;> exact moves_of_height? rfl

end Target

namespace Reference.Typed

variable {r : Reference} {value : Code}

theorem assign (h : r.Typed) (hvalue : Moves value 0 1) :
    Moves (r.code ++ value ++ r.target.set) 0 1 :=
  (h.append (hvalue.lift r.target.depth)).append r.target.set_moves

theorem bind (h : r.Typed) : Moves (r.code ++ r.target.bind) 1 0 := by
  have h' := (h.lift 1).append (Nat.add_comm 1 r.target.depth ▸ r.target.bind_moves)
  exact h'

/-- An update leaves the value before or after, and nothing of the target. -/
theorem update (h : r.Typed) (up before : Bool) : Moves (r.update up before) 0 1 := by
  rw [Reference.update]
  have hget := h.append r.target.get_moves
  split
  · have hstep : Moves (op (if up then .inc else .dec)) 1 1 := by
      cases up <;> exact moves_of_height? rfl
    exact (hget.append (hstep.lift r.target.depth)).append r.target.set_moves
  · have hstep :
        Moves (op (if up then .deferInc else .deferDec) ++ sink (r.target.depth +
          1) ++ r.target.set ++ op .pop)
        (r.target.depth + 1) 1 := by
      cases r.target <;> cases up <;> exact moves_of_height? rfl
    have h' := hget.append hstep
    simpa only [List.append_assoc] using h'

/-- A compound assignment reads the target and sets it to what is made of both values. -/
theorem compound (h : r.Typed) (hvalue : Moves value 0 1) {o : Opcode} (ho : Moves (op o) 2 1) :
    Moves (r.code ++ r.target.get ++ value ++ op o ++ r.target.set) 0 1 := by
  have hvalue' := hvalue.lift (r.target.depth + 1)
  exact (((h.append r.target.get_moves).append hvalue').append (ho.lift r.target.depth)).append
    r.target.set_moves

/-- Both ways through end with one value: the one assigned, or the one that was there. -/
theorem assignUnless (h : r.Typed) (hvalue : Moves value 0 1) {decided : Opcode}
    (ho : decided.isConditional = true) :
    Moves (r.assignUnless decided value) 0 1 := by
  let keep : Code := if r.target.depth == 0 then [] else sink r.target.depth ++ drop r.target.depth
  have hkeep : Moves keep (r.target.depth + 1) 1 := by
    simp only [keep]
    cases r.target <;> exact moves_of_height? rfl
  have hpop : Moves (op .pop) (r.target.depth + 1) r.target.depth := moves_of_height? rfl
  have hassign := (hpop.append (hvalue.lift r.target.depth)).append r.target.set_moves
  intro σ
  have heither :=
    Leads.either (W := ∅) ho (Nat.le_add_left 1 (σ.depth + r.target.depth)) (hassign σ) (hkeep σ)
  have h' := ((h.append r.target.get_moves) σ).append heither
  simpa only [Reference.assignUnless, List.append_assoc] using h'

end Reference.Typed

end EcmaStack

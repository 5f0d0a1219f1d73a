import EcmaStack.Proofs.Machine.Moves

/-!
# Fragments with jumps

How the ways of putting fragments together act on the shape of the machine. Each law first gives
the targets of the jumps to the pieces as wants, then finds them among what the pieces offer.
-/

namespace EcmaStack

/-- Whether an operation looks at the top operand, keeps it, and may jump. -/
def Opcode.isConditional : Opcode → Bool
  | .jumpNull | .jumpNotNull | .jumpFalse | .jumpTrue | .jumpNotUndefined => true
  | _ => false

namespace Code

variable {W : Landings} {leave : Nat → Nat} {start : Nat} {wants offers E : Landings}
    {c body : Code} {σ ρ τ : StackShape} {o : Opcode}
  {r : Reach}

@[simp] theorem size_branch (o : Opcode) (r : Reach) : size (branch o r) = jumpSize := rfl

@[simp] theorem size_op (o : Opcode) : size (op o) = 2 := rfl

namespace Carries

/-- Wants that are all on offer inside are no wants of the whole. -/
theorem shut (h : Carries leave (wants ∪ E) offers start c σ τ) (hE : E ⊆ offers) :
    Carries leave wants ∅ start c σ τ :=
  (h.close (Set.union_subset_union_right wants hE)).weaken (Set.Subset.refl _) (Set.empty_subset _)

/-- A conditional jump. -/
theorem branch {t : Nat} (ho : o.isConditional = true) (hσ : 1 ≤ σ.depth)
    (ht : r.target (leave (start + jumpSize)) start (start + jumpSize) = t) (hw : (t, σ) ∈ wants) :
    Carries leave wants ∅ start (branch o r) σ σ := by
  have hflow : (Instr.settle leave start ⟨o, [.address r]⟩).flow σ =
      some { fall := some σ, jumps := [(t, σ)] } := by
    subst ht
    cases o <;> first | (cases ho; done) | exact if_pos hσ
  refine .instr hflow ?_ ?_
  · rintro _ ⟨⟩
    rfl
  · intro a ρ hmem
    cases List.mem_singleton.mp hmem
    exact hw

/-- A jump, after which nothing is known to follow. -/
theorem jump {t : Nat} (ht : r.target (leave (start + jumpSize)) start (start + jumpSize) = t)
    (hw : (t, σ) ∈ wants) :
    Carries leave wants ∅ start (Code.branch .jump r) σ τ := by
  have hflow : (Instr.settle leave start ⟨.jump, [.address r]⟩).flow σ =
      some { fall := none, jumps := [(t, σ)] } := by
    subst ht
    rfl
  refine .instr hflow ?_ ?_
  · rintro _ ⟨⟩
  · intro a ρ hmem
    cases List.mem_singleton.mp hmem
    exact hw

end Carries

namespace Leads

/-- An instruction that goes nowhere. -/
theorem stop (ho : o = .raise ∨ o = .giveBack) (hσ : 1 ≤ σ.depth) : Leads W (op o) σ τ := by
  intro leave wants start _
  have hflow : (Instr.settle leave start ⟨o, []⟩).flow σ = some { fall := none } := by
    rcases ho with rfl | rfl <;> exact if_pos hσ
  refine .instr hflow ?_ ?_
  · rintro _ ⟨⟩
  · intro a ρ hmem
    cases hmem

/-- The operations that open and close scopes and frames, one by one. -/
theorem pushScope : Leads W (op .pushScope) σ σ.enter := by
  intro leave wants start _
  refine Carries.instr (rfl : _ = some (Flow.on σ.enter)) ?_ ?_
  · rintro _ ⟨⟩
    rfl
  · intro a ρ hmem
    cases hmem

theorem popScope : Leads W (op .popScope) σ.enter σ := by
  intro leave wants start _
  have hflow : (Instr.settle leave start ⟨.popScope, []⟩).flow σ.enter = some (.on σ) := by
    change (if 0 < σ.scopes + 1 then some (Flow.on σ) else none) = _
    rw [if_pos (Nat.succ_pos σ.scopes)]
  refine .instr hflow ?_ ?_
  · rintro _ ⟨⟩
    rfl
  · intro a ρ hmem
    cases hmem

theorem popLabel {f : Frame} : Leads W (op .popLabel) (σ.catching f) σ := by
  intro leave wants start _
  refine Carries.instr (rfl : _ = some (Flow.on σ)) ?_ ?_
  · rintro _ ⟨⟩
    rfl
  · intro a ρ hmem
    cases hmem

theorem tryEnd : Leads W (op .tryEnd) σ σ := by
  intro leave wants start _
  refine Carries.instr (rfl : _ = some (Flow.on σ)) ?_ ?_
  · rintro _ ⟨⟩
    rfl
  · intro a ρ hmem
    cases hmem

/-- Dropping the top operand. -/
theorem pop : Leads W (op .pop) (σ.push 1) σ :=
  (moves_of_height? (m := 1) (n := 0) rfl).leads W σ

/-- A fragment that a conditional jump may pass over. -/
theorem bypassed (ho : o.isConditional = true) (hσ : 1 ≤ σ.depth) (hbody : Leads W body σ σ) :
    Leads W (bypassed o body) σ σ := by
  intro leave wants start hW
  let finish := start + size (Code.branch o (.ahead body.size)) + body.size
  have hjump : Carries leave (wants ∪ {(finish, σ)}) ∅ start (Code.branch o (.ahead body.size))
      σ σ :=
    .branch ho hσ rfl (Or.inr rfl)
  refine (hjump.append (hbody.piece leave _ (hW.trans Set.subset_union_left))).shut ?_
  rintro _ rfl
  exact Or.inr (Or.inr rfl)

/-- A loop without an end. -/
theorem forever (hbody : Leads W body σ σ) : Leads W (forever body) σ τ := by
  intro leave wants start hW
  have hjump : Carries leave (wants ∪ {(start, σ)}) ∅ (start + size body)
      (Code.branch .jump (.back body.size)) σ τ :=
    .jump (Nat.add_sub_cancel start body.size) (Or.inr rfl)
  refine ((hbody.piece leave start (hW.trans Set.subset_union_left)).append hjump).shut ?_
  rintro _ rfl
  exact Or.inl (Or.inl rfl)

/-- Two ways on, between which a conditional jump chooses. -/
theorem either {first second : Code} (ho : o.isConditional = true) (hσ : 1 ≤ σ.depth)
    (hfirst : Leads W first σ τ) (hsecond : Leads W second σ τ) :
    Leads W (Code.bypassed o (first ++ Code.branch .jump (.ahead second.size)) ++ second) σ τ := by
  intro leave wants start hW
  let taken : Code := first ++ Code.branch .jump (.ahead second.size)
  let turn := start + size (Code.bypassed o taken)
  let E : Landings := {(turn, σ), (turn + second.size, τ)}
  have hW' : W ⊆ wants ∪ E := hW.trans Set.subset_union_left
  have hbranch : Carries leave (wants ∪ E) ∅ start (Code.branch o (.ahead taken.size)) σ σ := by
    refine .branch ho hσ (t := turn) ?_ (Or.inr (Or.inl rfl))
    simp only [Reach.target, Reach.offset, turn, Code.bypassed, size_append, size_branch]
    omega
  -- Nothing falls out of the first way, so its end may have the shape in which the second starts.
  have htaken : Carries leave (wants ∪ E) (∅ ∪ ∅) (start + jumpSize) taken σ σ := by
    refine (hfirst leave _ _ hW').append (.jump (t := turn + second.size) ?_ (Or.inr (Or.inr rfl)))
    simp only [Reach.target, Reach.offset, turn, taken, Code.bypassed, size_append, size_branch]
    omega
  refine ((hbranch.append htaken).append (hsecond.piece leave turn hW')).shut ?_
  exact Set.subset_union_right

/-- A test with a fragment for either outcome. -/
theorem choice {test yes no : Code} (htest : Leads W test σ (σ.push 1)) (hyes : Leads W yes σ τ)
    (hno : Leads W no σ τ) :
    Leads W (choice test yes no) σ τ := by
  rw [Code.choice, List.append_assoc]
  exact htest.append (either rfl (Nat.le_add_left 1 σ.depth) (pop.append hyes) (pop.append hno))

/-- A fragment that runs again and again until its test leaves it. -/
theorem repeated {test rest : Code} (ho : o.isConditional = true)
    (htest : Leads W test σ (ρ.push 1)) (hrest : Leads W rest ρ σ) :
    Leads W (repeated test o rest) σ (ρ.push 1) := by
  intro leave wants start hW
  let turn : Code := op .pop ++ rest
  let whole : Code := test ++ Code.branch o (.ahead (turn.size + jumpSize)) ++ turn
  let finish := start + size (whole ++ Code.branch .jump (.back whole.size))
  let E : Landings := {(start, σ), (finish, ρ.push 1)}
  have hW' : W ⊆ wants ∪ E := hW.trans Set.subset_union_left
  have hbranch :
      Carries leave (wants ∪ E) ∅ (start + size test)
      (Code.branch o (.ahead (turn.size + jumpSize)))
      (ρ.push 1) (ρ.push 1) := by
    refine .branch ho (Nat.le_add_left 1 ρ.depth) (t := finish) ?_ (Or.inr (Or.inr rfl))
    simp only [Reach.target, Reach.offset, finish, whole, size_append, size_branch]
    omega
  have hback : Carries leave (wants ∪ E) ∅ (start + whole.size)
      (Code.branch .jump (.back whole.size)) σ (ρ.push 1) :=
    .jump (Nat.add_sub_cancel start whole.size) (Or.inr (Or.inl rfl))
  have hbody := ((htest leave _ start hW').append hbranch).append ((pop.append hrest) leave _ _ hW')
  refine (hbody.append hback).ends.shut ?_
  exact Set.subset_union_right

/-- A function body that is passed over, and the function object that is given its address. The
body starts with nothing on the stack and nothing open. -/
theorem enclosed {object : Code} (hbody : Leads ∅ body {} σ) (hobject : Leads W object σ ρ)
    (hρ : 1 ≤ ρ.depth) :
    Leads W (enclosed body object) σ ρ := by
  intro leave wants start hW
  let entry := start + jumpSize
  let after := start + size (Code.bypassed .jump body)
  -- Inside the code two places are jumped to: the entry of the body, which starts with an empty
  -- stack, and the place behind it.
  let E : Landings := {(entry, {}), (after, σ)}
  have hskip : Carries leave (wants ∪ E) ∅ start (Code.branch .jump (.ahead body.size)) σ {} := by
    refine .jump (t := after) ?_ (Or.inr (Or.inr rfl))
    simp only [Reach.target, Reach.offset, after, Code.bypassed, size_append, size_branch]
    omega
  have hset : Carries leave (wants ∪ E) ∅ (start + size (Code.bypassed .jump body ++ object))
      (Code.branch .setAddress (.back (body.size + object.size))) ρ ρ := by
    have htarget (t : Nat) : Reach.target t (start + size (Code.bypassed .jump body ++ object))
        (start + size (Code.bypassed .jump body ++ object) + jumpSize)
          (.back (body.size + object.size)) = entry := by
      simp only [Reach.target, Reach.offset, entry, Code.bypassed, size_append, size_branch]
      omega
    have hflow : (Instr.settle leave (start + size (Code.bypassed .jump body ++ object))
        ⟨.setAddress, [.address (.back (body.size + object.size))]⟩).flow ρ =
        some { fall := some ρ, jumps := [(entry, {})] } := by
      rw [← htarget (leave _)]
      exact if_pos hρ
    refine .instr hflow ?_ ?_
    · rintro _ ⟨⟩
      rfl
    · intro a τ hmem
      cases List.mem_singleton.mp hmem
      exact Or.inr (Or.inl rfl)
  have hpieces := ((hskip.append (hbody.piece leave _ (Set.empty_subset _))).append
    (hobject leave _ _ (hW.trans Set.subset_union_left))).append hset
  refine hpieces.shut ?_
  rintro _ (rfl | rfl)
  · exact Or.inl (Or.inl (Or.inr (Or.inl rfl)))
  · refine Or.inl (Or.inl (Or.inr (Or.inr ?_)))
    simp only [after, Code.bypassed, size_append, Nat.add_assoc]
    rfl

end Leads

end Code

end EcmaStack

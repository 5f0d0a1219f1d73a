import EcmaStack.Lowering.Shape
import EcmaStack.Proofs.Machine.Frames

/-!
# Loops, switches and protected blocks on the machine

What the code of statements does to the shape of the machine, given what its parts do. A switch
and a protected block have jumps into their middle: the tests of a switch go to the bodies
(`dispatch_carries`), each of which offers its start (`bodies_offer`), and the handler and the
finalizer of a block are entered from its first instruction.
-/

namespace EcmaStack

open Code

variable {exits : Exits} {m n : Nat}

/-! ## Loops -/

/-- A turn of a loop catches what continues the loop. -/
theorem turnCode_runs {labels : List String} {body : Code}
    (h : Runs (exits.more .forContinue (labels ++ [""])) body n n) :
    Runs exits (turnCode labels body) n n := by
  have h' := Runs.framed h
  exact h'

/-- A loop or a switch catches what breaks off. -/
theorem breakable_runs {labels : List String} {body : Code}
    (h : Runs (exits.more .forBreak (labels ++ [""])) body n n) :
    Runs exits (breakable labels body) n n := by
  have h' := Runs.framed h
  exact h'

/-- Dropping the top value, whatever lies below it. -/
theorem pop_moves (n : Nat) : Moves (op .pop) (n + 1) n :=
  moves_of_height? rfl

/-- Both ends of a turn meet the test with the same stack. -/
theorem whileCode_runs {test turn : Code} (htest : Runs exits test 0 1)
    (hturn : Runs exits turn 0 0) :
    Runs exits (whileCode test turn) 0 0 :=
  (Runs.repeated rfl htest hturn).append (pop_moves 0).runs

/-- The test behind the turn leads back to it with nothing left of its value. -/
theorem doWhileCode_runs {turn test : Code} (hturn : Runs exits turn 0 0)
    (htest : Runs exits test 0 1) :
    Runs exits (doWhileCode turn test) 0 0 :=
  (Runs.repeated rfl (hturn.append htest) .nil).append (pop_moves 0).runs

/-- A loop without a test goes round until something leaves it. -/
theorem forCode_runs {test : Option Code} {turn : Code} (htest : ∀ c ∈ test, Runs exits c 0 1)
    (hturn : Runs exits turn 0 0) : Runs exits (forCode test turn) 0 0 := by
  cases test with
  | none => exact Runs.forever hturn
  | some test => exact whileCode_runs (htest test rfl) hturn

/-- A loop over what the iterator on top yields. A turn finds the value on top of the iterator
and takes it. -/
theorem eachCode_runs {advance : Opcode} {turn : Code}
    (hadvance : advance = .next ∨ advance = .awaitNext) (hturn : Runs exits turn 2 1) :
    Runs exits (eachCode advance turn) 1 1 := by
  have hnext : Moves (op advance) 1 3 := by
    rcases hadvance with rfl | rfl <;> exact moves_of_height? rfl
  exact (Runs.repeated rfl hnext.runs hturn).append ((Moves.drop 2).lift 1).runs

/-- Everything that another iterator yields. -/
theorem delegateCode_moves (async : Bool) : Moves (delegateCode async) 1 1 := by
  have hopen : Moves (op (if async then .asyncIterator else .iterator)) 1 1 := by
    cases async <;> exact moves_of_height? rfl
  have hnext : Moves (op (if async then .awaitNext else .next)) 1 3 := by
    cases async <;> exact moves_of_height? rfl
  have hpass : Moves (op .yield ++ op .pop) 2 1 := moves_of_height? rfl
  have hloop :
      Runs .none (repeated (op (if async then .awaitNext else .next)) .jumpTrue (op .yield ++
        op .pop)) 1 3 :=
    Runs.repeated rfl hnext.runs hpass.runs
  have hclose : Moves (op .pop ++ sink 1 ++ op .pop) 3 1 := moves_of_height? rfl
  have h := (hopen.append hloop.moves).append hclose
  simpa only [delegateCode, List.append_assoc] using h

/-! ## Switches -/

section Switch

variable {leave : Nat → Nat} {start : Nat} {wants : Landings} {W : Landings} {σ τ ρ : StackShape}

/-- The tests of a switch keep its value and go to a body or to the default. What they want lies
behind them, at the offsets of the bodies. -/
theorem dispatch_carries {fallback : Nat} {clauses : List (Option Code × Nat)}
    (htests : ∀ test body, (some test, body) ∈ clauses → Moves test 0 1)
    (hbodies : ∀ test body, (some test, body) ∈ clauses →
      (start + size (dispatch fallback clauses) + body, σ.push 1) ∈ wants)
    (hfallback : (start + size (dispatch fallback clauses) + fallback, σ.push 1) ∈ wants) :
    Carries leave wants ∅ start (dispatch fallback clauses) (σ.push 1) τ := by
  induction clauses generalizing start with
  | nil => exact .jump rfl hfallback
  | cons clause rest ih =>
    obtain ⟨test, body⟩ := clause
    cases test with
    | none =>
      refine ih ?_ ?_ hfallback
      · exact fun test body hmem => htests test body (List.mem_cons_of_mem _ hmem)
      · exact fun test body hmem => hbodies test body (List.mem_cons_of_mem _ hmem)
    | some test =>
      let others : Code := op .pop ++ dispatch fallback rest
      let found : Code := op .pop ++ Code.branch .jump (.ahead (others.size + body))
      let ask : Code := pick 1 ++ test ++ op .strictEqual
      let choose := start + size ask
      let next := choose + jumpSize + size found
      let E : Landings := {(next, σ.push 2)}
      have hend : start + size (dispatch fallback ((some test, body) :: rest)) =
          next + size others := by
        simp only [dispatch, next, choose, ask, found, others, bypassed, size_append, size_branch]
        omega
      rw [hend] at hfallback
      have hask : Moves ask 1 2 := by
        have hpick : Moves (pick 1) 1 2 := moves_of_height? rfl
        have hequal : Moves (op .strictEqual) 3 2 := moves_of_height? rfl
        exact (hpick.append ((htests test body List.mem_cons_self).lift 2)).append hequal
      have hchoose :
          Carries leave (wants ∪ E) ∅ choose (Code.branch .jumpFalse (.ahead (size found)))
          (σ.push 2) (σ.push 2) :=
        .branch rfl (Nat.le_add_left 1 (σ.depth + 1)) rfl (Or.inr rfl)
      -- Nothing falls out of the way to the body, so its end may have the shape the other tests
      -- start in.
      have hfound : Carries leave (wants ∪ E) (∅ ∪ ∅) (choose + jumpSize) found (σ.push 2)
          (σ.push 2) := by
        refine ((pop_moves 1) σ leave _ _ (Set.empty_subset _)).append ?_
        refine .jump (t := next + size others + body) ?_ (Or.inl ?_)
        · simp only [Reach.target, Reach.offset, next, found, size_append, size_branch, size_op]
          omega
        · rw [← hend]
          exact hbodies test body List.mem_cons_self
      have hothers : Carries leave (wants ∪ E) (∅ ∪ ∅) next others (σ.push 2) τ := by
        have hplace : next + size (op .pop) + size (dispatch fallback rest) =
            next + size others := by
          simp only [others, size_append]
          omega
        refine ((pop_moves 1) σ leave _ next (Set.empty_subset _)).append ?_
        refine Carries.weaken (ih ?_ ?_ ?_) Set.subset_union_left (Set.Subset.refl _)
        · exact fun test body hmem => htests test body (List.mem_cons_of_mem _ hmem)
        · intro test' body' hmem
          have h := hbodies test' body' (List.mem_cons_of_mem _ hmem)
          rw [hend] at h
          rwa [hplace]
        · rwa [hplace]
      have hstart := hask σ leave (wants ∪ E) start (Set.empty_subset _)
      have hway := hstart.append (hchoose.append hfound)
      refine (hway.append_at ?_ hothers.ends).shut ?_
      · simp only [next, choose, size_append, size_branch]
        omega
      rintro _ rfl
      exact Or.inr (Or.inr (Or.inl rfl))

/-- Bodies that stand one after the other each offer their start. -/
theorem bodies_offer {bodies : List Code} (h : ∀ b ∈ bodies, Leads W b ρ ρ) (hW : W ⊆ wants)
    (first : Nat) :
    Carries leave wants {x | ∃ o ∈ offsetsFrom first bodies, x = (start + o, ρ)} (start + first)
      bodies.flatten ρ ρ := by
  induction bodies generalizing first with
  | nil =>
    refine Carries.nil.weaken (Set.Subset.refl _) ?_
    rintro _ ⟨o, ho, -⟩
    cases ho
  | cons b rest ih =>
    have hb := (h b List.mem_cons_self).piece leave (start + first) hW
    have hrest := ih (fun b hb => h b (List.mem_cons_of_mem _ hb)) (first + size b)
    rw [← Nat.add_assoc] at hrest
    refine (hb.append hrest).weaken (Set.Subset.refl _) ?_
    rintro _ ⟨o, ho, rfl⟩
    rcases List.mem_cons.mp ho with rfl | ho
    · exact Or.inl (Or.inl rfl)
    · exact Or.inr ⟨o, ho, rfl⟩

end Switch

/-- The tests and bodies of a switch, with the offset of what runs when no test succeeds. -/
private theorem switch_runs {discriminant : Code} {tests : List (Option Code)} {bodies : List Code}
    {fallback : Nat} (hdiscriminant : Moves discriminant 0 1)
    (htests : ∀ t, some t ∈ tests → Moves t 0 1) (hbodies : ∀ b ∈ bodies, Runs exits b 0 0)
    (hfallback : fallback ∈ offsetsFrom 0 bodies ∨ fallback = size bodies.flatten) :
    Runs exits (discriminant ++ dispatch fallback (tests.zip (offsetsFrom 0 bodies)) ++
      bodies.flatten ++ op .pop)
      0 0 := by
  intro W σ hmeets leave wants start hW
  let clauses := tests.zip (offsetsFrom 0 bodies)
  let first := start + size discriminant
  let base := first + size (dispatch fallback clauses)
  let E : Landings := {x | ∃ o ∈ offsetsFrom 0 bodies, x = (base + o, σ.push 1)} ∪
    {(base, σ.push 1), (base + size bodies.flatten, σ.push 1)}
  have hW' : W ⊆ wants ∪ E := hW.trans Set.subset_union_left
  have hbody : ∀ b ∈ bodies, Leads W b (σ.push 1) (σ.push 1) :=
    fun b hb => (hbodies b hb).lift 1 W σ hmeets
  have hoffers : Carries leave (wants ∪ E) E base bodies.flatten (σ.push 1) (σ.push 1) :=
    (bodies_offer hbody hW' 0).ends
  have hdispatch : Carries leave (wants ∪ E) ∅ first (dispatch fallback clauses) (σ.push 1)
      (σ.push 1) := by
    refine dispatch_carries ?_ ?_ (Or.inr ?_)
    · exact fun test body hmem => htests test (List.of_mem_zip hmem).1
    · exact fun test body hmem => Or.inr (Or.inl ⟨body, (List.of_mem_zip hmem).2, rfl⟩)
    · rcases hfallback with hmem | rfl
      · exact Or.inl ⟨fallback, hmem, rfl⟩
      · exact Or.inr (Or.inr rfl)
  have hstart := hdiscriminant σ leave (wants ∪ E) start (Set.empty_subset _)
  have hpop := (pop_moves 0) σ leave (wants ∪ E) (base + size bodies.flatten) (Set.empty_subset _)
  refine ((((hstart.append hdispatch).append_at ?_ hoffers).append_at ?_ hpop)).shut ?_
  · simp only [base, first, size_append, clauses]
    omega
  · simp only [base, first, size_append, clauses]
    omega
  · exact fun x hx => Or.inl (Or.inr hx)

/-- Fewer clauses without a test than tests that are missing. -/
private theorem defaults_le (tests : List (Option Code)) (offsets : List Nat) :
    ((tests.zip offsets).filter (·.1.isNone)).length ≤ (tests.filter Option.isNone).length := by
  induction tests generalizing offsets with
  | nil => exact Nat.le_refl 0
  | cons t rest ih =>
    cases offsets with
    | nil => exact Nat.zero_le _
    | cons o others =>
      have h := ih others
      rw [List.zip_cons_cons, List.filter_cons, List.filter_cons]
      split
      · rw [List.length_cons, List.length_cons]
        omega
      · exact h

/-- A switch with at most one default clause is lowered, and leaves the machine as it was. -/
theorem switchCode_runs {discriminant : Code} {tests : List (Option Code)} {bodies : List Code}
    (hdiscriminant : Moves discriminant 0 1) (htests : ∀ t, some t ∈ tests → Moves t 0 1)
    (hbodies : ∀ b ∈ bodies, Runs exits b 0 0)
    (hdefaults : (tests.filter Option.isNone).length ≤ 1) :
    ∃ c, switchCode discriminant tests bodies = .ok c ∧ Runs exits c 0 0 := by
  have hfilter := Nat.le_trans (defaults_le tests (offsetsFrom 0 bodies)) hdefaults
  rw [switchCode]
  split
  · exact ⟨_, rfl, switch_runs hdiscriminant htests hbodies (Or.inr rfl)⟩
  · next test body hone =>
    have hmem : (test, body) ∈ (tests.zip (offsetsFrom 0 bodies)).filter (·.1.isNone) := by
      rw [hone]
      exact List.mem_singleton_self _
    have hbody := (List.of_mem_zip (List.mem_filter.mp hmem).1).2
    exact ⟨_, rfl, switch_runs hdiscriminant htests hbodies (Or.inl hbody)⟩
  · next hnil hone =>
    exfalso
    generalize (tests.zip (offsetsFrom 0 bodies)).filter (·.1.isNone) = found at hfilter hnil hone
    match found with
    | [] => exact hnil rfl
    | [x] => exact hone x.1 x.2 rfl
    | _ :: _ :: rest => exact absurd hfilter (by rw [List.length_cons, List.length_cons]; omega)

/-! ## Protected blocks -/

/-- The first instruction of a protected block may go to the handler, with the exception on the
stack, and to the finalizer; an address that is absent leads nowhere. -/
private theorem tryBegin_carries {leave : Nat → Nat} {start : Nat} {wants : Landings}
    {σ : StackShape} {handler finalizer : Reach} (hhandler : handler = .absent ∨
      (handler.target (leave (start + 18)) start (start + 18), σ.push 1) ∈ wants)
    (hfinalizer : finalizer = .absent ∨
      (finalizer.target (leave (start + 18)) start (start + 18), σ) ∈ wants) :
    Carries leave wants ∅ start [⟨.tryBegin, [.address handler, .address finalizer]⟩] σ σ := by
  let a := handler.target (leave (start + 18)) start (start + 18)
  let b := finalizer.target (leave (start + 18)) start (start + 18)
  have hflow :
      (Instr.settle leave start ⟨.tryBegin, [.address handler, .address finalizer]⟩).flow σ =
      some { fall := some σ, jumps := [(a, σ.push 1), (b, σ)].filter (·.1 != 0) } := rfl
  refine .instr hflow ?_ ?_
  · rintro _ ⟨⟩
    rfl
  · intro x ρ hmem
    obtain ⟨hmem, hpresent⟩ := List.mem_filter.mp hmem
    simp only [List.mem_cons, List.not_mem_nil, or_false, Prod.mk.injEq] at hmem
    rcases hmem with ⟨rfl, rfl⟩ | ⟨rfl, rfl⟩
    · rcases hhandler with rfl | hwant
      · cases hpresent
      · exact hwant
    · rcases hfinalizer with rfl | hwant
      · cases hpresent
      · exact hwant

/-- A protected block. The handler starts with the exception on the stack. -/
theorem tryCode_runs {block : Code} {handler finalizer : Option Code}
    (hblock : Runs exits block 0 0) (hhandler : ∀ c ∈ handler, Runs exits c 1 0)
    (hfinalizer : ∀ c ∈ finalizer, Runs exits c 0 0) :
    Runs exits (tryCode block handler finalizer) 0 0 := by
  intro W σ hmeets leave wants start hW
  let caught : Code := (handler.map (· ++ op .tryEnd)).getD []
  let main : Code := block ++ op .tryEnd ++ Code.branch .jump (.ahead caught.size)
  let last : Code := (finalizer.map fun f => bypassed .jump (f ++ op .tryEnd)).getD []
  let body := start + 18
  let catching := body + size main
  let finishing := catching + size caught
  let E : Landings := {x | handler.isSome ∧ x = (catching, σ.push 1)} ∪
    ({x | finalizer.isSome ∧ x = (finishing + jumpSize, σ)} ∪
      {(finishing, σ), (finishing + size last, σ)})
  have hW' : W ⊆ wants ∪ E := hW.trans Set.subset_union_left
  have hbegin : Carries leave (wants ∪ E) ∅ start
      [⟨.tryBegin, [.address (if handler.isSome then .ahead main.size else .absent),
        .address (if finalizer.isSome then .ahead (main.size + caught.size + jumpSize)
          else .absent)]⟩] σ σ := by
    refine tryBegin_carries ?_ ?_
    · split
      · next h => exact Or.inr (Or.inr (Or.inl ⟨h, rfl⟩))
      · exact Or.inl rfl
    · split
      · next h =>
        refine Or.inr (Or.inr (Or.inr (Or.inl ⟨h, ?_⟩)))
        simp only [Reach.target, Reach.offset, finishing, catching, body, Nat.add_assoc]
      · exact Or.inl rfl
  -- The block ends in a jump, so the handler behind it may start in another shape.
  let entry := if handler.isSome then σ.push 1 else σ
  have hmain : Carries leave (wants ∪ E) (∅ ∪ ∅) body main σ entry := by
    have hprotected := ((hblock W σ hmeets).append .tryEnd) leave _ body hW'
    refine hprotected.append (.jump (t := finishing) ?_ (Or.inr (Or.inr (Or.inr (Or.inl rfl)))))
    simp only [Reach.target, Reach.offset, finishing, catching, main, size_append, size_branch]
    omega
  have hcaught : Carries leave (wants ∪ E) {(catching, entry), (finishing, σ)} catching
      caught entry σ := by
    have h : Leads W caught entry σ := by
      cases handler with
      | none => exact .nil
      | some c => exact (hhandler c rfl W σ hmeets).append .tryEnd
    exact h.piece leave catching hW'
  have hlast : Carries leave (wants ∪ E) {x | finalizer.isSome ∧ x = (finishing + jumpSize, σ)}
      finishing last σ σ := by
    cases finalizer with
    | none =>
      refine Carries.nil.weaken (Set.Subset.refl _) ?_
      rintro _ ⟨⟨⟩, -⟩
    | some f =>
      have hskip : Carries leave (wants ∪ E) ∅ finishing
          (Code.branch .jump (.ahead (size (f ++ op .tryEnd)))) σ σ := by
        refine .jump (t := finishing + size last) ?_ (Or.inr (Or.inr (Or.inr (Or.inr rfl))))
        simp only [Reach.target, Reach.offset, last, Option.map_some, Option.getD_some, bypassed,
          size_append, size_branch]
        omega
      have hf :=
        ((hfinalizer f rfl W σ hmeets).append .tryEnd).piece leave (finishing + jumpSize) hW'
      refine (hskip.append hf).weaken (Set.Subset.refl _) ?_
      rintro _ ⟨-, rfl⟩
      exact Or.inr (Or.inl rfl)
  refine (((hbegin.append hmain).append_at ?_ hcaught).append_at ?_ hlast.ends).shut ?_
  · simp only [catching, body, size_append, size_cons, size_nil, Nat.add_zero, Nat.add_assoc]
    rfl
  · simp only [finishing, catching, body, size_append, size_cons, size_nil, Nat.add_zero,
      Nat.add_assoc]
    rfl
  · rintro _ (⟨hsome, rfl⟩ | hx | rfl | rfl)
    · refine Or.inl (Or.inr (Or.inl ?_))
      simp only [entry, if_pos hsome]
    · exact Or.inr (Or.inl hx)
    · exact Or.inl (Or.inr (Or.inr rfl))
    · exact Or.inr (Or.inr (Or.inr rfl))

end EcmaStack

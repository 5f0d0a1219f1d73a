import EcmaStack.Proofs.Emission.Classes

/-!
# Writing switches

The jump to each clause of a switch is reserved among the tests, before any clause
stands, and is patched when its clause is reached; the clause without a test takes
over the jump behind all tests. So the code grows with the tests of the clauses still
to come left open: after each clause one more jump is closed, and when the last one
stands the tests are those the switch is lowered to (`dispatch`). -/

namespace EcmaStack

open Code Writing

/-- One test of a switch, with a jump to its clause. -/
def testCode (test : Code) (r : Reach) : Code :=
  Code.pick 1 ++ test ++ Code.op .strictEqual ++
    Code.bypassed .jumpFalse (Code.op .pop ++ branch .jump r) ++ Code.op .pop

/-- The tests of a switch whose clauses do not stand yet. -/
def openTests : List (Option Code) → Code
  | [] => []
  | none :: rest => openTests rest
  | some test :: rest => testCode test .exit ++ openTests rest

/-- The tests of a switch, with the offset of each clause among the clauses. -/
def closedTests : List (Option Code × Nat) → Code
  | [] => []
  | (none, _) :: rest => closedTests rest
  | (some test, body) :: rest =>
    testCode test (.ahead (2 + (closedTests rest).size + jumpSize + body)) ++ closedTests rest

/-- Where the jumps to the clauses stand when the tests start at an offset; a slot is
given for the clause without a test. -/
def entrySlots (stop : Int) : Nat → List (Option Code) → List Int
  | _, [] => []
  | start, none :: rest => stop :: entrySlots stop start rest
  | start, some test :: rest =>
    ((start + (test.size + 22) : Nat) : Int) :: entrySlots stop
      (start + (testCode test .exit).size) rest

/-- The number of the last clause without a test. -/
def fallbackOf : Int → List (Option Code) → Int
  | _, [] => -1
  | number, none :: rest =>
    if fallbackOf (number + 1) rest ≥ 0 then fallbackOf (number + 1) rest else number
  | number, some _ :: rest => fallbackOf (number + 1) rest

section

variable {tests : List (Option Code)} {bodies : List Code} {offsets : List Nat}

/-- A test takes thirty-two bytes around the value it compares with. -/
theorem size_testCode (test : Code) (r : Reach) : (testCode test r).size = test.size + 32 := by
  simp only [testCode, Code.bypassed, size_append]
  change 6 + test.size + 2 + (10 + (2 + 10)) + 2 = test.size + 32
  omega

/-- Patching the tests changes no size, so the clauses stand where they stood. -/
theorem size_closedTests (h : offsets.length = tests.length) :
    (closedTests (tests.zip offsets)).size = (openTests tests).size := by
  induction tests generalizing offsets with
  | nil => rfl
  | cons t rest ih =>
    obtain _ | ⟨offset, offsets⟩ := offsets
    · cases h
    · have hrest := ih (Nat.succ_inj.mp h)
      cases t with
      | none => exact hrest
      | some test =>
        rw [List.zip_cons_cons, closedTests, openTests, size_append, size_append, size_testCode,
          size_testCode, hrest]

/-- The tests with the jump behind them are the code that dispatches to the clauses. -/
theorem dispatch_eq (fallback : Nat) (clauses : List (Option Code × Nat)) :
    dispatch fallback clauses = closedTests clauses ++ branch .jump (.ahead fallback) := by
  induction clauses with
  | nil => rfl
  | cons c rest ih =>
    obtain ⟨_ | test, body⟩ := c
    · exact ih
    · have hsize : size (Code.op .pop ++ dispatch fallback rest) + body =
          2 + (closedTests rest).size + jumpSize + body := by
        rw [ih, size_append, size_append, Nat.add_assoc 2]
        rfl
      rw [dispatch, hsize, ih, closedTests, testCode]
      simp only [List.append_assoc]

end

variable {E : WriteSite} {s : CodeSite}

/-- One test, with the slot of the jump to its clause. -/
private theorem writeTest_run {m : Writing Unit} {c : Code} {f : Option WriteReport}
    (hm : Writes m c f) {k : Int → Writing SwitchTable} {w : Writer} (hw : w.out.Inside) :
    (do
      pick 1
      m
      op .strictEqual
      let next ← jump .jumpFalse
      op .pop
      let entry ← jump .jump
      patch next
      op .pop
      k entry).run w =
        (k ((w.out.length + (c.size + 22) : Nat) : Int)).run (w.grow (testCode c .exit) f) := by
  -- The miss of the test closes at once; the hit stays open until its body is written.
  let asked : Code := Code.pick 1 ++ (c ++ Code.op .strictEqual)
  let found : Code := Code.op .pop ++ branch .jump .exit
  have hask := (pick_writes 1).before (hm.ending (op_writes .strictEqual))
  have hpop := op_writes .pop
  have hpatch : (patch ((w.out.length + asked.size + 2 : Nat) : Int)).run
      (w.grow (asked ++ (branch .jumpFalse .exit ++ found)) f) =
        .ok ((), w.grow (asked ++ (branch .jumpFalse (.ahead found.size) ++ found)) f) :=
    patch_run hw _ asked .jumpFalse [] [] found
  have hslot : (w.grow (asked ++ branch .jumpFalse .exit ++ Code.op .pop) f).out.length + 2 =
      w.out.length + (c.size + 22) := by
    rw [Writer.length_grow, size_append, size_append, size_append, size_append]
    change w.out.length + (6 + (c.size + 2) + 10 + 2) + 2 = _
    omega
  have hrun : (do
      pick 1
      m
      op .strictEqual
      let next ← jump .jumpFalse
      op .pop
      let entry ← jump .jump
      patch next
      op .pop
      k entry) = (do
      (do
        pick 1
        m
        op .strictEqual)
      let next ← jump .jumpFalse
      op .pop
      let entry ← jump .jump
      patch next
      op .pop
      k entry) := by
    simp only [bind_assoc]
  rw [hrun, bind_run (hask.run w hw), bind_run (jump_run .jumpFalse _), Writer.grow_grow,
    Writer.length_grow, Option.or_none, bind_run (hpop.run _ (hw.grow _)), Writer.grow_grow,
    Option.or_none, bind_run (jump_run .jump _), Writer.grow_grow, Option.or_none]
  change (patch _ >>= _).run (w.grow (asked ++ branch .jumpFalse .exit ++ Code.op .pop ++
    branch .jump .exit) f) = _
  have hopen : asked ++ branch .jumpFalse .exit ++ Code.op .pop ++ branch .jump .exit =
      asked ++ (branch .jumpFalse .exit ++ found) := by
    simp only [found, List.append_assoc]
  have hclosed : asked ++ (branch .jumpFalse (.ahead found.size) ++ found) ++ Code.op .pop =
      testCode c .exit := by
    simp only [asked, found, testCode, Code.bypassed, List.append_assoc]
  rw [hopen, bind_run hpatch, bind_run (hpop.run _ (hw.grow _)), Writer.grow_grow, Option.or_none,
    hclosed]
  exact congrArg (fun n : Nat => (k (n : Int)).run _) hslot

/-- The tests of a switch with what is written for them: the clauses without a test
are those of the tree, and the answer tells where the jumps to the others stand. -/
structure TestsWritten (E : WriteSite) (cases : List CaseClause) (tests : List (Option Code))
    (f : Option WriteReport) : Prop where
  defaults : tests.map Option.isNone = cases.map (·.test.isNone)
  closed : ∀ t, some t ∈ tests → t.Closed
  run : ∀ number w, w.out.Inside → (CaseClause.writeTests E number cases).run w =
    .ok (⟨entrySlots 0 w.out.length tests, fallbackOf number tests⟩, w.grow (openTests tests) f)

/-- All tests of a switch are written, by induction on the clauses. A clause without a
test writes nothing here. -/
theorem CaseClause.writeTests_written (hs : E.Agrees s) {cases : List CaseClause}
    (h : ∀ c ∈ cases, ∀ e ∈ c.test, e.Written) :
    ∃ tests f, LowersTo (CaseClause.lowerTests s cases) tests f ∧ TestsWritten E cases tests f := by
  induction cases with
  | nil =>
    refine ⟨[], none, .made [], rfl, nofun, fun number w _ => ?_⟩
    rw [openTests, Writer.grow_nil]
    rfl
  | cons c rest ih =>
    obtain ⟨tests, f, hl, htests⟩ := ih fun q hq => h q (List.mem_cons_of_mem _ hq)
    obtain ⟨span, test, consequent⟩ := c
    cases test with
    -- The default has no test to write: only its number is kept.
    | none =>
      refine ⟨none :: tests, f, hl.map _, congrArg (true :: ·) htests.defaults, ?_,
        fun number w hw => ?_⟩
      · intro t ht
        exact htests.closed t ((List.mem_cons.mp ht).resolve_left nofun)
      · rw [CaseClause.writeTests_default, bind_run (htests.run (number + 1) w hw)]
        rfl
    | some e =>
      obtain ⟨c, g, hm, hl'⟩ := (h _ List.mem_cons_self e rfl).value hs
      refine ⟨some c :: tests, g.or f, (hl'.map some).bind (hl.map _),
        congrArg (false :: ·) htests.defaults, ?_, fun number w hw => ?_⟩
      · intro t ht
        rcases List.mem_cons.mp ht with ht | ht
        · exact Option.some.inj ht ▸ hm.closed
        · exact htests.closed t ht
      · have hrest := htests.run (number + 1) (w.grow (testCode c .exit) g) (hw.grow _)
        rw [CaseClause.writeTests_test, writeTest_run hm hw, bind_run hrest, Writer.grow_grow,
          Writer.length_grow]
        rfl

/-! ## The clauses -/

/-- Where the machine goes behind all tests: to the clause without a test if there is
one. -/
def fallbackReach (last : Reach) : List (Option Code × Nat) → Reach
  | [] => last
  | (none, body) :: _ => .ahead body
  | (some _, _) :: rest => fallbackReach last rest

section

variable {tests : List (Option Code)} {bodies : List Code} {stop : Int} {last : Reach}

/-- Where every clause has a test the machine goes on behind them all. -/
theorem fallbackReach_of_tests (h : none ∉ tests) (offsets : List Nat) :
    fallbackReach last (tests.zip offsets) = last := by
  induction tests generalizing offsets with
  | nil => rfl
  | cons t rest ih =>
    obtain _ | ⟨offset, offsets⟩ := offsets
    · rfl
    · cases t with
      | none => exact absurd List.mem_cons_self h
      | some test => exact ih (fun hmem => h (List.mem_cons_of_mem _ hmem)) offsets

/-- Only without such a clause does it matter what else the machine goes to. -/
theorem fallbackReach_of_mem (h : none ∈ tests) {offsets : List Nat}
    (hlength : offsets.length = tests.length) {last' : Reach} :
    fallbackReach last (tests.zip offsets) = fallbackReach last' (tests.zip offsets) := by
  induction tests generalizing offsets with
  | nil => cases h
  | cons t rest ih =>
    obtain _ | ⟨offset, offsets⟩ := offsets
    · cases hlength
    · cases t with
      | none => rfl
      | some test => exact ih ((List.mem_cons.mp h).resolve_left nofun) (Nat.succ.inj hlength)

theorem not_mem_none (h : tests.countP Option.isNone = 0) : none ∉ tests :=
  fun hmem => List.countP_eq_zero.mp h none hmem rfl

/-- Without a clause that has no test there is no fallback, and every entry is
known. -/
theorem entrySlots_of_tests (stop : Int) (h : none ∉ tests) (number : Int) (start : Nat) :
    fallbackOf number tests = -1 ∧ entrySlots 0 start tests = entrySlots stop start tests := by
  induction tests generalizing number start with
  | nil => exact ⟨rfl, rfl⟩
  | cons t rest ih =>
    cases t with
    | none => exact absurd List.mem_cons_self h
    | some test =>
      obtain ⟨hnone, hsame⟩ := ih (fun hmem => h (List.mem_cons_of_mem _ hmem)) (number + 1)
        (start + (testCode test .exit).size)
      exact ⟨hnone, congrArg (List.cons _) hsame⟩

/-- The jump behind all tests takes the place of the entry of the one clause that has
no test. -/
theorem set_entrySlots (stop : Int) (hone : tests.countP Option.isNone ≤ 1) (h : none ∈ tests)
    (number : Int) (start : Nat) : ∃ i : Nat, fallbackOf number tests = number + i ∧
      (entrySlots 0 start tests).set i stop = entrySlots stop start tests := by
  induction tests generalizing number start with
  | nil => cases h
  | cons t rest ih =>
    cases t with
    | none =>
      have hrest : rest.countP Option.isNone = 0 := by
        rw [List.countP_cons_of_pos rfl] at hone
        omega
      obtain ⟨hlast, hsame⟩ := entrySlots_of_tests stop (not_mem_none hrest) (number + 1) start
      refine ⟨0, ?_, congrArg (stop :: ·) hsame⟩
      rw [fallbackOf, hlast]
      exact (Int.add_zero number).symm
    | some test =>
      rw [List.countP_cons_of_neg Bool.false_ne_true] at hone
      obtain ⟨i, hi, hset⟩ := ih hone ((List.mem_cons.mp h).resolve_left nofun) (number + 1)
        (start + (testCode test .exit).size)
      refine ⟨i + 1, ?_, congrArg (List.cons _) hset⟩
      rw [fallbackOf, hi]
      omega

/-- With one clause that has no test, or none, the entries of the table lead to all
clauses. -/
theorem entriesWith_eq (stop : Int) (hone : tests.countP Option.isNone ≤ 1) (start : Nat) :
    (SwitchTable.mk (entrySlots 0 start tests) (fallbackOf 0 tests)).entriesWith stop =
      entrySlots stop start tests ∧ (fallbackOf 0 tests < 0 ↔ none ∉ tests) := by
  unfold SwitchTable.entriesWith
  by_cases hnone : none ∈ tests
  · obtain ⟨i, hi, hset⟩ := set_entrySlots stop hone hnone 0 start
    rw [Int.zero_add] at hi
    refine ⟨?_, iff_of_false (by omega) (not_not.mpr hnone)⟩
    change (if fallbackOf 0 tests ≥ 0 then (entrySlots 0 start tests).set (fallbackOf 0
      tests).toNat stop
      else entrySlots 0 start tests) = _
    rw [hi, if_pos (Int.natCast_nonneg i), Int.toNat_natCast, hset]
  · obtain ⟨hlast, hsame⟩ := entrySlots_of_tests stop hnone 0 start
    refine ⟨?_, iff_of_true (by omega) hnone⟩
    change (if fallbackOf 0 tests ≥ 0 then _ else entrySlots 0 start tests) = _
    rw [hlast, if_neg (by decide), hsame]

end

/-- The entry of a clause leads to where its body will stand, behind the tests that
follow, the jump and the bodies before it. -/
private theorem patchTest_run {b : CodeBuffer} (hb : b.Inside) (fault : Option WriteReport)
    (test more : Code) :
    (patch ((b.length + (test.size + 22) : Nat) : Int)).run ⟨b.grow (testCode test .exit ++ more),
      fault⟩ =
      .ok ((), ⟨b.grow (testCode test (.ahead (2 + more.size)) ++ more), fault⟩) := by
  let asked : Code := Code.pick 1 ++ test ++ Code.op .strictEqual ++
    branch .jumpFalse (.ahead (Code.op .pop ++ branch .jump .exit).size) ++ Code.op .pop
  have hcode (r : Reach) : testCode test r ++ more =
      asked ++ (branch .jump r ++ (Code.op .pop ++ more)) := by
    simp only [testCode, Code.bypassed, asked, List.append_assoc]
    rfl
  have hsize : asked.size = test.size + 20 := by
    simp only [asked, size_append]
    change 6 + test.size + 2 + 10 + 2 = _
    omega
  have hpatch := patch_run hb fault asked .jump [] [] (Code.op .pop ++ more)
  rw [hcode, hcode]
  have hslot : b.length + (test.size + 22) =
      b.length + asked.size + 2 + Instr.widths (α := Reach) [] := by
    rw [hsize]
    rfl
  rw [hslot]
  refine hpatch.trans ?_
  rw [size_append]
  rfl

/-- The clauses of a switch with what is written for them. Before the tests of the
clauses `b` has been written, and `done` are the bodies that stand already. -/
structure BodiesWritten (E : WriteSite) (cases : List CaseClause) (bodies : List Code)
    (f : Option WriteReport) : Prop where
  length : bodies.length = cases.length
  closed : Code.Closed bodies.flatten
  run : ∀ (tests : List (Option Code)) (last : Reach) (stop : Int) (done : Code) (b : CodeBuffer)
    (fault : Option WriteReport), b.Inside → tests.length = cases.length →
    tests.countP Option.isNone ≤ 1 →
    (none ∈ tests → last = .exit ∧ stop = ((b.length + (openTests tests).size + 2 : Nat) : Int)) →
    (CaseClause.writeBodies E (entrySlots stop b.length tests) cases).run
        ⟨b.grow (openTests tests ++ (branch .jump last ++ done)), fault⟩ =
      .ok ((), ⟨b.grow (closedTests (tests.zip (offsetsFrom done.size bodies)) ++
        (branch .jump (fallbackReach last (tests.zip (offsetsFrom done.size bodies))) ++
          (done ++ bodies.flatten))), fault.or f⟩)

/-- All bodies of a switch are written, by induction on the clauses. Each begins by
patching the slot of its own test. -/
theorem CaseClause.writeBodies_written {cases : List CaseClause}
    (h : ∀ c ∈ cases, Emits (Stmt.lowerList s c.consequent) (Stmt.writeList E c.consequent)) :
    ∃ bodies f, LowersTo (CaseClause.lowerBodies s cases) bodies f ∧
    BodiesWritten E cases bodies f := by
  induction cases with
  | nil =>
    refine ⟨[], none, .made [], rfl, Code.closed_nil, ?_⟩
    intro tests last stop done b fault _ hlength _ _
    cases List.eq_nil_of_length_eq_zero hlength
    rw [Option.or_none, List.flatten_nil, List.append_nil]
    rfl
  | cons c rest ih =>
    obtain ⟨bodies, f, hl, hbodies⟩ := ih fun q hq => h q (List.mem_cons_of_mem _ hq)
    obtain ⟨body, g, hm, hl'⟩ := h c List.mem_cons_self
    obtain ⟨span, test, consequent⟩ := c
    refine ⟨body :: bodies, g.or f, hl'.bind (hl.map _), congrArg Nat.succ hbodies.length, ?_, ?_⟩
    · rw [List.flatten_cons]
      exact hm.closed.append hbodies.closed
    intro tests last stop done b fault hb hlength hone hstop
    obtain _ | ⟨t, tests⟩ := tests
    · cases hlength
    have hlength' : tests.length = rest.length := Nat.succ.inj hlength
    have hsize : (done ++ body).size = done.size + body.size := size_append done body
    rw [CaseClause.writeBodies_cons, offsetsFrom, List.zip_cons_cons,
      List.flatten_cons, ← hsize, ← Option.or_assoc]
    cases t with
    -- The default has no test: its body is reached from the jump behind the last of them.
    | none =>
      rw [List.countP_cons_of_pos rfl] at hone
      obtain ⟨rfl, rfl⟩ := hstop List.mem_cons_self
      have hnone : none ∉ tests := not_mem_none (by omega)
      have hpatch := patch_run hb fault (openTests tests) .jump [] [] done
      have hbody := hm.run ⟨b.grow (openTests tests ++ (branch .jump (.ahead done.size) ++ done)),
        fault⟩ (hb.grow _)
      rw [Writer.grow, CodeBuffer.grow_grow, List.append_assoc, List.append_assoc] at hbody
      have hrest :=
        hbodies.run tests (.ahead done.size) ((b.length + (openTests tests).size + 2 : Nat) : Int)
          (done ++ body) b (fault.or g) hb hlength' (by omega) fun hmem => absurd hmem hnone
      rw [fallbackReach_of_tests hnone, List.append_assoc] at hrest
      exact (bind_run hpatch).trans ((bind_run hbody).trans hrest)
    -- Writing the body patches the jump of its test, which then closes over what lies between.
    | some test =>
      rw [List.countP_cons_of_neg Bool.false_ne_true] at hone
      let more := openTests tests ++ (branch .jump last ++ done)
      let first := testCode test (.ahead (2 + more.size))
      have hfirst : (b.grow first).length = b.length + (testCode test .exit).size := by
        rw [CodeBuffer.length_grow, size_testCode, size_testCode]
      have hpatch := patchTest_run hb fault test more
      have hbody := hm.run ⟨b.grow (first ++ more), fault⟩ (hb.grow _)
      have hrest :=
        hbodies.run tests last stop (done ++ body) (b.grow first) (fault.or g) (hb.grow first)
          hlength' hone fun hmem => by
            obtain ⟨hlast, hstop⟩ := hstop (List.mem_cons_of_mem _ hmem)
            refine ⟨hlast, hstop.trans ?_⟩
            rw [hfirst, openTests, size_append]
            omega
      -- Closing the tests behind this one changes no size, so the distance is that of the finished
      -- code.
      have hclosed : more.size =
          (closedTests (tests.zip (offsetsFrom (done ++ body).size bodies))).size +
          jumpSize + done.size := by
        rw [size_closedTests ((length_offsetsFrom _ _).trans (hbodies.length.trans hlength'.symm)),
          size_append, size_append, Nat.add_assoc]
        rfl
      rw [Writer.grow, CodeBuffer.grow_grow] at hbody
      rw [CodeBuffer.grow_grow, CodeBuffer.grow_grow, hfirst] at hrest
      simp only [List.append_assoc, more] at hbody hrest
      rw [openTests, List.append_assoc, closedTests, fallbackReach, List.append_assoc]
      have hreach : 2 + more.size =
          2 + (closedTests (tests.zip (offsetsFrom (done ++ body).size bodies))).size +
          jumpSize + done.size := by
        rw [hclosed]
        omega
      rw [← hreach]
      exact (bind_run hpatch).trans ((bind_run hbody).trans hrest)

/-! ## Whole switches -/

/-- The tests of a switch and its bodies, with the jump between them. -/
def clausesCode (tests : List (Option Code)) (bodies : List Code) : Code :=
  closedTests (tests.zip (offsetsFrom 0 bodies)) ++
    (branch .jump (fallbackReach (.ahead (size bodies.flatten))
      (tests.zip (offsetsFrom 0 bodies))) ++
      bodies.flatten)

section

variable {tests : List (Option Code)} {bodies : List Code} {last : Reach}

/-- Where the machine goes if no test is met, told without going through the list. -/
theorem fallbackReach_eq (last : Reach) (clauses : List (Option Code × Nat)) :
    fallbackReach last clauses = match clauses.filter (·.1.isNone) with
      | [] => last
      | (_, body) :: _ => .ahead body := by
  induction clauses with
  | nil => rfl
  | cons c rest ih =>
    obtain ⟨_ | test, body⟩ := c
    · rfl
    · exact ih

/-- The code of a switch that has one clause without a test, or none. -/
theorem switchCode_ok (discriminant : Code) (hlength : bodies.length = tests.length)
    (hone : tests.countP Option.isNone ≤ 1) :
    switchCode discriminant tests bodies =
      .ok (discriminant ++ (clausesCode tests bodies ++ Code.op .pop)) := by
  let clauses := tests.zip (offsetsFrom 0 bodies)
  have hfilter : (clauses.filter (·.1.isNone)).length ≤ 1 := by
    have hmap : clauses.map Prod.fst = tests :=
      List.map_fst_zip (Nat.le_of_eq ((length_offsetsFrom 0 bodies).trans hlength).symm)
    rw [← hmap, List.countP_map, List.countP_eq_length_filter] at hone
    exact hone
  have hreach := fallbackReach_eq (.ahead (size bodies.flatten)) clauses
  unfold switchCode
  rw [clausesCode, hreach]
  dsimp only
  generalize clauses.filter (·.1.isNone) = found at hfilter
  cases found with
  | nil => simp only [dispatch_eq, List.append_assoc]
  | cons c more =>
    cases more with
    | nil => simp only [dispatch_eq, List.append_assoc]
    | cons d more => exact absurd hfilter (by simp)

/-- Once its clause is known, no slot of a test is open. -/
theorem closed_testCode {test : Code} {n : Nat} (h : test.Closed) :
    (testCode test (.ahead n)).Closed := by
  have hpush : Code.Closed (Code.pick 1) := rfl
  have hcompare : Code.Closed (Code.op .strictEqual) := rfl
  have hpop : Code.Closed (Code.op .pop) := rfl
  have hfound : Code.Closed (Code.op .pop ++ branch .jump (.ahead n)) := rfl
  exact (((hpush.append h).append hcompare).append (hfound.bypassed .jumpFalse)).append hpop

/-- So it is for all of them. -/
theorem closed_closedTests (h : ∀ t, some t ∈ tests → t.Closed) (offsets : List Nat) :
    (closedTests (tests.zip offsets)).Closed := by
  induction tests generalizing offsets with
  | nil => exact Code.closed_nil
  | cons t rest ih =>
    obtain _ | ⟨offset, offsets⟩ := offsets
    · exact Code.closed_nil
    · have hrest := ih (fun t ht => h t (List.mem_cons_of_mem _ ht)) offsets
      cases t with
      | none => exact hrest
      | some test => exact (closed_testCode (h test List.mem_cons_self)).append hrest

end

/-- A switch, once what it compares has been written. Without a clause for the rest
the jump behind all tests leads to the end. -/
theorem clauses_writes {cases : List CaseClause} {tests : List (Option Code)} {bodies : List Code}
    {f g : Option WriteReport} (htests : TestsWritten E cases tests f)
    (hbodies : BodiesWritten E cases bodies g) (hone : tests.countP Option.isNone ≤ 1) :
    Writes (do
      let table ← CaseClause.writeTests E 0 cases
      let stop ← jump .jump
      CaseClause.writeBodies E (table.entriesWith stop) cases
      when (table.fallback < 0) (patch stop))
      (clausesCode tests bodies) (f.or g) where
  closed := by
    refine (closed_closedTests htests.closed _).append
      (.append (closed_branch .jump ?_) hbodies.closed)
    rw [fallbackReach_eq]
    split <;> exact Reach.noConfusion
  run w hw := by
    let clauses := tests.zip (offsetsFrom 0 bodies)
    let stop : Int := ((w.out.length + (openTests tests).size + 2 : Nat) : Int)
    have hlength : tests.length = cases.length := by
      simpa only [List.length_map] using congrArg List.length htests.defaults
    have hoffsets : (offsetsFrom 0 bodies).length = tests.length :=
      (length_offsetsFrom 0 bodies).trans (hbodies.length.trans hlength.symm)
    obtain ⟨hentries, hfallback⟩ := entriesWith_eq stop hone w.out.length
    have hrun := hbodies.run tests .exit stop [] w.out (w.fault.or f) hw hlength hone fun _ =>
      ⟨rfl, rfl⟩
    rw [List.append_nil] at hrun
    rw [bind_run (htests.run 0 w hw), bind_run (jump_run .jump _), Writer.grow_grow,
      Writer.length_grow, Option.or_none]
    change (CaseClause.writeBodies E (SwitchTable.entriesWith _ stop) cases >>= fun _ =>
      when (fallbackOf 0 tests < 0) (patch stop)).run _ = _
    rw [hentries]
    refine (bind_run hrun).trans ?_
    rw [List.nil_append, Writer.grow, ← Option.or_assoc, clausesCode]
    -- Without a default the jump behind the tests is patched last, to the end; with one its body
    -- has patched it.
    by_cases hnone : none ∈ tests
    · rw [decide_eq_false (mt hfallback.mp (not_not.mpr hnone)),
        fallbackReach_of_mem hnone hoffsets]
      rfl
    · have hpatch :=
        patch_run hw (w.fault.or f |>.or g) (closedTests clauses) .jump [] [] (List.flatten bodies)
      have hstop : stop = ((w.out.length + (closedTests clauses).size + 2 : Nat) : Int) := by
        rw [size_closedTests hoffsets]
      rw [decide_eq_true (hfallback.mpr hnone), fallbackReach_of_tests hnone,
        fallbackReach_of_tests hnone, hstop]
      exact hpatch

end EcmaStack

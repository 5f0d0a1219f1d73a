import EcmaStack.Proofs.Control.Fragments
import Mathlib.Data.List.Forall2

/-!
# The course of a switch

A switch first runs through its tests, which end in a jump to the body of the clause that was
selected, and then through the bodies from there on.
-/

namespace EcmaStack

/-- The test of a clause with its code. -/
structure Tested where
  expr : Expr
  code : Code
  present : code ≠ []

namespace Skeleton

open Segments

/-- The tests of a switch. Each clause comes with the offset of its body among the bodies. -/
def dispatch (fallback : Nat) : List (Option Tested × Nat) → Skeleton
  | [] => ofCode (Code.branch .jump (.ahead fallback))
  | (none, _) :: rest => dispatch fallback rest
  | (some t, body) :: rest =>
    let others := ofCode (Code.op .pop) ++ dispatch fallback rest
    let hit := ofCode (Code.op .pop) ++ ofCode (Code.branch .jump (.ahead (others.size + body)))
    ofCode (Code.pick 1) ++ evaluation t.expr t.code t.present ++ ofCode (Code.op .strictEqual) ++
      (ofCode (Code.branch .jumpFalse (.ahead hit.size)) ++ hit) ++ others

/-- A switch whose tests lead to the bodies. -/
def selection (discriminant : Skeleton) (tests : List (Option Tested)) (bodies : List Skeleton) :
    Skeleton :=
  let fallback := size (bodies.take (tests.findIdx Option.isNone)).flatten
  discriminant ++ dispatch fallback (tests.zip (offsetsFrom 0 (bodies.map code))) ++
    bodies.flatten ++
    ofCode (Code.op .pop)

/-- The code of bodies one behind the other. -/
theorem code_flatten (bodies : List Skeleton) :
    code bodies.flatten = (bodies.map code).flatten := by
  induction bodies with
  | nil => rfl
  | cons f rest ih => rw [List.flatten_cons, code_append, ih, List.map_cons, List.flatten_cons]

/-- The code of the dispatch is that of the emitter. -/
theorem code_dispatch (fallback : Nat) (clauses : List (Option Tested × Nat)) :
    (dispatch fallback clauses).code =
      EcmaStack.dispatch fallback (clauses.map fun c => (c.1.map Tested.code, c.2)) := by
  induction clauses with
  | nil => rfl
  | cons clause rest ih =>
    obtain ⟨test, body⟩ := clause
    cases test with
    | none => exact ih
    | some t =>
      simp only [dispatch, EcmaStack.dispatch, List.map_cons, Option.map_some, Code.bypassed,
        code_append, code_ofCode, size, ih, evaluation, code_cons, code_nil, Segment.code,
        List.append_nil]

end Skeleton

/-! ## Where bodies stand -/

section

variable {α : Type}

/-- A body starts behind the bodies before it. -/
theorem getElem?_offsetsFrom {start j : Nat} {bodies : List Code} (hj : j < bodies.length) :
    (offsetsFrom start bodies)[j]? = some (start + Code.size (bodies.take j).flatten) := by
  induction bodies generalizing start j with
  | nil => exact absurd hj (Nat.not_lt_zero j)
  | cons body rest ih =>
    cases j with
    | zero => rfl
    | succ j =>
      rw [offsetsFrom, List.getElem?_cons_succ, ih (Nat.lt_of_succ_lt_succ hj), List.take_succ_cons,
        List.flatten_cons, Code.size_append, Nat.add_assoc]

/-- The clause without a test, which is the only one, stands where the first one does. -/
private theorem defaults_start {start : Nat} {tests : List (Option α)} {bodies : List Code}
    (hlength : tests.length = bodies.length) :
    let first := Code.size (bodies.take (tests.findIdx Option.isNone)).flatten
    ((tests.zip (offsetsFrom start bodies)).filter (·.1.isNone)).head?.elim
      (Code.size bodies.flatten = first)
      fun clause => clause.2 = start + first := by
  induction tests generalizing start bodies with
  | nil =>
    cases bodies with
    | nil => rfl
    | cons body rest => exact absurd hlength.symm (Nat.succ_ne_zero _)
  | cons test others ih =>
    cases bodies with
    | nil => exact absurd hlength (Nat.succ_ne_zero _)
    | cons body rest =>
      cases test with
      | none => exact (Nat.add_zero start).symm
      | some t =>
        have hrest := @ih (start + body.size) rest (Nat.succ.inj hlength)
        simp only [offsetsFrom, List.zip_cons_cons, List.findIdx_cons, List.filter_cons,
          Option.isNone_some, cond_false, Bool.false_eq_true, if_false, List.take_succ_cons,
          List.flatten_cons, Code.size_append] at hrest ⊢
        generalize ((others.zip _).filter _).head? = clause at hrest ⊢
        cases clause with
        | none => exact congrArg (body.size + ·) hrest
        | some clause => exact hrest.trans (Nat.add_assoc _ _ _)

/-- Whatever clauses a switch has, its code goes to the first one without a test where none is
selected. -/
theorem switchCode_eq {discriminant c : Code} {tests : List (Option Code)} {bodies : List Code}
    (hlength : tests.length = bodies.length) (h : switchCode discriminant tests bodies = .ok c) :
    c = discriminant ++ dispatch (Code.size (bodies.take (tests.findIdx Option.isNone)).flatten)
      (tests.zip (offsetsFrom 0 bodies)) ++ bodies.flatten ++ Code.op .pop := by
  have hstart := @defaults_start _ 0 tests bodies hlength
  rw [switchCode] at h
  split at h
  · next hnone =>
    rw [hnone] at hstart
    rw [← Except.ok.inj h, ← show Code.size bodies.flatten = _ from hstart]
  · next x body hone =>
    rw [hone] at hstart
    rw [← Except.ok.inj h, show body = _ from hstart, Nat.zero_add]
  · cases h

end

open Segments in
/-- The code of a switch, when it has one, is that of the selection. -/
theorem Skeleton.code_selection {discriminant : Skeleton} {tests : List (Option Tested)}
    {bodies : List Skeleton} {c : Code} (hlength : tests.length = bodies.length)
    (h : switchCode discriminant.code (tests.map (·.map Tested.code)) (bodies.map code) = .ok c) :
    (selection discriminant tests bodies).code = c := by
  have hdefault : (tests.map (·.map Tested.code)).findIdx Option.isNone =
      tests.findIdx Option.isNone := by
    rw [List.findIdx_map]
    exact congrArg (List.findIdx · tests) (funext fun t => Option.isNone_map)
  rw [switchCode_eq (by rw [List.length_map, List.length_map, hlength]) h,
    hdefault, ← List.map_take, ← code_flatten, ← code_flatten, List.zip_map_left]
  simp only [selection, code_append, code_ofCode, code_dispatch, size]
  rfl

/-! ## Selection -/

section

variable {V : Type} {o : Oracle V}

/-- The tests lead to the clause that is selected, and else to the fallback. -/
theorem Config.Goes.dispatch {sk : Skeleton} {m : Config V} {v : V} {rest : List (Slot V)}
    {fallback : Nat} {clauses : List (Option Tested × Nat)} {cases : List CaseClause}
    (htests : clauses.map (·.1.map Tested.expr) = cases.map CaseClause.test)
    (hholds : sk.Holds (Skeleton.dispatch fallback clauses) m.pc)
    (hstack : m.stack = .value v :: rest) :
    let selected := selectClause o v cases m.trace
    ∃ k, m.Goes o sk k (.running { m with
      pc := m.pc + (Skeleton.dispatch fallback clauses).size +
        selected.2.elim fallback ((clauses.map Prod.snd)[·]?.getD 0)
      trace := selected.1 }) := by
  induction clauses generalizing cases m with
  | nil =>
    cases cases with
    | nil => exact ⟨1, .jump hholds rfl⟩
    | cons c others => exact nomatch htests
  | cons clause clauses ih =>
    cases cases with
    | nil => exact nomatch htests
    | cons c others =>
      obtain ⟨test, body⟩ := clause
      have htest : test.map Tested.expr = c.test := (List.cons.inj htests).1
      have hothers := (List.cons.inj htests).2
      -- Clauses are counted from the first one.
      have hshift : ∀ x : Option Nat, (x.map (· + 1)).elim fallback
          ((body :: clauses.map Prod.snd)[·]?.getD 0) =
          x.elim fallback ((clauses.map Prod.snd)[·]?.getD 0) := by
        intro x
        cases x <;> rfl
      rw [selectClause, ← htest, List.map_cons]
      cases test with
      | none =>
        dsimp only [Option.map_none, Prod.map]
        rw [hshift]
        exact ih hothers hholds hstack
      | some t =>
        obtain ⟨pc, stack, scopes, frames, trace⟩ := m
        cases hstack
        have hpick := hholds.left.left.left.left
        have hvalue := hholds.left.left.left.right
        have hequal := hholds.left.left.right
        have hhit := hholds.left.right.right
        have hmiss := hholds.right
        have hjump := hholds.left.right.left
        have hlook : Config.Goes o sk ⟨pc, .value v :: rest, scopes, frames, trace⟩ 1
            (.running ⟨pc + (Segments.ofCode (Code.pick 1) : Skeleton).size, .value v :: .value v ::
              rest, scopes, frames, trace⟩) :=
          .control hpick rfl
        have hask := hlook.trans (.evaluation hvalue)
        have hequals : Config.Goes o sk
            ⟨pc + (Segments.ofCode (Code.pick 1) : Skeleton).size +
              (Skeleton.evaluation t.expr t.code t.present).size,
              .value (o.answer (trace ++ [Site.value t.expr])) :: .value v :: .value v :: rest,
              scopes, frames,
              trace ++ [Site.value t.expr]⟩ 1
            (.running ⟨pc + (Segments.ofCode (Code.pick 1) : Skeleton).size +
              (Skeleton.evaluation t.expr t.code t.present).size + 2,
              .boolean (o.same v (o.answer (trace ++ [Site.value t.expr]))) :: .value v :: rest,
              scopes, frames,
              trace ++ [Site.value t.expr]⟩) :=
          .control (hequal.at_eq (by rw [Segments.size_append, ← Nat.add_assoc])) rfl
        have hdecide := (hask.trans hequals).trans
          (.decide (b := o.same v (o.answer (trace ++ [Site.value t.expr]))) (hjump.at_eq ?_)
            (hhit.left.at_eq ?_)
            hmiss.left ?_ rfl rfl)
        · dsimp only [Option.map_some] at hdecide ⊢
          by_cases hsame : o.same v (o.answer (trace ++ [Site.value t.expr])) = true
          -- The clause is hit: the jump behind the test leads to its body.
          · rw [if_pos hsame] at hdecide ⊢
            refine ⟨_, hdecide.trans (.jump (hhit.right.at_eq ?_) ?_)⟩
            · simp only [Segments.size_append, Segments.size_op, Segments.size_branch]
              omega
            · simp only [Skeleton.dispatch, Segments.size_append, Segments.size_op,
                Segments.size_branch, Option.elim_some, List.getElem?_cons_zero, Option.getD_some]
              omega
          -- It is missed, and the tests behind it are tried with the same value on the stack.
          · rw [if_neg hsame] at hdecide ⊢
            obtain ⟨k, hk⟩ :=
              ih (m := ⟨_, .value v :: rest, scopes, frames, trace ++ [Site.value t.expr]⟩) hothers
                hmiss.right rfl
            dsimp only [Prod.map]
            rw [hshift]
            refine ⟨_, (hdecide.trans hk).stop_eq ?_⟩
            simp only [Skeleton.dispatch, Segments.size_append, Segments.size_op,
              Segments.size_branch]
            omega
        all_goals
          simp only [Segments.size_append, Segments.size_op, Segments.size_branch]
          omega

/-- What is selected is one of the clauses. -/
theorem selectClause_lt {v : V} {cases : List CaseClause} {trace : List Site} {j : Nat}
    (h : (selectClause o v cases trace).2 = some j) : j < cases.length := by
  induction cases generalizing trace j with
  | nil => exact nomatch h
  | cons c rest ih =>
    have hlater : ∀ trace, (selectClause o v rest trace).2.map (· + 1) = some j →
        j < rest.length + 1 := by
      intro trace hj
      obtain ⟨i, hi, rfl⟩ := Option.map_eq_some_iff.mp hj
      exact Nat.succ_lt_succ (ih hi)
    rw [selectClause] at h
    split at h
    · dsimp only at h
      split at h
      · cases h
        exact Nat.succ_pos _
      · exact hlater _ h
    · exact hlater _ h

/-- The courses of the clauses, as a list. -/
theorem CaseClause.courses_eq (fuel : Nat) (cases : List CaseClause) :
    CaseClause.courses o fuel cases = cases.map fun c => Stmt.runList o fuel c.consequent := by
  induction cases with
  | nil => rfl
  | cons c rest ih =>
    obtain ⟨span, test, consequent⟩ := c
    rw [List.map_cons, ← ih]
    rfl

namespace Skeleton.Performs

open Segments

/-- The body of the clause that is selected, or else of the fallback, stands where the bodies
from it on stand. -/
private theorem first_offset {bodies : List Skeleton} {selected : Option Nat} {fallback : Nat}
    (hlt : ∀ j, selected = some j → j < bodies.length) :
    selected.elim (size (bodies.take fallback).flatten)
    ((offsetsFrom 0 (bodies.map code))[·]?.getD 0) =
      size (bodies.take (selected.getD fallback)).flatten := by
  cases selected with
  | none => rfl
  | some j =>
    have hj : j < (bodies.map code).length := by
      rw [List.length_map]
      exact hlt j rfl
    rw [Option.elim_some, getElem?_offsetsFrom hj, Option.getD_some,
      Nat.zero_add, ← List.map_take, ← code_flatten]
    rfl

/-- Bodies that go on into each other. -/
theorem inTurn {bodies : List Skeleton} {cases : List CaseClause}
    (h : List.Forall₂ (fun b c => b.Performs o fun fuel => Stmt.runList o fuel c.consequent) bodies
      cases) :
    Performs o bodies.flatten fun fuel => EcmaStack.inTurn (CaseClause.courses o fuel cases) := by
  induction h with
  | nil => exact .nil
  | cons hfirst _ ih =>
    rw [List.flatten_cons]
    exact (hfirst.append ih).congr fun fuel trace =>
      by rw [CaseClause.courses_eq, CaseClause.courses_eq]; rfl

/-- The dispatch compares the value with the tests in order and jumps to the body of the
first that is equal, or to the default. -/
theorem selection {e : Expr} {c : Code} {present : c ≠ []} {tests : List (Option Tested)}
    {bodies : List Skeleton} {cases : List CaseClause}
    (htests : tests.map (·.map Tested.expr) = cases.map CaseClause.test)
    (hbodies : List.Forall₂ (fun b c => b.Performs o fun fuel => Stmt.runList o fuel c.consequent)
      bodies cases) :
    (Skeleton.selection (evaluation e c present) tests bodies).Performs o fun fuel trace =>
      evaluating o e trace fun v trace =>
        let (trace, first) := firstClause o v cases trace
        EcmaStack.inTurn ((CaseClause.courses o fuel cases).drop first) trace := by
  intro sk m hholds fuel
  let v := o.answer (m.trace ++ [Site.value e])
  let selected := selectClause o v cases (m.trace ++ [Site.value e])
  have hcases : tests.length = cases.length := by
    have h := congrArg List.length htests
    rwa [List.length_map, List.length_map] at h
  have hoffsets : (offsetsFrom 0 (bodies.map code)).length = tests.length := by
    rw [length_offsetsFrom, List.length_map, hcases, hbodies.length_eq]
  have hclauses : (tests.zip (offsetsFrom 0 (bodies.map code))).map (·.1.map Tested.expr) =
      cases.map CaseClause.test := by
    have hfst :=
      congrArg (List.map (·.map Tested.expr)) (List.map_fst_zip (Nat.le_of_eq hoffsets.symm))
    rw [List.map_map, htests] at hfst
    exact hfst
  -- The dispatch is told where the default is by the tests, the meaning by the clauses.
  have hdefault : tests.findIdx Option.isNone = cases.findIdx fun c => c.test.isNone := by
    have h := congrArg (List.findIdx Option.isNone) htests
    rw [List.findIdx_map, List.findIdx_map] at h
    refine Eq.trans (congrArg (List.findIdx · tests) (funext fun t => ?_)) h
    exact Option.isNone_map.symm
  rw [Skeleton.selection, hdefault] at hholds ⊢
  have hvalue := Config.Goes.evaluation (o := o) hholds.left.left.left
  obtain ⟨k, hdispatch⟩ := Config.Goes.dispatch (o := o)
    (m := { m with
      pc := m.pc + (evaluation e c present).size
      stack := .value v :: m.stack
      trace := m.trace ++ [Site.value e] }) hclauses hholds.left.left.right rfl
  dsimp only at hdispatch
  rw [List.map_snd_zip (Nat.le_of_eq hoffsets), first_offset fun j hj => by
    rw [hbodies.length_eq]
    exact selectClause_lt hj] at hdispatch
  generalize hselected : selected.2.getD (cases.findIdx fun c => c.test.isNone) = first at hdispatch
  -- The bodies before the selected one are jumped over.
  have hsplit : bodies.flatten = (bodies.take first).flatten ++ (bodies.drop first).flatten := by
    rw [← List.flatten_append, List.take_append_drop]
  have hbodies' := hholds.left.right
  rw [hsplit] at hbodies'
  have hrun := inTurn (List.forall₂_drop first hbodies)
  have hcourse : EcmaStack.inTurn (CaseClause.courses o fuel (cases.drop first)) selected.1 =
      evaluating o e m.trace fun v trace =>
        let (trace, first) := firstClause o v cases trace
        EcmaStack.inTurn ((CaseClause.courses o fuel cases).drop first) trace := by
    rw [CaseClause.courses_eq, CaseClause.courses_eq, List.map_drop, ← hselected]
    rfl
  dsimp only
  rw [← hcourse]
  refine Config.Takes.around (hvalue.trans hdispatch) List.singleton_append.symm (Nat.le_refl _) rfl
    (Nat.le_add_left _ _) (hrun sk _ (hbodies'.right.at_eq ?_) fuel) fun trace =>
      ⟨1, (Config.Goes.pop hholds.right ?_ rfl).stop_eq ?_⟩
  · rw [size_append, ← Nat.add_assoc]
  · dsimp only
    rw [size_append _ bodies.flatten, size_append (evaluation e c present), hsplit,
      size_append, ← Nat.add_assoc, ← Nat.add_assoc, ← Nat.add_assoc]
  · dsimp only
    rw [size_append _ (ofCode (Code.op .pop)), size_op, ← Nat.add_assoc]

end Skeleton.Performs

end

end EcmaStack

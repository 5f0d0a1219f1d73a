import EcmaStack.Proofs.Control.Statements
import EcmaStack.Proofs.Lowering.Program

/-!
# Control flow keeps its meaning

The machine is deterministic and what it has evaluated only grows. A fragment that performs the
course of a meaning therefore agrees with the meaning on its whole run: on every evaluation up
to any point, and on how it ends. The code of every statement that is read, is made of control
flow around expressions and stands in no loop, switch or label does so.
-/

namespace EcmaStack

section

variable {V : Type} {o : Oracle V} {sk : Skeleton}

/-! ## Runs of the machine -/

/-- Unwinding evaluates nothing. -/
theorem Config.trace_unwind {m : Config V} {kind : FrameKind} {label : List UInt8} {x : State V}
    (h : m.unwind kind label = some x) : x.trace = m.trace := by
  rw [unwind] at h
  split at h
  · split at h
    · cases h
      rfl
    · cases h
  · cases h

/-- An operation whose operands have another shape than its own is not executed. -/
theorem Instr.trace_execute {i : Instr Nat} {m : Config V} {x : State V}
    (h : i.execute o m = some x) :
    x.trace = m.trace := by
  obtain ⟨op, operands⟩ := i
  cases op with
  | pushScope | pushUndefined | pushUninitialized =>
    cases operands with
    | nil =>
      cases h
      rfl
    | cons => nomatch h
  | popScope | pop | save | setConst | setUsing | setAwaitUsing | strictEqual | popLabel
  | giveBack =>
    cases operands with
    | nil =>
      dsimp only [execute] at h
      split at h
      all_goals
        cases h
        try rfl
    | cons => nomatch h
  | jump =>
    rcases operands with _ | ⟨a | a | a | a, _ | ⟨b, rest⟩⟩
    all_goals first
      | (cases h; rfl)
      | cases h
  | define | pushValue | jumpFalse =>
    rcases operands with _ | ⟨a | a | a | a, _ | ⟨b, rest⟩⟩
    all_goals first
      | (dsimp only [execute] at h; split at h <;> first | (cases h; rfl) | cases h)
      | cases h
  | breakOff | carryOn =>
    rcases operands with _ | ⟨a | a | a | a, _ | ⟨b, rest⟩⟩
    all_goals first
      | exact Config.trace_unwind h
      | cases h
  | pushBreakLabel | pushContinueLabel =>
    rcases operands with _ | ⟨a | a | a | a, _ | ⟨b | b | b | b, _ | ⟨c, rest⟩⟩⟩
    all_goals first
      | (cases h; rfl)
      | cases h
  | _ => nomatch h

/-- A step only adds to the trace, -/
theorem State.trace_step {x y : State V} (h : x.step o sk = some y) : x.trace <+: y.trace := by
  cases x with
  | returned v trace => cases h
  | running m =>
    rw [step] at h
    split at h
    · rw [Instr.trace_execute h]
      exact List.prefix_rfl
    · next s c _ _ =>
      cases h
      cases s <;> exact List.prefix_append _ _
    · cases h

/-- and so does any number of them. -/
theorem State.trace_advance {x y : State V} {k : Nat}
    (h : Run.advance (State.step o sk) k x = some y) :
    x.trace <+: y.trace := by
  induction k generalizing x with
  | zero =>
    cases h
    exact List.prefix_rfl
  | succ k ih =>
    obtain ⟨z, hz, hy⟩ := Option.bind_eq_some_iff.mp h
    exact (State.trace_step hz).trans (ih hy)

namespace Config.Goes

variable {m : Config V} {x y : State V} {j k : Nat}

/-- What has been evaluated only grows. -/
theorem trace_mono (hx : m.Goes o sk j x) (hy : m.Goes o sk k y) (hjk : j ≤ k) :
    x.trace <+: y.trace := by
  obtain ⟨i, rfl⟩ := Nat.exists_eq_add_of_le hjk
  rw [Goes, Run.advance_add, show Run.advance _ j (.running m) = some x from hx] at hy
  exact State.trace_advance hy

/-- Behind the end there is nothing. -/
theorem le_of_stops (hx : m.Goes o sk j x) (hstops : x.step o sk = none) (hy : m.Goes o sk k y) :
    k ≤ j :=
  Run.le_of_stops hx hstops hy

/-- A run that has stopped has one last state, whatever number of steps led there. -/
theorem eq_of_stops (hx : m.Goes o sk j x) (hstops : x.step o sk = none) (hy : m.Goes o sk k y)
    (hstops' : y.step o sk = none) : x = y := by
  cases Nat.le_antisymm (hy.le_of_stops hstops' hx) (hx.le_of_stops hstops hy)
  exact Option.some.inj (hx.symm.trans hy)

end Config.Goes

/-! ## Agreement -/

/-- On the whole of its run the machine agrees with a meaning that is given up to a number of
turns of a loop. -/
structure Config.Agrees (o : Oracle V) (sk : Skeleton) (m : Config V) (meaning : Nat → Course V) :
    Prop where
  /-- The machine evaluates what the meaning evaluates. -/
  evaluates : ∀ fuel, ∃ k x, m.Goes o sk k x ∧ x.trace = (meaning fuel).1
  /-- However far the machine has run, the meaning has evaluated the same. -/
  evaluated : ∀ k x, m.Goes o sk k x → ∃ fuel, x.trace <+: (meaning fuel).1
  /-- The meaning never leaves by `break` or `continue`. -/
  stays : ∀ fuel kind label, (meaning fuel).2 ≠ .leave kind label
  /-- They complete together, behind the code and with everything as it was. -/
  completes : ∀ trace, (∃ fuel, meaning fuel = (trace, .normal)) ↔
    ∃ k, m.Goes o sk k (.running { m with pc := sk.size, trace })
  /-- They return together, with the same value. -/
  returns : ∀ v trace, (∃ fuel, meaning fuel = (trace, .giveBack v)) ↔
    ∃ k, m.Goes o sk k (.returned v trace)
  /-- The machine stops nowhere else. -/
  stops : ∀ k x, m.Goes o sk k x → x.step o sk = none →
    (∃ trace, x = .running { m with pc := sk.size, trace }) ∨ ∃ v trace, x = .returned v trace

section

variable {m : Config V} {meaning : Nat → Course V}

/-- Behind the last segment there is no step. -/
theorem State.step_behind (m : Config V) (trace : List Site) :
    State.step o sk (.running { m with pc := sk.size, trace }) = none := by
  rw [State.step, Segments.itemAt_behind sk]

/-- Where the machine stops, a meaning that is given one more turn than the machine took steps
has ended as well. -/
private theorem ended (h : ∀ fuel, m.Takes o sk sk.size fuel (meaning fuel))
    (hstays : ∀ fuel kind label, (meaning fuel).2 ≠ .leave kind label) {k : Nat} {x : State V}
    (hgoes : m.Goes o sk k x) (hstops : x.step o sk = none) :
    (∃ trace, meaning (k + 1) = (trace, .normal) ∧ x = .running { m with pc := sk.size, trace }) ∨
      ∃ v trace, meaning (k + 1) = (trace, .giveBack v) ∧ x = .returned v trace := by
  have hcourse := h (k + 1)
  have hleave := hstays (k + 1)
  generalize meaning (k + 1) = course at hcourse hleave ⊢
  obtain ⟨trace, completion⟩ := course
  cases completion with
  | normal =>
    obtain ⟨j, hj⟩ := hcourse
    exact .inl ⟨trace, rfl, hgoes.eq_of_stops hstops hj (State.step_behind m trace)⟩
  | leave kind label => exact absurd rfl (hleave kind label)
  | giveBack v =>
    obtain ⟨j, hj⟩ := hcourse
    exact .inr ⟨v, trace, rfl, hgoes.eq_of_stops hstops hj rfl⟩
  | exhausted =>
    obtain ⟨j, y, hle, hj, -⟩ := hcourse
    have hlast := hgoes.le_of_stops hstops hj
    omega

/-- What a meaning evaluates in so many turns, the machine evaluates, and in no fewer steps
unless it ends. -/
private theorem reached (h : ∀ fuel, m.Takes o sk sk.size fuel (meaning fuel))
    (hstays : ∀ fuel kind label, (meaning fuel).2 ≠ .leave kind label) (fuel : Nat) :
    ∃ k x, m.Goes o sk k x ∧ x.trace = (meaning fuel).1 ∧ (fuel ≤ k ∨ x.step o sk = none) := by
  have hcourse := h fuel
  have hleave := hstays fuel
  generalize meaning fuel = course at hcourse hleave ⊢
  obtain ⟨trace, completion⟩ := course
  cases completion with
  | normal =>
    obtain ⟨j, hj⟩ := hcourse
    exact ⟨j, _, hj, rfl, .inr (State.step_behind m trace)⟩
  | leave kind label => exact absurd rfl (hleave kind label)
  | giveBack v =>
    obtain ⟨j, hj⟩ := hcourse
    exact ⟨j, _, hj, rfl, .inr rfl⟩
  | exhausted =>
    obtain ⟨j, y, hle, hj, htrace⟩ := hcourse
    exact ⟨j, y, hj, htrace, .inl hle⟩

/-- A machine that takes the courses of a meaning, however many turns they are given, agrees
with it. -/
theorem Config.agrees_of_takes (h : ∀ fuel, m.Takes o sk sk.size fuel (meaning fuel))
    (hstays : ∀ fuel kind label, (meaning fuel).2 ≠ .leave kind label) : m.Agrees o sk meaning where
  evaluates fuel := by
    obtain ⟨k, x, hgoes, htrace, -⟩ := reached h hstays fuel
    exact ⟨k, x, hgoes, htrace⟩
  evaluated k x hgoes := by
    obtain ⟨j, y, hj, htrace, hlong⟩ := reached h hstays k
    -- With as much fuel as steps the meaning has seen at least as much as the machine.
    have hle : k ≤ j := hlong.elim id fun hstops => hj.le_of_stops hstops hgoes
    exact ⟨k, htrace ▸ hgoes.trace_mono hj hle⟩
  stays := hstays
  completes trace := by
    constructor
    · rintro ⟨fuel, heq⟩
      have hcourse := h fuel
      rw [heq] at hcourse
      exact hcourse
    -- Conversely the machine has stopped there, so with enough fuel the course has ended the same
    -- way.
    · rintro ⟨k, hgoes⟩
      obtain ⟨trace', hcourse, heq⟩ | ⟨v, trace', -, heq⟩ :=
        ended h hstays hgoes (State.step_behind m trace)
      · cases heq
        exact ⟨_, hcourse⟩
      · cases heq
  returns v trace := by
    constructor
    · rintro ⟨fuel, heq⟩
      have hcourse := h fuel
      rw [heq] at hcourse
      exact hcourse
    · rintro ⟨k, hgoes⟩
      obtain ⟨trace', -, heq⟩ | ⟨v', trace', hcourse, heq⟩ := ended h hstays hgoes rfl
      · cases heq
      · cases heq
        exact ⟨_, hcourse⟩
  stops k x hgoes hstops := by
    obtain ⟨trace, -, heq⟩ | ⟨v, trace, -, heq⟩ := ended h hstays hgoes hstops
    · exact .inl ⟨trace, heq⟩
    · exact .inr ⟨v, trace, heq⟩

end

end

/-! ## Statements -/

/-- The code of a statement that is read, is made of control flow around expressions and stands
in no loop, switch or label. Cut into its instructions and the code of what is evaluated, it has
the machine evaluate what the statement means, in the same order and to the same end, whatever
the oracle answers and whatever the machine held before. -/
theorem Stmt.control_agrees {depth : Nat} {e : Surroundings} {s t : ParseState} {stmt : Stmt}
    {site : CodeSite} {code : Code} (hparse : (Parse.rulesWith depth).statement e s = .ok (stmt, t))
    (hloop : e.region.inIteration = false) (hswitch : e.region.inSwitch = false)
    (hlabels : e.region.labels = []) (hcontrol : stmt.isControl = true) (hsite : site.Sound)
    (hcode : stmt.lower site [] = .ok code) :
    ∃ sk : Skeleton, sk.code = code ∧ sk.Faithful site ∧
    ∀ (V : Type) (o : Oracle V) (m : Config V), m.pc = 0 →
      m.Agrees o sk fun fuel => stmt.run o fuel [] m.trace := by
  have hresolved : stmt.Resolved .none := by
    have h := Parse.statement_resolved hparse
    rwa [Region.exits_eq_none hloop hswitch hlabels] at h
  have hperformed := hresolved.performed hcontrol
  obtain ⟨sk, rfl, hfaithful, hperforms⟩ := hperformed.alone hsite code hcode
  refine ⟨sk, rfl, hfaithful, fun V o m hpc => Config.agrees_of_takes (fun fuel => ?_)
    fun fuel kind label hleave => ?_⟩
  · have htakes := hperforms V o sk m (hpc ▸ .whole sk) fuel
    rwa [hpc, Nat.zero_add] at htakes
  · exact hperformed.leavesAlone o fuel m.trace kind label hleave

/-- A switch in a loop, out of which labels lead both ways. -/
def switchInLoop : SourceFile :=
  .ofString "switch.js"
    "x: for (;; u) { switch (a) { case b: continue x; default: if (c) break x; case d: e; } }"

/-- Where a script starts, with its first token in hand. -/
def ParseState.first (source : Text) : ParseState :=
  let start : ParseState := .initial source
  match Parse.next ⟨source, false, compilePattern, {}⟩
    { start with scopes := [Parse.functionScope false false] } with
  | .ok (_, s) => s
  | .error _ => start

theorem Stmt.control_agrees_switchInLoop :
    ∃ (t : ParseState) (stmt : Stmt) (code : Code),
      (Parse.rulesWith 400).statement ⟨switchInLoop.text, false, compilePattern, {}⟩
      (.first switchInLoop.text) = .ok (stmt, t) ∧
      stmt.isControl = true ∧ stmt.lower (.ofFile switchInLoop false) [] = .ok code ∧
      ∃ sk : Skeleton, sk.code = code ∧ sk.Faithful (.ofFile switchInLoop false) ∧
        ∀ (V : Type) (o : Oracle V) (m : Config V), m.pc = 0 → m.Agrees o sk fun fuel =>
        stmt.run o fuel [] m.trace := by
  have hcheck : (match (Parse.rulesWith 400).statement ⟨switchInLoop.text, false, compilePattern,
      {}⟩ (.first switchInLoop.text) with
      | .ok (stmt, _) => stmt.isControl && (stmt.lower (.ofFile switchInLoop false) []).toBool
      | .error _ => false) = true := by decide +kernel
  cases hparse : (Parse.rulesWith 400).statement ⟨switchInLoop.text, false, compilePattern, {}⟩
    (.first switchInLoop.text) with
  | error fault =>
    rw [hparse] at hcheck
    cases hcheck
  | ok x =>
    obtain ⟨stmt, t⟩ := x
    rw [hparse] at hcheck
    obtain ⟨hcontrol, hlowers⟩ := Bool.and_eq_true_iff.mp hcheck
    cases hcode : stmt.lower (.ofFile switchInLoop false) [] with
    | error fault =>
      rw [hcode] at hlowers
      cases hlowers
    | ok code =>
      exact ⟨t, stmt, code, rfl, hcontrol, hcode,
        Stmt.control_agrees hparse rfl rfl rfl hcontrol (CodeSite.ofFile_sound switchInLoop false)
        hcode⟩

end EcmaStack

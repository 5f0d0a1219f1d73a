import EcmaStack.Lowering.Shape
import EcmaStack.Proofs.Control.Course

/-!
# The courses of fragments

Code is put together from its pieces as lowering puts it together, and each way to do so has a
law: which course the whole performs when its parts perform theirs. Loops are by induction on
the turns that are left.
-/

namespace EcmaStack

namespace Skeleton

open Segments

/-! ## Cut code -/

/-- A part inside a frame for each label, outermost first. -/
def framed (o : Opcode) : List String → Skeleton → Skeleton
  | [], body => body
  | label :: rest, body =>
    let inner := framed o rest body
    ofCode [⟨o, [.text (utf8Bytes label), .address (.ahead inner.size)]⟩] ++ inner ++
      ofCode (Code.op .popLabel)

/-- A test with a part for either outcome. -/
def choice (test yes no : Skeleton) : Skeleton :=
  let no := ofCode (Code.op .pop) ++ no
  let yes := ofCode (Code.op .pop) ++ yes ++ ofCode (Code.branch .jump (.ahead no.size))
  test ++ (ofCode (Code.branch .jumpFalse (.ahead yes.size)) ++ yes) ++ no

/-- A part and a jump back to its start. -/
def forever (body : Skeleton) : Skeleton :=
  body ++ ofCode (Code.branch .jump (.back body.size))

/-- A test that leaves a loop, then the rest of the turn. -/
def repeated (test rest : Skeleton) : Skeleton :=
  let rest := ofCode (Code.op .pop) ++ rest
  forever (test ++ ofCode (Code.branch .jumpFalse (.ahead (rest.size + Code.jumpSize))) ++ rest) ++
    ofCode (Code.op .pop)

/-- A part in a scope of its own. -/
def within (vars : List Variable) (body : Skeleton) : Skeleton :=
  ofCode (Code.op .pushScope) ++ ofCode (vars.flatMap Variable.opening) ++ body ++
    ofCode (Code.op .popScope)

/-- The code of a skeleton is that of the emitter, construct by construct. -/
theorem code_framed (o : Opcode) (labels : List String) (body : Skeleton) :
    (framed o labels body).code = Code.framed o labels body.code := by
  induction labels with
  | nil => rfl
  | cons label rest ih => simp only [framed, Code.framed, code_append, code_ofCode, size, ih]

theorem code_choice (test yes no : Skeleton) :
    (choice test yes no).code = Code.choice test.code yes.code no.code := by
  simp only [choice, Code.choice, Code.bypassed, code_append, code_ofCode, size]

theorem code_forever (body : Skeleton) : (forever body).code = Code.forever body.code := by
  simp only [forever, Code.forever, code_append, code_ofCode, size]

theorem code_repeated (test rest : Skeleton) :
    (repeated test rest).code = Code.repeated test.code .jumpFalse rest.code ++ Code.op .pop := by
  simp only [repeated, Code.repeated, code_append, code_ofCode, code_forever, size]

end Skeleton

open Segments Skeleton

section

variable {V : Type} {o : Oracle V} {f g : Skeleton}

/-! ## Straight parts -/

namespace Course

/-- A frame without labels catches nothing of its kind but what has no label. -/
theorem catching_nil (kind : FrameKind) (c : Course V) : c.catching kind [] = c := by
  obtain ⟨trace, completion⟩ := c
  cases completion with
  | leave k label => rw [catching, if_neg fun h => List.not_mem_nil h.2]
  | _ => rfl

/-- Frames of one kind around each other catch as one with the labels of all. -/
theorem catching_append (kind : FrameKind) (labels others : List String) (c : Course V) :
    (c.catching kind others).catching kind labels = c.catching kind (labels ++ others) := by
  obtain ⟨trace, completion⟩ := c
  cases completion with
  | leave k label =>
    by_cases hothers : k = kind ∧ label ∈ others
    · simp only [catching, if_pos hothers,
        if_pos (And.intro hothers.1 (List.mem_append_right labels hothers.2))]
    · have hmem : (k = kind ∧ label ∈ labels ++ others) ↔ k = kind ∧ label ∈ labels := by
        rw [List.mem_append]
        exact ⟨fun h => ⟨h.1, h.2.resolve_right fun hin => hothers ⟨h.1, hin⟩⟩,
          fun h => ⟨h.1, .inl h.2⟩⟩
      simp only [catching, if_neg hothers, hmem]
  | _ => rfl

end Course

namespace Skeleton.Performs

variable {course course' : Nat → List Site → Course V}

/-- A skeleton of nothing does nothing, -/
theorem nil : Performs o [] fun _ trace => (trace, .normal) :=
  fun _ m _ _ => ⟨0, .refl m⟩

/-- and two skeletons do what the first does and then, if it ends as it should, what the
second does. -/
theorem append (hf : f.Performs o course) (hg : g.Performs o course') :
    (f ++ g).Performs o fun fuel trace => (course fuel trace).andThen (course' fuel) := by
  intro sk m hholds fuel
  refine (hf sk m hholds.left fuel).andThen fun trace => ?_
  rw [size_append, ← Nat.add_assoc]
  exact hg sk { m with pc := m.pc + f.size, trace } hholds.right fuel

/-- The course in another form. -/
theorem congr (hf : f.Performs o course)
    (h : ∀ fuel trace, course fuel trace = course' fuel trace) :
    f.Performs o course' := by
  intro sk m hholds fuel
  rw [← h]
  exact hf sk m hholds fuel

end Skeleton.Performs

/-- The code of an expression, which is evaluated in one piece. -/
def Skeleton.evaluation (e : Expr) (c : Code) (present : c ≠ []) : Skeleton :=
  [.whole (.value e) c present]

theorem Skeleton.size_evaluation (e : Expr) (c : Code) (present : c ≠ []) :
    (Skeleton.evaluation e c present).size = c.size := by
  rw [evaluation, size_cons, size_nil, Nat.add_zero]
  rfl

theorem Skeleton.code_evaluation (e : Expr) (c : Code) (present : c ≠ []) :
    (Skeleton.evaluation e c present).code = c := by
  rw [evaluation, code_cons, code_nil, List.append_nil]
  rfl

/-- An evaluation pushes its value. -/
theorem Config.Goes.evaluation {sk : Skeleton} {m : Config V} {e : Expr} {c : Code}
    {present : c ≠ []} (hholds : sk.Holds (Skeleton.evaluation e c present) m.pc) :
    m.Goes o sk 1 (.running { m with
      pc := m.pc + (Skeleton.evaluation e c present).size
      stack := .value (o.answer (m.trace ++ [Site.value e])) :: m.stack
      trace := m.trace ++ [Site.value e] }) := by
  rw [Skeleton.size_evaluation]
  exact .site hholds

/-- The top value is dropped. -/
theorem Config.Goes.pop {sk : Skeleton} {m : Config V} {v : Slot V} {rest : List (Slot V)} {n : Nat}
    (hholds : sk.Holds (Segments.ofCode (Code.op .pop)) n) (hpc : m.pc = n)
    (hstack : m.stack = v :: rest) :
    m.Goes o sk 1 (.running { m with pc := n + 2, stack := rest }) := by
  subst hpc
  obtain ⟨pc, stack, scopes, frames, trace⟩ := m
  cases hstack
  exact .control hholds rfl

/-- A jump forward. -/
theorem Config.Goes.jump {sk : Skeleton} {m : Config V} {n target : Nat}
    (hholds : sk.Holds (Segments.ofCode (Code.branch .jump (.ahead n))) m.pc)
    (htarget : m.pc + Code.jumpSize + n = target) :
    m.Goes o sk 1 (.running { m with pc := target }) := by
  subst htarget
  exact .control hholds rfl

/-- A jump back. -/
theorem Config.Goes.jumpBack {sk : Skeleton} {m : Config V} {n target : Nat}
    (hholds : sk.Holds (Segments.ofCode (Code.branch .jump (.back n))) m.pc)
    (htarget : m.pc = target + n) :
    m.Goes o sk 1 (.running { m with pc := target }) := by
  have hstep : (Instr.settle id m.pc ⟨.jump, [.address (.back n)]⟩).execute o m =
      some (.running { m with pc := target }) := by
    rw [show target = m.pc - n by omega]
    rfl
  exact .control hholds hstep

/-- The jump that a value decides, and the drop of the value on either way. -/
theorem Config.Goes.decide {sk : Skeleton} {m : Config V} {v : Slot V} {rest : List (Slot V)}
    {n exit : Nat} {b : Bool}
    (hjump : sk.Holds (Segments.ofCode (Code.branch .jumpFalse (.ahead n))) m.pc)
    (hnext : sk.Holds (Segments.ofCode (Code.op .pop)) (m.pc + Code.jumpSize))
    (hexit : sk.Holds (Segments.ofCode (Code.op .pop)) exit)
    (hahead : m.pc + Code.jumpSize + n = exit) (hstack : m.stack = v :: rest)
    (hb : v.truthy o = b) :
    m.Goes o sk (1 + 1) (.running { m with
      pc := (if b then m.pc + Code.jumpSize else exit) + 2
      stack := rest }) := by
  subst hahead hb
  obtain ⟨pc, stack, scopes, frames, trace⟩ := m
  cases hstack
  refine Config.Goes.trans (.control hjump rfl) (Config.Goes.pop (v := v) ?_ rfl rfl)
  dsimp only
  split
  · exact hnext
  · exact hexit

/-- A test and what it decides. -/
theorem Config.Goes.ask {sk : Skeleton} {m : Config V} {e : Expr} {c : Code} {present : c ≠ []}
    {n exit : Nat} (htest : sk.Holds (Skeleton.evaluation e c present) m.pc)
    (hjump : sk.Holds (Segments.ofCode (Code.branch .jumpFalse (.ahead n)))
      (m.pc + (Skeleton.evaluation e c present).size))
    (hnext : sk.Holds (Segments.ofCode (Code.op .pop))
      (m.pc + (Skeleton.evaluation e c present).size + Code.jumpSize))
    (hexit : sk.Holds (Segments.ofCode (Code.op .pop)) exit)
    (hahead : m.pc + (Skeleton.evaluation e c present).size + Code.jumpSize + n = exit) :
    m.Goes o sk (1 + (1 + 1)) (.running { m with
      pc := (if o.truthy (o.answer (m.trace ++ [Site.value e]))
        then m.pc + (Skeleton.evaluation e c present).size + Code.jumpSize else exit) + 2
      trace := m.trace ++ [Site.value e] }) :=
  (Config.Goes.evaluation htest).trans (.decide hjump hnext hexit hahead rfl rfl)

namespace Skeleton.Performs

/-! ## Simple statements -/

/-- An expression whose value is saved leaves its site in the trace. -/
theorem expression {e : Expr} {c : Code} {present : c ≠ []} :
    (evaluation e c present ++ ofCode (Code.op .save) ++ ofCode (Code.op .pop)).Performs o
    fun _ trace =>
      (trace ++ [Site.value e], .normal) := by
  intro sk m hholds fuel
  have hpop := hholds.right
  rw [size_append, ← Nat.add_assoc] at hpop
  have hsave := hholds.left.right
  have hgoes :=
    ((Config.Goes.evaluation (o := o) hholds.left.left).trans (.control hsave rfl)).trans
      (.pop hpop rfl rfl)
  rw [size_append, size_append, ← Nat.add_assoc, ← Nat.add_assoc]
  exact ⟨_, hgoes⟩

/-- An evaluation whose value nothing looks at. -/
theorem evaluated {e : Expr} {c : Code} {present : c ≠ []} :
    (evaluation e c present ++ ofCode (Code.op .pop)).Performs o fun _ trace =>
    (trace ++ [Site.value e], .normal) := by
  intro sk m hholds fuel
  rw [size_append, ← Nat.add_assoc]
  exact ⟨_, (Config.Goes.evaluation hholds.left).trans (.pop hholds.right rfl rfl)⟩

theorem start {n : Node} {c : Code} {present : c ≠ []} :
    Performs o [.whole (.start n) c present] fun _ trace => (trace ++ [Site.start n], .normal) := by
  intro sk m hholds fuel
  rw [size_cons, size_nil, Nat.add_zero]
  exact ⟨1, .site hholds⟩

/-- The value of an expression is given back, -/
theorem giveBack {e : Expr} {c : Code} {present : c ≠ []} :
    (evaluation e c present ++ ofCode (Code.op .giveBack)).Performs o fun _ trace =>
      evaluating o e trace fun v trace => (trace, .giveBack (.value v)) := by
  intro sk m hholds fuel
  exact ⟨_, (Config.Goes.evaluation hholds.left).trans (.control hholds.right rfl)⟩

/-- or none is. -/
theorem giveBackNothing :
    Performs o (ofCode (Code.op .pushUndefined) ++ ofCode (Code.op .giveBack)) fun _ trace =>
      (trace, .giveBack .undefined) := by
  intro sk m hholds fuel
  have hpush : m.Goes o sk 1 (.running { m with pc := m.pc + 2, stack := .undefined :: m.stack }) :=
    .control hholds.left rfl
  exact ⟨_, hpush.trans (.control hholds.right rfl)⟩

/-- Leaving a frame is left to the machine, which unwinds to the frame of that label. -/
theorem leave (kind : FrameKind) (label : String) :
    Performs o (ofCode (Code.text kind.leave label)) fun _ trace => (trace, .leave kind label) := by
  intro sk m hholds fuel f outer hcaught hdepth hscopes
  refine ⟨1, .control hholds ?_⟩
  have hunwind : m.unwind kind (utf8Bytes label) = some (.running
      ⟨f.address, m.stack.drop (m.stack.length - f.depth), f.scopes, f :: outer, m.trace⟩) := by
    simp only [Config.unwind, hcaught, if_pos (And.intro hdepth hscopes)]
  cases kind <;> exact hunwind

/-! ## Frames -/

variable {course : Nat → List Site → Course V}

/-- A part inside one frame. -/
private theorem framed_one {kind : FrameKind} {label : String} (hf : f.Performs o course) :
    Performs o (ofCode [⟨kind.opcode, [.text (utf8Bytes label), .address (.ahead f.size)]⟩] ++ f ++
      ofCode (Code.op .popLabel)) fun fuel trace => (course fuel trace).catching kind [label] := by
  intro sk m hholds fuel
  let opening : Skeleton :=
    ofCode [⟨kind.opcode, [.text (utf8Bytes label), .address (.ahead f.size)]⟩]
  let middle := m.pc + opening.size + f.size
  let m' : Config V := { m.openFrame kind (utf8Bytes label) middle with pc := m.pc + opening.size }
  have hopen : m.Goes o sk 1 (.running m') := by
    refine .control hholds.left.left ?_
    cases kind <;> rfl
  have hbody := hf sk m' hholds.left.right fuel
  have hclose := hholds.right
  rw [size_append, ← Nat.add_assoc] at hclose
  refine Config.Takes.framed hopen rfl (Nat.le_add_left fuel 1) hbody fun trace => ⟨1, ?_⟩
  refine .control (m := { m' with pc := middle, trace }) hclose ?_
  rw [size_append, size_append, ← Nat.add_assoc, ← Nat.add_assoc]
  rfl

/-- A part inside a frame for each label. -/
theorem framed {kind : FrameKind} {labels : List String} (hf : f.Performs o course) :
    (Skeleton.framed kind.opcode labels f).Performs o fun fuel trace =>
    (course fuel trace).catching kind labels := by
  induction labels with
  | nil => exact hf.congr fun fuel trace => (Course.catching_nil kind (course fuel trace)).symm
  | cons label rest ih =>
    exact (framed_one ih).congr fun fuel trace =>
      Course.catching_append kind [label] rest (course fuel trace)

/-! ## Branches -/

/-- A choice evaluates its test and goes one of the two ways. -/
theorem choice {yes no : Skeleton} {course' : Nat → List Site → Course V} {e : Expr} {c : Code}
    {present : c ≠ []} (hyes : yes.Performs o course) (hno : no.Performs o course') :
    (Skeleton.choice (evaluation e c present) yes no).Performs o fun fuel trace =>
      evaluating o e trace fun v trace => if o.truthy v then course fuel trace
      else course' fuel trace := by
  intro sk m hholds fuel
  have htest := hholds.left.left
  have hjump := hholds.left.right.left
  have hthen := hholds.left.right.right
  have helse := hholds.right
  have hask := Config.Goes.ask (o := o) htest hjump hthen.left.left helse.left
    (by simp only [size_append, size_op, size_branch]; omega)
  have hfuel : fuel ≤ 1 + 1 + 1 + fuel := Nat.le_add_left _ _
  dsimp only [evaluating]
  split at hask
  · next htrue =>
    rw [if_pos htrue]
    refine Config.Takes.around hask (List.nil_append _).symm (Nat.le_refl _) rfl hfuel
      (hyes sk _ hthen.left.right fuel) fun trace => ⟨1, .jump (hthen.right.at_eq ?_) ?_⟩
    · simp only [size_append, size_op, size_branch]
      omega
    · simp only [Skeleton.choice, size_append, size_op, size_branch]
      omega
  · next hfalse =>
    rw [if_neg hfalse]
    have hrun := Config.Takes.after hask rfl rfl rfl hfuel (hno sk _ helse.right fuel)
    simp only [Skeleton.choice, size_append, size_op, size_branch, Nat.add_assoc] at hrun ⊢
    exact hrun

/-! ## Loops -/

/-- A loop with a test somewhere in its turn. -/
theorem repeated {before after : Skeleton} {course' : Nat → List Site → Course V} {e : Expr}
    {c : Code} {present : c ≠ []} (hbefore : before.Performs o course)
    (hafter : after.Performs o course') :
    (Skeleton.repeated (before ++ evaluation e c present) after).Performs o
      (loopTurns fun fuel trace next => (course fuel trace).andThen fun trace =>
        testing o (some e) trace fun trace => (course' fuel trace).andThen next) := by
  intro sk m hholds fuel
  have hbody := hholds.left.left
  have hback := hholds.left.right
  have hexit := hholds.right
  -- Only the trace changes from turn to turn.
  suffices hturns :
      ∀ trace, Config.Takes o sk { m with trace } _ fuel (loopTurns _ fuel trace) from hturns
      m.trace
  induction fuel with
  | zero => exact fun trace => ⟨0, _, Nat.le_refl 0, .refl _, rfl⟩
  | succ fuel ih =>
    intro trace
    refine (hbefore sk { m with trace } hbody.left.left.left (fuel + 1)).andThen fun trace => ?_
    have hask := Config.Goes.ask (o := o) (m := { m with pc := m.pc + before.size, trace })
      hbody.left.left.right
      (hbody.left.right.at_eq (by simp only [size_append]; omega))
      (hbody.right.left.at_eq (by simp only [size_append, size_branch]; omega)) hexit
      (by simp only [size_append, size_op, size_branch, Skeleton.forever]; omega)
    dsimp only [testing, evaluating]
    split
    · next htrue =>
      rw [if_pos htrue] at hask
      have hrest := hafter sk
        { m with
          pc := m.pc + before.size + (evaluation e c present).size + Code.jumpSize + 2
          trace := trace ++ [Site.value e] }
        (hbody.right.right.at_eq (by simp only [size_append, size_op, size_branch]; omega))
      refine Config.Takes.after hask rfl rfl rfl (Nat.le_add_left _ _)
        ((hrest (fuel + 1)).andThen fun trace => ?_)
      have hagain : Config.Goes o sk { m with
          pc := m.pc + before.size + (evaluation e c present).size + Code.jumpSize + 2 + after.size,
          trace } 1
          (.running { m with trace }) :=
        .jumpBack (hback.at_eq (by simp only [size_append, size_op, size_branch]; omega))
          (by simp only [size_append, size_op, size_branch]; omega)
      exact Config.Takes.after hagain rfl rfl rfl (Nat.le_of_eq (Nat.add_comm _ _)) (ih trace)
    · next hfalse =>
      rw [if_neg hfalse] at hask
      rw [Skeleton.repeated, size_append, ← Nat.add_assoc]
      exact ⟨_, hask⟩

/-- A loop without a test. -/
theorem forever (hf : f.Performs o course) :
    (Skeleton.forever f).Performs o (loopTurns fun fuel trace next => (course fuel trace).andThen
      next) := by
  intro sk m hholds fuel
  suffices hturns :
      ∀ trace, Config.Takes o sk { m with trace } _ fuel (loopTurns _ fuel trace) from hturns
      m.trace
  induction fuel with
  | zero => exact fun trace => ⟨0, _, Nat.le_refl 0, .refl _, rfl⟩
  | succ fuel ih =>
    intro trace
    refine (hf sk { m with trace } hholds.left (fuel + 1)).andThen fun trace => ?_
    have hagain : Config.Goes o sk { m with pc := m.pc + f.size, trace } 1
        (.running { m with trace }) :=
      .jumpBack hholds.right rfl
    exact Config.Takes.after hagain rfl rfl rfl (Nat.le_of_eq (Nat.add_comm _ _)) (ih trace)

end Skeleton.Performs

/-! ## Scopes -/

/-- The definition of a variable takes its value off the stack again. -/
theorem Config.Goes.opening {sk : Skeleton} {m : Config V} (v : Variable)
    (hholds : sk.Holds (Segments.ofCode v.opening) m.pc) :
    ∃ k, m.Goes o sk k (.running { m with pc := m.pc + v.opening.size }) := by
  obtain ⟨value, hopening, hvalue⟩ : ∃ value, v.opening = value ++ Code.text .define v.name ∧
      (sk.Holds (Segments.ofCode value) m.pc →
        ∃ k slot, m.Goes o sk k
        (.running { m with pc := m.pc + value.size, stack := slot :: m.stack })) := by
    rw [Variable.opening]
    cases v.kind
    case var | param | function => exact ⟨_, rfl, fun h => ⟨_, _, .control h rfl⟩⟩
    case letDecl | classDecl | importDecl => exact ⟨_, rfl, fun h => ⟨_, _, .control h rfl⟩⟩
    case constDecl | «using» | awaitUsing =>
      refine ⟨_, rfl, fun h => ?_⟩
      have hpush :
          m.Goes o sk 1 (.running { m with pc := m.pc + 2, stack := .uninitialized :: m.stack }) :=
        .control h rfl
      exact ⟨_, _, hpush.trans (.control h.tail rfl)⟩
  rw [hopening, Segments.ofCode_append] at hholds
  obtain ⟨k, slot, hpush⟩ := hvalue hholds.left
  rw [hopening, Code.size_append, ← Nat.add_assoc]
  exact ⟨_, hpush.trans (.control (hholds.right.at_eq (by rw [Segments.size_ofCode])) rfl)⟩

/-- The definitions of all variables of a scope. -/
theorem Config.Goes.openings {sk : Skeleton} {m : Config V} (vars : List Variable)
    (hholds : sk.Holds (Segments.ofCode (vars.flatMap Variable.opening)) m.pc) :
    ∃ k, m.Goes o sk k
    (.running { m with pc := m.pc + Code.size (vars.flatMap Variable.opening) }) := by
  induction vars generalizing m with
  | nil => exact ⟨0, .refl m⟩
  | cons v rest ih =>
    rw [List.flatMap_cons, Segments.ofCode_append] at hholds
    obtain ⟨j, hfirst⟩ := Config.Goes.opening (o := o) v hholds.left
    obtain ⟨k, hrest⟩ :=
      ih (m := { m with pc := m.pc + v.opening.size })
        (hholds.right.at_eq (by rw [Segments.size_ofCode]))
    rw [List.flatMap_cons, Code.size_append, ← Nat.add_assoc]
    exact ⟨_, hfirst.trans hrest⟩

/-- A scope that was opened can be closed. -/
theorem Config.Goes.popScope {sk : Skeleton} {m : Config V} {scopes stop : Nat}
    (hholds : sk.Holds (Segments.ofCode (Code.op .popScope)) m.pc) (hscopes : m.scopes = scopes + 1)
    (hstop : m.pc + 2 = stop) : m.Goes o sk 1 (.running { m with pc := stop, scopes }) := by
  subst hstop
  obtain ⟨pc, stack, _, frames, trace⟩ := m
  cases hscopes
  exact .control hholds rfl

namespace Skeleton.Performs

variable {course : Nat → List Site → Course V}

/-- A part that ends in a scope leaves it either way: what unwinds goes back to the scopes of
its frame. -/
theorem within {vars : List Variable} (hf : f.Performs o course) :
    (Skeleton.within vars f).Performs o course := by
  intro sk m hholds fuel
  have hpush : m.Goes o sk 1 (.running { m with pc := m.pc + 2, scopes := m.scopes + 1 }) :=
    .control hholds.left.left.left rfl
  obtain ⟨k, hopen⟩ :=
    Config.Goes.openings (o := o) (m := { m with pc := m.pc + 2, scopes := m.scopes + 1 }) vars
      hholds.left.left.right
  refine Config.Takes.around (hpush.trans hopen) (List.nil_append _).symm (Nat.le_succ _) rfl
    (Nat.le_add_left _ _)
    (hf sk _ (hholds.left.right.at_eq ?_) fuel) fun trace =>
      ⟨1, .popScope (hholds.right.at_eq ?_) rfl ?_⟩
  · rw [size_append, size_op, size_ofCode, ← Nat.add_assoc]
  · rw [size_append, size_append, size_op, size_ofCode, ← Nat.add_assoc, ← Nat.add_assoc]
  · rw [Skeleton.within, size_append, size_append, size_append, size_op, size_op, size_ofCode]
    dsimp only
    omega

end Skeleton.Performs

end

end EcmaStack

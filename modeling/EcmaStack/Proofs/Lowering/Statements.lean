import EcmaStack.Proofs.Lowering.Classes

/-!
# The code of statements

The code of a statement leaves the machine as it found it, wherever its exits are open. A label
waits until it meets a statement that opens frames for it, so the exits of a statement are met
partly by the labels that wait on it and partly by the frames around it (`Stmt.Reaches`).
-/

namespace EcmaStack

open Code

/-- The exits of a statement are met by the labels that wait on it, as far as it opens frames
for them, and by the exits around it. -/
structure Stmt.Reaches (stmt : Stmt) (exits : Exits) (labels : List String) (outer : Exits) :
    Prop where
  plain : stmt.takesLabels = false → labels = []
  breaks : ∀ l ∈ exits .forBreak, l ∈ labels ∨ l ∈ outer .forBreak
  continues : ∀ l ∈ exits .forContinue, (stmt.isLoop = true ∧ l ∈ labels) ∨ l ∈ outer .forContinue

/-- A loop takes the labels in front of it. -/
theorem Stmt.takesLabels_of_isLoop {stmt : Stmt} (h : stmt.isLoop = true) :
    stmt.takesLabels = true := by
  cases stmt <;> first | rfl | cases h

namespace Stmt.Reaches

variable {stmt body : Stmt} {exits outer : Exits} {labels : List String}

/-- A statement without labels is reached with the exits it stands in. -/
theorem refl (stmt : Stmt) (exits : Exits) : stmt.Reaches exits [] exits where
  plain _ := rfl
  breaks _ h := Or.inr h
  continues _ h := Or.inr h

/-- Where a statement takes no labels it has all exits of its surroundings. -/
theorem below (h : stmt.Reaches exits labels outer) (hplain : stmt.takesLabels = false) :
    exits.Below outer := by
  have hlabels := h.plain hplain
  subst hlabels
  intro kind l hl
  cases kind with
  | forBreak => exact (h.breaks l hl).resolve_left List.not_mem_nil
  | forContinue => exact (h.continues l hl).resolve_left fun hmem => List.not_mem_nil hmem.2

/-- A loop opens frames of both kinds for the labels on it. -/
theorem looping (h : stmt.Reaches exits labels outer) :
    (exits.looping []).Below (outer.looping labels) := by
  intro kind l hl
  cases kind with
  | forBreak =>
    rcases hl with ⟨⟨⟩, -⟩ | ⟨-, hl⟩ | hl
    · exact Or.inr (Or.inl ⟨rfl, List.mem_append_right labels hl⟩)
    · rcases h.breaks l hl with hl | hl
      · exact Or.inr (Or.inl ⟨rfl, List.mem_append_left _ hl⟩)
      · exact Or.inr (Or.inr hl)
  | forContinue =>
    rcases hl with ⟨-, hl⟩ | ⟨⟨⟩, -⟩ | hl
    · exact Or.inl ⟨rfl, List.mem_append_right labels hl⟩
    · rcases h.continues l hl with ⟨-, hl⟩ | hl
      · exact Or.inl ⟨rfl, List.mem_append_left _ hl⟩
      · exact Or.inr (Or.inr hl)

/-- A switch opens frames for `break` only. -/
theorem switching (h : stmt.Reaches exits labels outer) (hloop : stmt.isLoop = false) :
    (exits.switching []).Below (outer.switching labels) := by
  intro kind l hl
  cases kind with
  | forBreak =>
    rcases hl with ⟨-, hl⟩ | hl
    · exact Or.inl ⟨rfl, List.mem_append_right labels hl⟩
    · rcases h.breaks l hl with hl | hl
      · exact Or.inl ⟨rfl, List.mem_append_left _ hl⟩
      · exact Or.inr hl
  | forContinue =>
    rcases hl with ⟨⟨⟩, -⟩ | hl
    rcases h.continues l hl with ⟨hyes, -⟩ | hl
    · cases hloop.symm.trans hyes
    · exact Or.inr hl

/-- One more label waits on the statement inside, if that takes labels. -/
theorem labelled {span : Span} {label : Option Name} {loop : Bool}
    (h : (Stmt.labelled span label body).Reaches exits labels outer)
    (hloop : loop = true → body.isLoop = true) (htakes : body.takesLabels = true) :
    body.Reaches (exits.labelled (nameText label) loop) (labels ++ [nameText label]) outer where
  plain hplain := absurd htakes (by rw [hplain]; exact Bool.false_ne_true)
  breaks l hl := by
    rcases hl with ⟨⟨⟩, -⟩ | ⟨-, hl⟩ | hl
    · exact Or.inl (List.mem_append_right labels hl)
    · exact (h.breaks l hl).imp_left (List.mem_append_left _)
  continues l hl := by
    rcases hl with ⟨-, hl⟩ | ⟨⟨⟩, -⟩ | hl
    · split at hl
      · next hyes => exact Or.inl ⟨hloop hyes, List.mem_append_right labels hl⟩
      · cases hl
    · rcases h.continues l hl with ⟨⟨⟩, -⟩ | hl
      exact Or.inr hl

/-- Otherwise the labels get their frames around the statement. -/
theorem framing {span : Span} {label : Option Name} {loop : Bool}
    (h : (Stmt.labelled span label body).Reaches exits labels outer)
    (hloop : loop = true → body.isLoop = true) (htakes : body.takesLabels = false) :
    (exits.labelled (nameText label) loop).Below
    (outer.more .forBreak (labels ++ [nameText label])) := by
  intro kind l hl
  cases kind with
  | forBreak =>
    rcases hl with ⟨⟨⟩, -⟩ | ⟨-, hl⟩ | hl
    · exact Or.inl ⟨rfl, List.mem_append_right labels hl⟩
    · rcases h.breaks l hl with hl | hl
      · exact Or.inl ⟨rfl, List.mem_append_left _ hl⟩
      · exact Or.inr hl
  | forContinue =>
    rcases hl with ⟨-, hl⟩ | ⟨⟨⟩, -⟩ | hl
    · split at hl
      · next hyes =>
          exact absurd (Stmt.takesLabels_of_isLoop (hloop hyes))
            (by rw [htakes]; exact Bool.false_ne_true)
      · cases hl
    · rcases h.continues l hl with ⟨⟨⟩, -⟩ | hl
      exact Or.inr hl

end Stmt.Reaches

/-- What the code of a statement does, and of the functions it declares. -/
structure Stmt.Sound (exits : Exits) (stmt : Stmt) : Prop where
  lower : ∀ s : CodeSite, s.Sound → ∀ labels outer, stmt.Reaches exits labels outer →
    Lowers (Runs outer · 0 0) (stmt.lower s labels)
  hoisted : ∀ s : CodeSite, s.Sound → Hoisted.Sound (stmt.hoisted s)

/-- The targets of a declaration and their initializers. -/
structure VarDecl.Sound (d : VarDecl) : Prop where
  targets : ∀ x ∈ d.list, x.target.Sound
  initializers : ∀ x ∈ d.list, ∀ e ∈ x.initializer, e.Sound

/-- What the code of a node does at the head of a loop, and as the default of a module. -/
structure Node.Sound (n : Node) : Prop where
  start : ∀ s : CodeSite, s.Sound → Lowers (Moves · 0 0) (Node.lowerStart s (some n))
  bind : ∀ s : CodeSite, s.Sound → Lowers (Moves · 1 0) (n.lowerBind s)
  default : ∀ s : CodeSite, s.Sound → ∀ span, Lowers (Moves · 0 1) (n.lowerDefault s span)
  hoisted : ∀ s : CodeSite, s.Sound → ∀ span, Hoisted.Sound (Stmt.hoisted s (.exportDefault span n))

/-! ## Imports, exports and declarations -/

/-- An import leaves the module. -/
theorem importCode_moves (source : StringLiteral) (attributes : List ImportAttribute) :
    Moves (importCode source attributes) 0 1 := by
  have hload : Moves (text .importModule source.value) 0 1 := moves_of_height? rfl
  exact hload.append (.flatMap fun a _ => moves_of_height? rfl)

theorem Node.lowerSpecifiers_lowers (specifiers : List Node) :
    Lowers (Moves · 1 1) (Node.lowerSpecifiers specifiers) := by
  induction specifiers with
  | nil => exact .ok .nil
  | cons n rest ih =>
    cases n with
    | importSpecifier i =>
      have hi : Moves i.lower 1 1 := by
        cases i <;> exact moves_of_height? rfl
      exact ih.bind fun c hc => .ok (hi.append hc)
    | _ => exact .refuse _ _

/-- An export leaves nothing. -/
theorem exportCode_moves (specifiers : List ExportSpecifier) (source : Option StringLiteral)
    (attributes : List ImportAttribute) : Moves (exportCode specifiers source attributes) 0 0 := by
  cases source with
  | none => exact .flatMap fun _ _ => moves_of_height? rfl
  | some source =>
    have hpass : Moves (specifiers.flatMap fun s => pick 1 ++ string (nameText s.inner) ++
        op .getField ++
        text .exportName (nameText s.exported)) 1 1 := .flatMap fun _ _ => moves_of_height? rfl
    exact ((importCode_moves source attributes).append hpass).append (pop_moves 0)

/-- A declaration leaves the stack as it was. -/
theorem VarDecl.Sound.lower {d : VarDecl} (h : d.Sound) {s : CodeSite} (hs : s.Sound) :
    Lowers (Moves · 0 0) (d.lower s) := by
  obtain ⟨span, kind, list⟩ := d
  obtain ⟨htargets, hinitializers⟩ := h
  change Lowers _ (Declarator.lowerList s kind list)
  induction list with
  | nil => exact .ok .nil
  | cons x rest ih =>
    obtain ⟨xspan, target, initializer⟩ := x
    have hrest := ih (fun y hy => htargets y (List.mem_cons_of_mem _ hy))
      (fun y hy => hinitializers y (List.mem_cons_of_mem _ hy))
    have htarget : target.Sound := htargets _ List.mem_cons_self
    refine (Expr.lowerOption_lowers hs target.use_ne_link (hinitializers _ List.mem_cons_self)).bind
      fun o ho => ?_
    have hvalue : Moves (o.getD (op .pushUndefined)) 0 1 := by
      cases o with
      | none => exact moves_of_height? rfl
      | some c => exact ho.2 c rfl
    dsimp only
    split
    · exact hrest.bind fun d hd => .ok hd
    · refine (htarget.lower s hs).bind fun c hc => ?_
      exact hrest.bind fun d hd => .ok ((hvalue.append hc).append hd)

/-! ## Lists of statements -/

section Lists

variable {s : CodeSite} {exits : Exits}

/-- A statement without labels, among the exits it was read with. -/
theorem Stmt.Sound.plain {stmt : Stmt} (h : stmt.Sound exits) (hs : s.Sound) :
    Lowers (Runs exits · 0 0) (stmt.lower s []) :=
  h.lower s hs [] exits (.refl stmt exits)

/-- Statements leave the stack as it was, one after the other. -/
theorem Stmt.lowerList_lowers (hs : s.Sound) {list : List Stmt} (h : ∀ b ∈ list, b.Sound exits) :
    Lowers (Runs exits · 0 0) (Stmt.lowerList s list) := by
  induction list with
  | nil => exact .ok .nil
  | cons b rest ih =>
    refine ((h b List.mem_cons_self).plain hs).bind fun c hc => ?_
    exact (ih fun d hd => h d (List.mem_cons_of_mem _ hd)).bind fun d hd => .ok (hc.append hd)

theorem Stmt.hoistedList_sound (hs : s.Sound) {list : List Stmt} (h : ∀ b ∈ list, b.Sound exits) :
    Hoisted.Sound (Stmt.hoistedList s list) := by
  induction list with
  | nil => exact .nil
  | cons b rest ih =>
    exact ((h b List.mem_cons_self).hoisted s hs).append
      (ih fun d hd => h d (List.mem_cons_of_mem _ hd))

theorem Block.lower_lowers (hs : s.Sound) {b : Block} (h : ∀ x ∈ b.body, x.Sound exits) :
    Lowers (Runs exits · 0 0) (b.lower s) := by
  obtain ⟨span, body, scope⟩ := b
  exact inScope_lowers scope (Stmt.hoistedList_sound hs h) (Stmt.lowerList_lowers hs h)

/-- A handler finds the exception on the stack and takes it away. -/
theorem CatchClause.lowerOption_lowers (hs : s.Sound) {handler : Option CatchClause}
    (hparam : ∀ h ∈ handler, ∀ p ∈ h.param, p.Sound)
    (hbody : ∀ h ∈ handler, ∀ b ∈ h.body, b.Sound exits) :
    Lowers (fun o : Option Code => ∀ c ∈ o, Runs exits c 1 0)
    (CatchClause.lowerOption s handler) := by
  cases handler with
  | none =>
    refine .ok ?_
    rintro _ ⟨⟩
  | some clause =>
    obtain ⟨span, param, body, scope⟩ := clause
    have hbody : ∀ b ∈ body, b.Sound exits := hbody _ rfl
    have hparam : Lowers (Moves · 1 0) (Pattern.lowerParam s param) := by
      cases param with
      | none => exact .ok (pop_moves 0)
      | some p => exact (hparam _ rfl p rfl).lower s hs
    have hhandler : Lowers (Runs exits · 1 0) (do
        let param ← Pattern.lowerParam s param
        return param ++ (← Stmt.lowerList s body)) := by
      refine hparam.bind fun c hc => ?_
      exact (Stmt.lowerList_lowers hs hbody).bind fun d hd => .ok (hc.runs.append hd)
    refine (inScope_lowers scope (Stmt.hoistedList_sound hs hbody) hhandler).bind fun c hc => .ok ?_
    rintro _ ⟨⟩
    exact hc

theorem CaseClause.hoistedList_sound (hs : s.Sound) {cases : List CaseClause}
    (h : ∀ c ∈ cases, ∀ b ∈ c.consequent, b.Sound exits) :
    Hoisted.Sound (CaseClause.hoistedList s cases) := by
  induction cases with
  | nil => exact .nil
  | cons c rest ih =>
    obtain ⟨span, test, consequent⟩ := c
    exact (Stmt.hoistedList_sound hs (h _ List.mem_cons_self)).append
      (ih fun d hd => h d (List.mem_cons_of_mem _ hd))

/-- As many tests are missing as there are default clauses. -/
theorem CaseClause.lowerTests_lowers (hs : s.Sound) {cases : List CaseClause}
    (h : ∀ c ∈ cases, ∀ e ∈ c.test, e.Sound) :
    Lowers (fun tests : List (Option Code) => (∀ t, some t ∈ tests → Moves t 0 1) ∧
        (tests.filter Option.isNone).length = (cases.filter fun c => c.test.isNone).length)
      (CaseClause.lowerTests s cases) := by
  induction cases with
  | nil =>
    refine .ok ⟨?_, rfl⟩
    rintro _ ⟨⟩
  | cons c rest ih =>
    obtain ⟨span, test, consequent⟩ := c
    refine (Expr.lowerOption_lowers hs Use.noConfusion (h _ List.mem_cons_self)).bind fun o ho => ?_
    refine (ih fun d hd => h d (List.mem_cons_of_mem _ hd)).bind fun tests htests => .ok ⟨?_, ?_⟩
    · intro t ht
      rcases List.mem_cons.mp ht with heq | ht
      · exact ho.2 t heq.symm
      · exact htests.1 t ht
    · have hsame : o.isNone = test.isNone := by
        rw [← Option.not_isSome, ← Option.not_isSome, ho.1]
      rw [List.filter_cons, List.filter_cons, hsame]
      split
      · rw [List.length_cons, List.length_cons, htests.2]
      · exact htests.2

/-- The bodies of all clauses, each of which may be where a test leads to. -/
theorem CaseClause.lowerBodies_lowers (hs : s.Sound) {cases : List CaseClause}
    (h : ∀ c ∈ cases, ∀ b ∈ c.consequent, b.Sound exits) :
    Lowers (fun bodies : List Code => ∀ b ∈ bodies, Runs exits b 0 0)
    (CaseClause.lowerBodies s cases) := by
  induction cases with
  | nil =>
    refine .ok ?_
    rintro _ ⟨⟩
  | cons c rest ih =>
    obtain ⟨span, test, consequent⟩ := c
    refine (Stmt.lowerList_lowers hs (h _ List.mem_cons_self)).bind fun b hb => ?_
    refine (ih fun d hd => h d (List.mem_cons_of_mem _ hd)).bind fun bodies hbodies => .ok ?_
    intro d hd
    rcases List.mem_cons.mp hd with rfl | hd
    · exact hb
    · exact hbodies d hd

end Lists

theorem Body.Sound.block {span : Span} {directives : List Directive} {items : List Stmt}
    (h : ∀ b ∈ items, b.Sound .none) : (Body.block span directives items).Sound where
  lower s hs := by
    have hdirectives : Moves (directives.flatMap Directive.lower) 0 0 :=
      .flatMap fun _ _ => moves_of_height? rfl
    have hundefined : Moves (op .pushUndefined) 0 1 := moves_of_height? rfl
    exact (Stmt.lowerList_lowers hs h).bind fun c hc =>
      .ok ((hdirectives.append hc.moves).append hundefined)
  hoisted s hs := Stmt.hoistedList_sound hs h

theorem Body.Sound.missing : Body.missing.Sound where
  lower _ _ := .ok (moves_of_height? rfl)
  hoisted _ _ := .nil

theorem ClassElement.Sound.staticBlock {span : Span} {body : List Stmt} {env : Env}
    (h : ∀ b ∈ body, b.Sound .none) :
    (ClassElement.staticBlock span body env).Sound where
  lower s hs := by
    have hblock :=
      inScope_lowers env.scope (Stmt.hoistedList_sound hs h) (Stmt.lowerList_lowers hs h)
    exact hblock.mono fun c hc => hc.moves.lift 1
  construct _ _ _ _ rest hrest c hc := hrest c hc

/-! ## Statements -/

namespace Stmt.Sound

variable {exits : Exits} {span : Span} {e : Expr} {stmt body : Stmt}

/-- A statement that opens no frames for labels. -/
theorem of_plain (hplain : stmt.takesLabels = false)
    (hhoisted : ∀ s : CodeSite, s.Sound → Hoisted.Sound (stmt.hoisted s))
    (hlower : ∀ s : CodeSite, s.Sound → Lowers (Runs exits · 0 0) (stmt.lower s [])) :
    stmt.Sound exits where
  lower s hs labels outer h := by
    have hlabels := h.plain hplain
    subst hlabels
    exact (hlower s hs).mono fun c hc => hc.mono (h.below hplain)
  hoisted := hhoisted

/-- The statements without parts. -/
theorem atom (h : stmt.isAtom = true) : stmt.Sound exits := by
  cases stmt with
  | empty span => exact of_plain rfl (fun _ _ => .nil) fun s hs => .ok .nil
  | debugger span =>
    have hbreak : Moves (op .breakpoint) 0 0 := moves_of_height? rfl
    exact of_plain rfl (fun _ _ => .nil) fun s hs => .ok hbreak.runs
  | importDecl span specifiers source attributes =>
    refine of_plain rfl (fun _ _ => .nil) fun s hs => ?_
    refine (Node.lowerSpecifiers_lowers specifiers).bind fun c hc => .ok ?_
    exact (((importCode_moves source attributes).append hc).append (pop_moves 0)).runs
  | exportNamed span declared specifiers source attributes =>
    cases declared with
    | none =>
      exact of_plain rfl (fun _ _ => .nil) fun s hs =>
        .ok (exportCode_moves specifiers source attributes).runs
    | some declared => cases h
  | exportAll span exported source attributes =>
    refine of_plain rfl (fun _ _ => .nil) fun s hs => .ok ?_
    refine ((importCode_moves source attributes).append ?_).runs
    cases exported <;> exact moves_of_height? rfl
  | _ => cases h

theorem expression (h : e.Sound) : (Stmt.expression span e).Sound exits := by
  refine of_plain rfl (fun _ _ => .nil) fun s hs => ?_
  refine (h.value hs).bind fun c hc => .ok ?_
  have hsave : Moves (op .save) 1 1 := moves_of_height? rfl
  exact ((hc.append hsave).append (pop_moves 0)).runs

theorem block {b : Block} (h : ∀ x ∈ b.body, x.Sound exits) : (Stmt.block b).Sound exits :=
  of_plain rfl (fun _ _ => .nil) fun _ hs => Block.lower_lowers hs h

/-- Giving back or throwing a value goes nowhere in the function. -/
private theorem stop_runs {o : Opcode} (ho : o = .raise ∨ o = .giveBack) : Runs exits (op o) 1 0 :=
  fun _ σ _ => .stop ho (Nat.le_add_left 1 σ.depth)

theorem giveBack {argument : Option Expr} (h : ∀ e ∈ argument, e.Sound) :
    (Stmt.giveBack span argument).Sound exits := by
  refine of_plain rfl (fun _ _ => .nil) fun s hs => ?_
  refine (Expr.lowerOption_lowers hs Use.noConfusion h).bind fun o ho => .ok ?_
  have hvalue : Moves (o.getD (op .pushUndefined)) 0 1 := by
    cases o with
    | none => exact moves_of_height? rfl
    | some c => exact ho.2 c rfl
  exact hvalue.runs.append (stop_runs (Or.inr rfl))

theorem raise (h : e.Sound) : (Stmt.raise span e).Sound exits := by
  refine of_plain rfl (fun _ _ => .nil) fun s hs => ?_
  exact (h.value hs).bind fun c hc => .ok (hc.runs.append (stop_runs (Or.inl rfl)))

/-- A `break` leads to an exit of the surroundings, -/
theorem breakOff {label : Option Name} (h : nameText label ∈ exits .forBreak) :
    (Stmt.breakOff span label).Sound exits :=
  of_plain rfl (fun _ _ => .nil) fun _ _ => .ok (Runs.leave h)

/-- and so does a `continue`. -/
theorem carryOn {label : Option Name} (h : nameText label ∈ exits .forContinue) :
    (Stmt.carryOn span label).Sound exits :=
  of_plain rfl (fun _ _ => .nil) fun _ _ => .ok (Runs.leave h)

/-- A label waits for the statement it stands on, or gets its frame at once. -/
theorem labelled {label : Option Name} {loop : Bool} (hloop : loop = true → body.isLoop = true)
    (hbody : body.Sound (exits.labelled (nameText label) loop)) :
    (Stmt.labelled span label body).Sound exits where
  lower s hs labels outer h := by
    change Lowers _ (if body.takesLabels then _ else _)
    split
    · next htakes => exact hbody.lower s hs _ outer (h.labelled hloop htakes)
    · next htakes =>
      have hbelow := h.framing hloop (Bool.eq_false_iff.mpr htakes)
      refine (hbody.plain hs).bind fun c hc => .ok ?_
      have hframed := Runs.framed (hc.mono hbelow)
      exact hframed
  hoisted _ _ := .nil

/-- Both branches start with the value that decided between them and drop it. -/
theorem branch {test : Expr} {consequent : Stmt} {alternate : Option Stmt} (htest : test.Sound)
    (hconsequent : consequent.Sound exits) (halternate : ∀ b ∈ alternate, b.Sound exits) :
    (Stmt.branch span test consequent alternate).Sound exits := by
  refine of_plain rfl (fun _ _ => .nil) fun s hs => ?_
  have hother : Lowers (Runs exits · 0 0) (Stmt.lowerOption s alternate) := by
    cases alternate with
    | none => exact .ok .nil
    | some b => exact (halternate b rfl).plain hs
  refine (htest.value hs).bind fun c hc => ?_
  refine (hconsequent.plain hs).bind fun d hd => ?_
  exact hother.bind fun f hf => .ok (Runs.choice hc.runs hd hf)

/-- Each test keeps the value that it compares with, and the clause that is entered drops
it. -/
theorem switch {discriminant : Expr} {cases : List CaseClause} {scope : Option Scope}
    (hdiscriminant : discriminant.Sound) (htests : ∀ c ∈ cases, ∀ e ∈ c.test, e.Sound)
    (hbodies : ∀ c ∈ cases, ∀ b ∈ c.consequent, b.Sound (exits.switching []))
    (hdefaults : (cases.filter fun c => c.test.isNone).length ≤ 1) :
    (Stmt.switch span discriminant cases scope).Sound exits where
  lower s hs labels outer h := by
    have hbelow := h.switching rfl
    refine inScope_lowers scope (CaseClause.hoistedList_sound hs hbodies) ?_
    refine (hdiscriminant.value hs).bind fun c hc => ?_
    refine (CaseClause.lowerTests_lowers hs htests).bind fun tests htests => ?_
    refine (CaseClause.lowerBodies_lowers hs hbodies).bind fun bodies hbodies => ?_
    obtain ⟨code, hcode, hruns⟩ :=
      switchCode_runs hc htests.1 (fun b hb => (hbodies b hb).mono hbelow)
        (by rw [htests.2]; exact hdefaults)
    rw [hcode]
    exact .ok (breakable_runs hruns)
  hoisted _ _ := .nil

/-- The frame of a `try` is opened before its block and closed at the end of each part. -/
theorem guarded {b : Block} {handler : Option CatchClause} {finalizer : Option Block}
    (hb : ∀ x ∈ b.body, x.Sound exits) (hparam : ∀ h ∈ handler, ∀ p ∈ h.param, p.Sound)
    (hhandler : ∀ h ∈ handler, ∀ x ∈ h.body, x.Sound exits) (hfinalizer : ∀ f ∈ finalizer,
      ∀ x ∈ f.body, x.Sound exits) : (Stmt.guarded span b handler finalizer).Sound exits := by
  refine of_plain rfl (fun _ _ => .nil) fun s hs => ?_
  refine (Block.lower_lowers hs hb).bind fun c hc => ?_
  refine (CatchClause.lowerOption_lowers hs hparam hhandler).bind fun d hd => ?_
  have hlast : Lowers (fun o : Option Code => ∀ c ∈ o, Runs exits c 0 0)
      (Block.lowerOption s finalizer) := by
    cases finalizer with
    | none =>
      refine .ok ?_
      rintro _ ⟨⟩
    | some f =>
      refine (Block.lower_lowers hs (hfinalizer f rfl)).bind fun c hc => .ok ?_
      rintro _ ⟨⟩
      exact hc
  exact hlast.bind fun f hf => .ok (tryCode_runs hc hd hf)

/-! ### Loops -/

/-- The body of a loop inside the frames of a turn. -/
private theorem turn_runs {outer : Exits} {labels : List String} {c : Code}
    (h : stmt.Reaches exits labels outer) (hc : Runs (exits.looping []) c 0 0) :
    Runs (outer.more .forBreak (labels ++ [""])) (turnCode labels c) 0 0 :=
  turnCode_runs (hc.mono h.looping)

/-- A loop comes back to its test with the stack as it was. -/
theorem whileLoop {test : Expr} (htest : test.Sound) (hbody : body.Sound (exits.looping [])) :
    (Stmt.whileLoop span test body).Sound exits where
  lower s hs labels outer h := by
    refine (htest.value hs).bind fun c hc => ?_
    exact (hbody.plain hs).bind fun d hd =>
      .ok (breakable_runs (whileCode_runs hc.runs (turn_runs h hd)))
  hoisted _ _ := .nil

theorem doWhile {test : Expr} (hbody : body.Sound (exits.looping [])) (htest : test.Sound) :
    (Stmt.doWhile span body test).Sound exits where
  lower s hs labels outer h := by
    refine (hbody.plain hs).bind fun d hd => ?_
    exact (htest.value hs).bind fun c hc =>
      .ok (breakable_runs (doWhileCode_runs (turn_runs h hd) hc.runs))
  hoisted _ _ := .nil

/-- Head, test and update each leave the stack as it was. -/
theorem forLoop {init : Option Node} {test update : Option Expr} {scope : Option Scope}
    (hinit : ∀ n ∈ init, n.Sound) (htest : ∀ e ∈ test, e.Sound) (hupdate : ∀ e ∈ update, e.Sound)
    (hbody : body.Sound (exits.looping [])) :
    (Stmt.forLoop span init test update body scope).Sound exits where
  lower s hs labels outer h := by
    have hstart : Lowers (Moves · 0 0) (Node.lowerStart s init) := by
      cases init with
      | none => exact .ok .nil
      | some n => exact (hinit n rfl).start s hs
    refine inScope_lowers scope .nil ?_
    refine hstart.bind fun c hc => ?_
    refine (Expr.lowerOption_lowers hs Use.noConfusion htest).bind fun t ht => ?_
    refine (hbody.plain hs).bind fun d hd => ?_
    refine (Expr.lowerOption_lowers hs Use.noConfusion hupdate).bind fun u hu => .ok ?_
    have hstep : Moves ((u.map (· ++ op .pop)).getD []) 0 0 := by
      cases u with
      | none => exact .nil
      | some f => exact (hu.2 f rfl).append (pop_moves 0)
    have hloop := forCode_runs (fun f hf => (ht.2 f hf).runs) ((turn_runs h hd).append hstep.runs)
    exact hc.runs.append (breakable_runs hloop)
  hoisted _ _ := .nil

/-- A loop over a collection: a turn takes its value off the iterator and stores it. -/
private theorem each_lowers {s : CodeSite} (hs : s.Sound) {left : Node} {scope : Option Scope}
    {labels : List String} {outer : Exits} (h : stmt.Reaches exits labels outer)
    (hleft : left.Sound) (hbody : body.Sound (exits.looping [])) :
    Lowers (Runs (outer.more .forBreak (labels ++ [""])) · 2 1) (inScope scope [] do
      let target ← Node.lowerBind s left
      return target ++ turnCode labels (← body.lower s [])) := by
  refine inScope_lowers scope .nil ?_
  refine (hleft.bind s hs).bind fun c hc => ?_
  exact (hbody.plain hs).bind fun d hd => .ok ((hc.lift 1).runs.append ((turn_runs h hd).lift 1))

/-- A loop over keys keeps its iterator on the stack while the body runs, -/
theorem forIn {left : Node} {right : Expr} {scope : Option Scope} (hleft : left.Sound)
    (hright : right.Sound) (hbody : body.Sound (exits.looping [])) :
    (Stmt.forIn span left right body scope).Sound exits where
  lower s hs labels outer h := by
    refine (hright.value hs).bind fun c hc => ?_
    refine (each_lowers hs h hleft hbody).bind fun d hd => .ok ?_
    have hkeys : Moves (op .keys) 1 1 := moves_of_height? rfl
    have hiterator : Moves (op .iterator) 1 1 := moves_of_height? rfl
    have hloop := breakable_runs (eachCode_runs (Or.inl rfl) hd)
    exact (((hc.append hkeys).append hiterator).runs.append hloop).append (pop_moves 0).runs
  hoisted _ _ := .nil

/-- and so does a loop over values. -/
theorem forOf {left : Node} {right : Expr} {await : Bool} {scope : Option Scope}
    (hleft : left.Sound) (hright : right.Sound) (hbody : body.Sound (exits.looping [])) :
    (Stmt.forOf span left right body await scope).Sound exits where
  lower s hs labels outer h := by
    refine (hright.value hs).bind fun c hc => ?_
    refine (each_lowers hs h hleft hbody).bind fun d hd => .ok ?_
    have hiterator : Moves (op (if await then .asyncIterator else .iterator)) 1 1 := by
      cases await <;> exact moves_of_height? rfl
    have hadvance : (if await then Opcode.awaitNext else .next) = .next ∨
        (if await then Opcode.awaitNext else .next) = .awaitNext := by
      cases await
      · exact Or.inl rfl
      · exact Or.inr rfl
    have hloop := breakable_runs (eachCode_runs hadvance hd)
    exact ((hc.append hiterator).runs.append hloop).append (pop_moves 0).runs
  hoisted _ _ := .nil

/-! ### Declarations -/

theorem declaration {d : VarDecl} (h : d.Sound) : (Stmt.declaration d).Sound exits :=
  of_plain rfl (fun _ _ => .nil) fun _ hs => (h.lower hs).mono fun _ hc => hc.runs

/-- A function that is declared has no code where it stands. -/
theorem function {f : Function} (h : f.Sound) : (Stmt.function span f).Sound exits := by
  refine of_plain rfl (fun s hs => ?_) fun _ _ => .ok .nil
  intro x hx
  cases List.mem_singleton.mp hx
  exact h.lower s hs .value

theorem classDecl {c : Class} (h : c.Sound) : (Stmt.classDecl span c).Sound exits := by
  refine of_plain rfl (fun _ _ => .nil) fun s hs => ?_
  refine (h s hs .value).bind fun d hd => .ok ?_
  exact ((hd.append (store_moves _)).append (pop_moves 0)).runs

theorem exportNamed {declared : Stmt} {specifiers : List ExportSpecifier}
    {source : Option StringLiteral} {attributes : List ImportAttribute} (h : declared.Sound exits) :
    (Stmt.exportNamed span (some declared) specifiers source attributes).Sound exits := by
  refine of_plain rfl (fun s hs => h.hoisted s hs) fun s hs => ?_
  refine (h.plain hs).bind fun c hc => .ok ?_
  have hnames : Moves (declared.declaredNames.flatMap fun n : String => text .load n ++
      text .exportName n) 0 0 :=
    .flatMap fun _ _ => moves_of_height? rfl
  exact hc.append hnames.runs

theorem exportDefault {declared : Node} (h : declared.Sound) :
    (Stmt.exportDefault span declared).Sound exits := by
  refine of_plain rfl (fun s hs => h.hoisted s hs span) fun s hs => ?_
  have hexport : Moves (text .exportName "default") 1 0 := moves_of_height? rfl
  exact (h.default s hs span).bind fun c hc => .ok (hc.append hexport).runs

end Stmt.Sound

end EcmaStack

import EcmaStack.Proofs.Control.Realized

/-!
# The code of control flow

The code of a statement that is made of control flow around expressions realizes what the
statement means, inside the frames of the labels that wait on it. Each kind of statement has its
law; they are put together by induction on how the statement is resolved.
-/

namespace EcmaStack

mutual

/-- Whether a statement is made of nothing but control flow around expressions. -/
def Stmt.isControl : Stmt → Bool
  | .expression _ _ | .empty _ | .giveBack _ _ | .breakOff _ _ | .carryOn _ _ => true
  | .block b => Block.isControl b
  | .labelled _ _ body | .whileLoop _ _ body | .doWhile _ body _ | .forLoop _ _ _ _ body _ =>
    body.isControl
  | .branch _ _ consequent alternate => consequent.isControl && Stmt.optionIsControl alternate
  | .switch _ _ cases _ => CaseClause.areControl cases
  | _ => false

/-- A block is made of control if its statements are, -/
def Block.isControl : Block → Bool
  | ⟨_, body, _⟩ => Stmt.areControl body

/-- what is not there is, -/
def Stmt.optionIsControl : Option Stmt → Bool
  | none => true
  | some stmt => stmt.isControl

/-- a list is if each of its statements is, -/
def Stmt.areControl : List Stmt → Bool
  | [] => true
  | stmt :: rest => stmt.isControl && Stmt.areControl rest

/-- and the clauses of a switch are if their bodies are. -/
def CaseClause.areControl : List CaseClause → Bool
  | [] => true
  | ⟨_, _, consequent⟩ :: rest => Stmt.areControl consequent && CaseClause.areControl rest

end

/-- What the code of a statement does, and how the statement leaves. -/
structure Stmt.Performed (exits : Exits) (stmt : Stmt) : Prop where
  lower : ∀ s : CodeSite, s.Sound → ∀ labels, (stmt.takesLabels = false → labels = []) →
    Makes (Realizes s fun _ o fuel trace => (stmt.run o fuel labels trace).catching .forBreak
      labels)
      (stmt.lower s labels)
  plain : stmt.takesLabels = false → ∀ (V : Type) (o : Oracle V) fuel labels trace,
    stmt.run o fuel labels trace = stmt.run o fuel [] trace
  leaves : ∀ (V : Type) (o : Oracle V) fuel labels trace, (stmt.run o fuel labels trace).LeavesBy
    fun kind label =>
    label ∈ exits kind ∧ (stmt.isLoop = true → kind = .forContinue → label ∉ labels)
  hoisted : ∀ s, stmt.hoisted s = []

/-! ## Lists -/

section Lists

variable {s : CodeSite} {exits : Exits}

namespace Stmt

/-- Each statement of a list made of control is made of control. -/
theorem mem_of_areControl {list : List Stmt} (h : areControl list = true) :
    ∀ b ∈ list, b.isControl = true := by
  induction list with
  | nil => exact fun _ hb => nomatch hb
  | cons b rest ih =>
    obtain ⟨hb, hrest⟩ := Bool.and_eq_true_iff.mp h
    exact List.forall_mem_cons.mpr ⟨hb, ih hrest⟩

/-- The statement without labels on it. -/
theorem Performed.alone {stmt : Stmt} (h : stmt.Performed exits) (hs : s.Sound) :
    Makes (Realizes s fun _ o fuel trace => stmt.run o fuel [] trace) (stmt.lower s []) :=
  (h.lower s hs [] fun _ => rfl).mono fun _ hc => hc.congr fun _ _ _ _ => Course.catching_nil _ _

/-- A statement leaves by the labels that are in force around it and by no others. -/
theorem Performed.leavesAlone {stmt : Stmt} (h : stmt.Performed exits) {V : Type} (o : Oracle V)
    (fuel : Nat) (trace : List Site) :
    (stmt.run o fuel [] trace).LeavesBy fun kind label => label ∈ exits kind :=
  (h.leaves V o fuel [] trace).mono fun _ _ hleave => hleave.1

/-- A list of statements realizes their courses one after the other, by induction on the
list. -/
theorem lowerList_realizes (hs : s.Sound) {list : List Stmt} (h : ∀ b ∈ list, b.Performed exits) :
    Makes (Realizes s fun _ o fuel => Stmt.runList o fuel list) (Stmt.lowerList s list) := by
  induction list with
  | nil => exact .ok .nil
  | cons b rest ih =>
    obtain ⟨hb, hrest⟩ := List.forall_mem_cons.mp h
    exact (hb.alone hs).bind fun c hc => (ih hrest).bind fun d hd => .ok (hc.append hd)

/-- The list leaves as its statements do. -/
theorem runList_leaves {V : Type} {o : Oracle V} {fuel : Nat} {list : List Stmt}
    (h : ∀ b ∈ list, b.Performed exits) (trace : List Site) :
    (Stmt.runList o fuel list trace).LeavesBy fun kind label => label ∈ exits kind := by
  induction list generalizing trace with
  | nil => exact .normal
  | cons b rest ih =>
    obtain ⟨hb, hrest⟩ := List.forall_mem_cons.mp h
    exact (hb.leavesAlone o fuel trace).andThen fun trace => ih hrest trace

/-- Statements made of control hoist nothing. -/
theorem hoistedList_eq_nil {list : List Stmt} (h : ∀ b ∈ list, b.Performed exits) :
    Stmt.hoistedList s list = [] := by
  induction list with
  | nil => rfl
  | cons b rest ih =>
    obtain ⟨hb, hrest⟩ := List.forall_mem_cons.mp h
    rw [Stmt.hoistedList, hb.hoisted, ih hrest]
    rfl

end Stmt

end Lists

namespace Stmt.Performed

variable {exits : Exits} {span : Span} {stmt body : Stmt} {e : Expr}

/-- A statement that no labels wait on. -/
theorem of_alone (hlower : ∀ s : CodeSite, s.Sound →
      Makes (Realizes s fun _ o fuel trace => stmt.run o fuel [] trace) (stmt.lower s []))
    (hleaves : ∀ (V : Type) (o : Oracle V) fuel trace,
      (stmt.run o fuel [] trace).LeavesBy fun kind label => label ∈ exits kind)
    (hplain : ∀ (V : Type) (o : Oracle V) fuel labels trace, stmt.run o fuel labels trace =
      stmt.run o fuel [] trace)
    (htakes : stmt.takesLabels = false) (hhoisted : ∀ s, stmt.hoisted s = []) :
    stmt.Performed exits where
  lower s hs labels hlabels := by
    rw [hlabels htakes]
    exact (hlower s hs).mono fun _ hc => hc.congr fun _ _ _ _ => (Course.catching_nil _ _).symm
  plain _ := hplain
  leaves V o fuel labels trace := by
    rw [hplain]
    refine (hleaves V o fuel trace).mono fun kind label hmem => ⟨hmem, fun hloop => ?_⟩
    exact absurd (Stmt.takesLabels_of_isLoop hloop) (by rw [htakes]; exact Bool.false_ne_true)
  hoisted := hhoisted

/-- Statement by statement: what is made of parts that are performed is performed. -/
theorem empty : (Stmt.empty span).Performed exits :=
  .of_alone (fun _ _ => .ok .nil) (fun _ _ _ _ => .normal) (fun _ _ _ _ _ => rfl) rfl fun _ => rfl

theorem expression (h : e.Sound) : (Stmt.expression span e).Performed exits :=
  .of_alone (fun _ hs => (h.evaluated hs).bind fun _ hc => .ok (.expression hc))
    (fun _ _ _ _ => .normal)
    (fun _ _ _ _ _ => rfl) rfl fun _ => rfl

/-- A block runs inside a scope of its own. -/
theorem block {b : Block} (h : ∀ x ∈ b.body, x.Performed exits) :
    (Stmt.block b).Performed exits := by
  obtain ⟨span, body, scope⟩ := b
  refine .of_alone (fun s hs => ?_) (fun V o fuel trace => runList_leaves h trace)
    (fun _ _ _ _ _ => rfl) rfl fun _ => rfl
  change Makes _ (inScope scope (Stmt.hoistedList s body) (Stmt.lowerList s body))
  rw [hoistedList_eq_nil h]
  exact .inScope (lowerList_realizes hs h)

theorem giveBack {argument : Option Expr} (h : ∀ e ∈ argument, e.Sound) :
    (Stmt.giveBack span argument).Performed exits := by
  refine .of_alone (fun s hs => ?_) (fun V o fuel trace => ?_) (fun _ _ _ _ _ => rfl) rfl
    fun _ => rfl
  · refine (Expr.lowerOption_evaluated h hs).bind fun c hc => .ok ?_
    cases hc with
    | none => exact .giveBackNothing
    | some hc => exact .giveBack hc
  · cases argument with
    | none => exact .giveBack
    | some e => exact .giveBack

/-- A break needs the label that it names to be in force, or a loop or a switch around it; -/
theorem breakOff {label : Option Name} (h : nameText label ∈ exits .forBreak) :
    (Stmt.breakOff span label).Performed exits :=
  .of_alone (fun _ _ => .ok (.leave .forBreak _)) (fun _ _ _ _ => .leave h) (fun _ _ _ _ _ => rfl)
    rfl fun _ => rfl

/-- a continue needs a loop. -/
theorem carryOn {label : Option Name} (h : nameText label ∈ exits .forContinue) :
    (Stmt.carryOn span label).Performed exits :=
  .of_alone (fun _ _ => .ok (.leave .forContinue _)) (fun _ _ _ _ => .leave h)
    (fun _ _ _ _ _ => rfl) rfl fun _ => rfl

/-- A branch without an alternative does nothing the other way. -/
theorem branch {consequent : Stmt} {alternate : Option Stmt} (htest : e.Sound)
    (hyes : consequent.Performed exits) (hno : ∀ b ∈ alternate, b.Performed exits) :
    (Stmt.branch span e consequent alternate).Performed exits := by
  have halternate : ∀ s : CodeSite, s.Sound →
      Makes (Realizes s fun _ o fuel => Stmt.runOption o fuel alternate)
        (Stmt.lowerOption s alternate) := by
    intro s hs
    cases alternate with
    | none => exact .ok .nil
    | some b => exact (hno b rfl).alone hs
  refine .of_alone (fun s hs => ?_) (fun V o fuel trace => ?_) (fun _ _ _ _ _ => rfl) rfl
    fun _ => rfl
  · refine (htest.evaluated hs).bind fun c hc => ?_
    exact (hyes.alone hs).bind fun yes hyes => (halternate s hs).bind fun no hno =>
      .ok (.choice hc hyes hno)
  · rw [Stmt.run, evaluating]
    split
    · exact hyes.leavesAlone o fuel _
    · cases alternate with
      | none => exact .normal
      | some b => exact (hno b rfl).leavesAlone o fuel _

/-- A label catches what leaves by it, and a loop it stands on takes it for its own. -/
theorem labelled {label : Option Name} {loop : Bool} (hloop : loop = true → body.isLoop = true)
    (hbody : body.Performed (exits.labelled (nameText label) loop)) :
    (Stmt.labelled span label body).Performed exits where
  lower s hs labels _ := by
    change Makes _ (if body.takesLabels then body.lower s (labels ++ [nameText label])
      else do return Code.framed .pushBreakLabel (labels ++ [nameText label]) (← body.lower s []))
    split
    · next htakes =>
      refine (hbody.lower s hs (labels ++ [nameText label]) fun hplain => absurd htakes ?_).mono
        fun c hc =>
        hc.congr fun V o fuel trace => (Course.catching_append _ _ _ _).symm
      rw [hplain]
      exact Bool.false_ne_true
    · next htakes =>
      refine (hbody.alone hs).bind fun c hc =>
        .ok ((hc.framed .forBreak (labels ++ [nameText label])).congr ?_)
      intro V o fuel trace
      rw [← hbody.plain (Bool.eq_false_iff.mpr htakes) V o fuel (labels ++
        [nameText label]), ← Course.catching_append]
      rfl
  plain hplain := nomatch hplain
  leaves V o fuel labels trace := by
    refine (hbody.leaves V o fuel (labels ++ [nameText label]) trace).catching.mono ?_
    rintro kind l ⟨⟨hexits, hown⟩, hcaught⟩
    refine ⟨?_, fun h => nomatch h⟩
    rcases hexits with ⟨rfl, hl⟩ | ⟨rfl, hl⟩ | hl
    · split at hl
      · next hyes => exact absurd (List.mem_append_right labels hl) (hown (hloop hyes) rfl)
      · cases hl
    · exact absurd ⟨rfl, hl⟩ hcaught
    · exact hl
  hoisted _ := rfl

/-! ### Loops -/

/-- One turn of a loop leaves by the exits around the loop, and by its own for `break`. -/
private theorem turn_leaves (hbody : body.Performed (exits.looping [])) {V : Type} (o : Oracle V)
    (fuel : Nat) (labels : List String) (trace : List Site) :
    ((body.run o fuel [] trace).catching .forContinue (labels ++ [""])).LeavesBy fun kind label =>
      label ∈ exits.more .forBreak [""] kind ∧ ¬(kind = .forContinue ∧ label ∈ labels) := by
  refine (hbody.leavesAlone o fuel trace).catching.mono ?_
  rintro kind l ⟨hexits, hcaught⟩
  refine ⟨?_, fun h => hcaught ⟨h.1, List.mem_append_left _ h.2⟩⟩
  rcases hexits with ⟨rfl, hl⟩ | hl
  · exact absurd ⟨rfl, List.mem_append_right labels hl⟩ hcaught
  · exact hl

/-- A loop catches its own `break`. -/
private theorem loop_leaves {V : Type} {labels : List String} {c : Course V}
    (h : c.LeavesBy fun kind label => label ∈ exits.more .forBreak [""] kind ∧
      ¬(kind = .forContinue ∧ label ∈ labels)) :
    (c.catching .forBreak [""]).LeavesBy fun kind label =>
      label ∈ exits kind ∧ (stmt.isLoop = true → kind = .forContinue → label ∉ labels) := by
  refine h.catching.mono ?_
  rintro kind l ⟨⟨hexits, hown⟩, hcaught⟩
  exact ⟨hexits.resolve_left hcaught, fun _ hkind hl => hown ⟨hkind, hl⟩⟩

/-- The body of a loop may leave by the loop's own labels, which the loop catches. -/
theorem whileLoop (htest : e.Sound) (hbody : body.Performed (exits.looping [])) :
    (Stmt.whileLoop span e body).Performed exits where
  lower s hs labels _ := by
    refine (htest.evaluated hs).bind fun c hc => (hbody.alone hs).bind fun d hd => .ok ?_
    have hturn := hd.framed .forContinue (labels ++ [""])
    have hloop := (Realizes.repeated hc .nil hturn).framed .forBreak (labels ++ [""])
    exact hloop.congr fun V o fuel trace => (Course.catching_append _ _ _ _).symm
  plain hplain := nomatch hplain
  leaves V o fuel labels trace := by
    refine loop_leaves (.loopTurns (fun fuel trace next hnext => ?_) fuel)
    exact .testing fun trace => (turn_leaves hbody o fuel labels trace).andThen hnext
  hoisted _ := rfl

theorem doWhile (hbody : body.Performed (exits.looping [])) (htest : e.Sound) :
    (Stmt.doWhile span body e).Performed exits where
  lower s hs labels _ := by
    refine (hbody.alone hs).bind fun d hd => (htest.evaluated hs).bind fun c hc => .ok ?_
    have hturn := hd.framed .forContinue (labels ++ [""])
    have hloop := (Realizes.repeated hc hturn .nil).framed .forBreak (labels ++ [""])
    exact hloop.congr fun V o fuel trace => (Course.catching_append _ _ _ _).symm
  plain hplain := nomatch hplain
  leaves V o fuel labels trace := by
    refine loop_leaves (.loopTurns (fun fuel trace next hnext => ?_) fuel)
    exact (turn_leaves hbody o fuel labels trace).andThen fun trace => .testing hnext
  hoisted _ := rfl

end Stmt.Performed

/-- A declaration has code where one of its targets gets a value. -/
theorem Declarator.lowerList_present {s : CodeSite} (hs : s.Sound) {kind : DeclKind}
    {list : List Declarator} (h : ∀ d ∈ list, ∀ e ∈ d.initializer, e.Sound) :
    Makes (fun c : Code => (list.any fun d => d.initializer.isSome || kind != .var) = true ↔ c ≠ [])
      (Declarator.lowerList s kind list) := by
  induction list with
  | nil => exact .ok ⟨fun h => (nomatch h), fun h => absurd rfl h⟩
  | cons d rest ih =>
    obtain ⟨span, target, initializer⟩ := d
    obtain ⟨hinitializer, hrest⟩ := List.forall_mem_cons.mp h
    refine (Makes.of_lowers (Expr.lowerOption_lowers hs target.use_ne_link hinitializer)).bind
      fun o ho => ?_
    have hvalue : o.getD (Code.op .pushUndefined) ≠ [] := by
      cases o with
      | none => exact List.cons_ne_nil _ _
      | some c => exact (ho.2 c rfl).ne_nil
    have hskip : (o.isNone && kind == .var) = !(initializer.isSome || kind != .var) := by
      rw [Bool.not_or, ← ho.1, Option.not_isSome, bne, Bool.not_not]
    dsimp only
    rw [hskip, List.any_cons]
    cases initializer.isSome || kind != .var with
    | false => exact (ih hrest).bind fun d hd => .ok hd
    | true =>
      refine Makes.skip fun bound => Makes.skip fun code => .ok ⟨fun _ => ?_, fun _ => rfl⟩
      exact List.append_ne_nil_of_left_ne_nil (List.append_ne_nil_of_left_ne_nil hvalue _) _

/-- The head of a counted loop. -/
theorem Node.lowerStart_realizes {s : CodeSite} (hs : s.Sound) {init : Option Node}
    (h : ∀ n ∈ init, n.Resolved) :
    Makes (Realizes s fun _ _ _ trace => (evaluatingHead init trace, .normal))
    (Node.lowerStart s init) := by
  cases init with
  | none => exact .ok .nil
  | some n =>
    suffices hpresent :
        Makes (fun c : Code => n.evaluates = true ↔ c ≠ []) (Node.lowerStart s (some n)) by
      intro c hc
      by_cases hevaluates : n.evaluates = true
      · simp only [evaluatingHead, if_pos hevaluates]
        exact .start hc ((hpresent c hc).mp hevaluates)
      · simp only [evaluatingHead, if_neg hevaluates]
        rw [not_not.mp (mt (hpresent c hc).mpr hevaluates)]
        exact .nil
    have hresolved := h n rfl
    cases hresolved with
    | @declaration d hd =>
      obtain ⟨span, kind, list⟩ := d
      exact Declarator.lowerList_present hs hd.sound.initializers
    | expr he =>
      exact Makes.skip fun c =>
        .ok ⟨fun _ => List.append_ne_nil_of_right_ne_nil c (List.cons_ne_nil _ _), fun _ => rfl⟩
    | function hf => exact .ok ⟨fun h => (nomatch h), fun h => absurd rfl h⟩
    | classDecl hc => exact .ok ⟨fun h => (nomatch h), fun h => absurd rfl h⟩
    | pattern hp => exact .ok ⟨fun h => (nomatch h), fun h => absurd rfl h⟩

/-- The tests of a switch, which keep the order of their clauses. -/
theorem CaseClause.lowerTests_tested {s : CodeSite} (hs : s.Sound) {cases : List CaseClause}
    (h : ∀ c ∈ cases, ∀ e ∈ c.test, e.Sound) :
    Makes (fun codes => ∃ tests : List (Option Tested), tests.map (·.map Tested.code) = codes ∧
        tests.map (·.map Tested.expr) = cases.map CaseClause.test ∧
        ∀ t, some t ∈ tests → t.expr.Evaluated s t.code)
      (CaseClause.lowerTests s cases) := by
  induction cases with
  | nil => exact .ok ⟨[], rfl, rfl, fun _ ht => (nomatch ht)⟩
  | cons c rest ih =>
    obtain ⟨span, test, consequent⟩ := c
    obtain ⟨htest, hrest⟩ := List.forall_mem_cons.mp h
    refine (Expr.lowerOption_evaluated htest hs).bind fun code hcode =>
      (ih hrest).bind fun codes hcodes => .ok ?_
    obtain ⟨tests, rfl, hexprs, hevaluated⟩ := hcodes
    cases hcode with
    | none =>
      refine ⟨none :: tests, rfl, congrArg (none :: ·) hexprs, fun t ht => hevaluated t ?_⟩
      exact (List.mem_cons.mp ht).resolve_left (Option.some_ne_none t)
    | @some e code he =>
      refine ⟨some ⟨e, code, he.present⟩ :: tests, rfl, congrArg (some e :: ·) hexprs,
        fun t ht => ?_⟩
      rcases List.mem_cons.mp ht with heq | hmem
      · cases heq
        exact he
      · exact hevaluated t hmem

/-- The bodies of a switch realize their courses clause by clause. -/
theorem CaseClause.lowerBodies_realizes {s : CodeSite} {exits : Exits} (hs : s.Sound)
    {cases : List CaseClause} (h : ∀ c ∈ cases, ∀ b ∈ c.consequent, b.Performed exits) :
    Makes (List.Forall₂ (fun c (k : CaseClause) => Realizes s
      (fun _ o fuel => Stmt.runList o fuel k.consequent) c) · cases)
      (CaseClause.lowerBodies s cases) := by
  induction cases with
  | nil => exact .ok .nil
  | cons c rest ih =>
    obtain ⟨span, test, consequent⟩ := c
    obtain ⟨hbody, hrest⟩ := List.forall_mem_cons.mp h
    exact (Stmt.lowerList_realizes hs hbody).bind fun code hcode =>
      (ih hrest).bind fun codes hcodes =>
      .ok (.cons hcode hcodes)

theorem CaseClause.hoistedList_eq_nil {s : CodeSite} {exits : Exits} {cases : List CaseClause}
    (h : ∀ c ∈ cases, ∀ b ∈ c.consequent, b.Performed exits) :
    CaseClause.hoistedList s cases = [] := by
  induction cases with
  | nil => rfl
  | cons c rest ih =>
    obtain ⟨span, test, consequent⟩ := c
    obtain ⟨hbody, hrest⟩ := List.forall_mem_cons.mp h
    rw [CaseClause.hoistedList, Stmt.hoistedList_eq_nil hbody, ih hrest]
    rfl

/-- A part after another one is the same however the parts are grouped. -/
theorem Course.andThen_assoc {V : Type} (c : Course V) (f g : List Site → Course V) :
    (c.andThen f).andThen g = c.andThen fun trace => (f trace).andThen g := by
  obtain ⟨trace, completion⟩ := c
  cases completion <;> rfl

namespace Stmt.Performed

variable {exits : Exits} {span : Span} {body : Stmt} {e : Expr}

/-- The parts of the head are evaluated where they stand: once, before each turn and after
it. -/
theorem forLoop {init : Option Node} {test update : Option Expr} {scope : Option Scope}
    (hinit : ∀ n ∈ init, n.Resolved) (htest : ∀ e ∈ test, e.Sound) (hupdate : ∀ e ∈ update, e.Sound)
    (hbody : body.Performed (exits.looping [])) :
    (Stmt.forLoop span init test update body scope).Performed exits where
  lower s hs labels _ := by
    refine .inScope ((Node.lowerStart_realizes hs hinit).bind fun start hstart => ?_)
    refine (Expr.lowerOption_evaluated htest hs).bind fun t ht =>
      (hbody.alone hs).bind fun c hc => ?_
    refine (Expr.lowerOption_evaluated hupdate hs).bind fun u hu => .ok ?_
    have hstep : Realizes s (fun _ _ _ trace => (evaluatingAny update trace, .normal))
        ((u.map (· ++ Code.op .pop)).getD []) := by
      cases hu with
      | none => exact .nil
      | some hu => exact .evaluated hu
    -- The update stands outside the frame that catches `continue`, so that it is done then as
    -- well.
    have hturn := (hc.framed .forContinue (labels ++ [""])).append hstep
    have hloop :
        Realizes s (fun _ o => loopTurns fun fuel trace next => testing o test trace fun trace =>
        (((body.run o fuel [] trace).catching .forContinue (labels ++ [""])).andThen fun trace =>
          next (evaluatingAny update trace)))
          (forCode t (turnCode labels c ++ (u.map (· ++ Code.op .pop)).getD [])) := by
      cases ht with
      | none =>
        have h := hturn.forever
        simp only [Course.andThen_assoc] at h
        exact h
      | some ht =>
        have h := Realizes.repeated ht .nil hturn
        simp only [Course.andThen_assoc] at h
        exact h
    exact (hstart.append (hloop.framed .forBreak (labels ++ [""]))).congr fun V o fuel trace =>
      (Course.catching_append _ _ _ _).symm
  plain hplain := nomatch hplain
  leaves V o fuel labels trace := by
    refine loop_leaves (.loopTurns (fun fuel trace next hnext => ?_) fuel)
    exact .testing fun trace => (turn_leaves hbody o fuel labels trace).andThen fun trace => hnext _
  hoisted _ := rfl

/-- A switch selects a clause and runs the bodies from there on. -/
theorem switch {cases : List CaseClause} {scope : Option Scope} (hdiscriminant : e.Sound)
    (htests : ∀ c ∈ cases, ∀ e ∈ c.test, e.Sound)
    (hbodies : ∀ c ∈ cases, ∀ b ∈ c.consequent, b.Performed (exits.switching [])) :
    (Stmt.switch span e cases scope).Performed exits where
  lower s hs labels _ := by
    change Makes _ (inScope scope (CaseClause.hoistedList s cases) _)
    rw [CaseClause.hoistedList_eq_nil hbodies]
    refine .inScope ((hdiscriminant.evaluated hs).bind fun c hc => ?_)
    refine (CaseClause.lowerTests_tested hs htests).bind fun codes hcodes => ?_
    obtain ⟨tests, rfl, hexprs, hevaluated⟩ := hcodes
    refine (CaseClause.lowerBodies_realizes hs hbodies).bind fun bodies hall => ?_
    refine (Realizes.switch hc hexprs hevaluated hall).bind fun d hd => .ok ?_
    refine (hd.framed .forBreak (labels ++ [""])).congr fun V o fuel trace => ?_
    rw [← Course.catching_append]
    rfl
  plain hplain := nomatch hplain
  leaves V o fuel labels trace := by
    have hrun :
        ∀ first trace, (inTurn ((CaseClause.courses o fuel cases).drop first) trace).LeavesBy
        fun kind label =>
        label ∈ exits.switching [] kind := by
      intro first trace
      refine .inTurn fun part hpart trace => ?_
      rw [CaseClause.courses_eq] at hpart
      obtain ⟨c, hc, rfl⟩ := List.mem_map.mp (List.mem_of_mem_drop hpart)
      exact runList_leaves (hbodies c hc) trace
    refine (hrun _ _).catching.mono ?_
    rintro kind l ⟨hexits, hcaught⟩
    exact ⟨hexits.resolve_left hcaught, fun hloop => nomatch hloop⟩
  hoisted _ := rfl

end Stmt.Performed

/-- Each statement of a clause made of control is made of control. -/
theorem CaseClause.mem_of_areControl {cases : List CaseClause} (h : areControl cases = true) :
    ∀ c ∈ cases, ∀ b ∈ c.consequent, b.isControl = true := by
  induction cases with
  | nil => exact fun _ hc => nomatch hc
  | cons c rest ih =>
    obtain ⟨span, test, consequent⟩ := c
    obtain ⟨hbody, hrest⟩ := Bool.and_eq_true_iff.mp h
    exact List.forall_mem_cons.mpr ⟨Stmt.mem_of_areControl hbody, ih hrest⟩

/-- The code of control flow does what it means. -/
theorem Stmt.Resolved.performed {exits : Exits} {stmt : Stmt} :
    stmt.Resolved exits → (stmt.isControl = true → stmt.Performed exits)
  | .atom h => by
    intro hcontrol
    cases stmt with
    | empty span => exact .empty
    | _ => first | cases h; done | cases hcontrol
  | .expression he => fun _ => .expression he.sound
  | .block h =>
    fun hcontrol => .block fun b hb => (h b hb).performed (Stmt.mem_of_areControl hcontrol b hb)
  | .giveBack h => fun _ => .giveBack fun e he => (h e he).sound
  | .labelled _ hloop h => fun hcontrol => .labelled hloop (h.performed hcontrol)
  | .breakOff h => fun _ => .breakOff h
  | .carryOn h => fun _ => .carryOn h
  | .branch htest hyes hno => fun hcontrol => by
    obtain ⟨hconsequent, halternate⟩ := Bool.and_eq_true_iff.mp hcontrol
    refine .branch htest.sound (hyes.performed hconsequent) fun b hb => (hno b hb).performed ?_
    cases hb
    exact halternate
  | .switch he htests hbodies _ => fun hcontrol =>
    .switch he.sound (fun c hc e he => (htests c hc e he).sound) fun c hc b hb =>
      (hbodies c hc b hb).performed (CaseClause.mem_of_areControl hcontrol c hc b hb)
  | .whileLoop htest h => fun hcontrol => .whileLoop htest.sound (h.performed hcontrol)
  | .doWhile h htest => fun hcontrol => .doWhile (h.performed hcontrol) htest.sound
  | .forLoop hinit htest hupdate h => fun hcontrol =>
    .forLoop hinit (fun e he => (htest e he).sound) (fun e he => (hupdate e he).sound)
      (h.performed hcontrol)
  | .raise _ | .guarded _ _ _ _ | .forIn _ _ _ | .forOf _ _ _ | .declaration _ | .function _
  | .classDecl _ | .exportNamed _ | .exportDefault _ => fun hcontrol => nomatch hcontrol

end EcmaStack

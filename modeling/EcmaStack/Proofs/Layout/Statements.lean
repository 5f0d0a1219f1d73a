import EcmaStack.Proofs.Layout.Expressions

/-!
# The extent of statements and declarations
-/

namespace EcmaStack

open Scope (frames)

namespace Parse

variable {r : Rules} {e : Surroundings}

/-! ## Declarations -/

/-- The declarators of a declaration, which declare their names. -/
def declaratorsPart (kind : DeclKind) (chain : List Scope.Frame) (list : List Declarator) : Part :=
  Part.of chain (list.map .declarator) ++
    Part.declaring kind chain (list.flatMap (·.target.boundNames))

/-- A declarator declares its names behind its target and before its value, and they are
counted in that order. -/
theorem declarator_leads (h : r.Charted) (kind : DeclKind) :
    Leads (declarator r kind) e true (fun chain d => declaratorsPart kind chain [d]) fun _ =>
    True := by
  intro s hs
  refine .known rfl (.look fun _ => .look fun _ => (Stretch.start hs).skipIf fun _ t ht => ?_)
  refine ht.find (h.target e true).patterns (fun target u hu => ?_) fun _ => .unexpected
  refine hu.gather (.behind (h.assignment e)) fun initializer v hv => ?_
  have hnode :
      Extent e.source s v (.declarator ⟨⟨s.token.start, v.previousEnd⟩, target, initializer⟩) :=
      hv.node hs rfl rfl rfl
  refine Passage.declareAll hnode.stretch fun w hw hended => .span (.pure ⟨?_, trivial⟩)
  simp only [declaratorsPart, List.flatMap_singleton, hended]
  exact hw

/-- The parts of declarators join to the part of all of them. -/
theorem declaratorsPart_append {kind : DeclKind} {chain : List Scope.Frame}
    {a b : List Declarator} :
    (declaratorsPart kind chain a ++ declaratorsPart kind chain b).Same
    (declaratorsPart kind chain (a ++ b)) := by
  refine ⟨?_, fun d => ?_, ?_⟩
  · simp [declaratorsPart, Part.of, Part.declaring]
  · simp [declaratorsPart, Part.of, Part.declaring, declared, or_left_comm]
  · simp [declaratorsPart, Part.of, Part.declaring]

/-- They are the part of the declaration. -/
theorem declaration_same {chain : List Scope.Frame} {d : VarDecl} :
    (declaratorsPart d.kind chain d.list).Same (.inner chain (.stmt (.declaration d))) :=
  Node.declaring_same rfl rfl rfl fun _ => rfl

/-- The declarators follow each other, and one more is declared behind all that were, by induction
on the turns. -/
theorem declarators_read (h : r.Charted) (kind : DeclKind) {s t : ParseState}
    (ht : Stretch e.source false s t []) :
    Holds (declarators r kind) e t fun list u =>
      Passage e.source true s u (declaratorsPart kind (frames s.scopes) list) := by
  refine .repeating (fun items u => Passage e.source false s u
    (declaratorsPart kind (frames s.scopes) items.reverse)) ht
    fun items u hu => Passage.lead hu (declarator_leads h kind) fun d v _ hv => ?_
  have hmore := hv.congr declaratorsPart_append
  rw [← List.reverse_cons] at hmore
  exact .look fun _ => .ite (fun _ => hmore.skip fun _ w hw => .pure hw.weaken) fun _ =>
    .pure hmore

/-- A declaration starts at its keyword. `await using` has two. -/
theorem variableDeclaration_read (h : r.Charted) {s : ParseState} (hs : s.Ready e.source) :
    Holds (variableDeclaration r) e s fun d t =>
      Passage e.source true s t (declaratorsPart d.kind (frames s.scopes) d.list) ∧
        d.span = ⟨s.token.start, t.previousEnd⟩ := by
  refine .known rfl ((Stretch.start hs).skip fun kind t ht => ?_)
  exact .bind (declarators_read h kind ht) fun list u hu => .span (.pure ⟨hu, rfl⟩)

theorem variableStatement_whole (h : r.Charted) : Whole (variableStatement r) e .stmt := by
  intro s hs
  refine .bind (variableDeclaration_read h hs) fun d t ⟨hread, hspan⟩ => ?_
  have hstart : d.span.offset = s.token.start := by
    rw [hspan]
    exact Int.toNat_natCast _
  refine hread.skip fun _ u hu => hu.skip fun _ v hv => ?_
  rw [hstart]
  exact .span (.pure (Passage.close (hv.congr (declaration_same (d := { d with span := _ }))) hs rfl
    trivial id))

/-- The function of a declaration has no scope for its name, which is declared where it stands. -/
theorem functionDeclaration_whole (h : r.Charted) (nameOptional : Bool) :
    Whole (functionDeclaration r nameOptional) e .stmt := by
  intro s hs
  refine .bind (function_read h true nameOptional hs) fun f t ⟨hread, hspan, hscopes⟩ => ?_
  have hlaid : (Node.stmt (.function f.span f)).Laid s.token.start t.previousEnd :=
    (hread.laidFrom hspan (Nat.le_refl _) (Nat.le_refl _) id).wrap rfl rfl hscopes
  have hdeclared {u : ParseState} (hu : Passage e.source true s u
      (.inner (frames s.scopes) (.function f) ++
      .declaring .function (frames s.scopes) f.name.toList))
      (hended : u.previousEnd = t.previousEnd) :
      Extent e.source s u (.stmt (.function f.span f)) := by
    refine ⟨?_, by rw [hended]; exact hspan⟩
    have hstanding :=
      (Stretch.start hs).standing (n := .stmt (.function f.span f)) hu (hended ▸ hlaid) trivial
        (fun d => ?_) ?_
    · rwa [Part.nothing_append] at hstanding
    · rw [Node.declarations_eq]
      simp [Part.inner, Part.declaring, Node.slots, Stmt.slots, Node.declared, Node.inner,
        Node.scopes, or_comm]
    · rw [Node.opened_eq]
      simp [Part.inner, Part.declaring, Node.slots, Stmt.slots, Node.inner, Node.scopes]
  dsimp only
  split
  · next n hname =>
    rw [hname] at hdeclared
    exact Passage.declareAt hread fun u hu hended => .pure (hdeclared hu hended)
  · next hname =>
    rw [hname, Option.toList_none, Part.append_undeclared] at hdeclared
    exact .pure (hdeclared hread rfl)

/-- The name of a class is declared around it before its body is read, so it is known
there. -/
theorem classDeclaration_whole (h : r.Charted) (nameOptional : Bool) :
    Whole (classDeclaration r nameOptional) e .stmt := by
  intro s hs
  refine .bind (classLiteral_whole h true nameOptional s hs) fun c t hc => ?_
  have hspan : c.span = ⟨s.token.start, t.previousEnd⟩ := hc.span
  have hdeclared {u : ParseState} (hu : Passage e.source true s u
      (Part.of (frames s.scopes) [Node.expr (.classExpr c)] ++
      .declaring .classDecl (frames s.scopes) c.name.toList))
      (hended : u.previousEnd = t.previousEnd) :
      Extent e.source s u (.stmt (.classDecl c.span c)) := by
    exact Passage.close (hu.congr (Node.declaring_same rfl rfl rfl fun _ => rfl)) hs
      (by rw [hended]; exact hspan) trivial id
  dsimp only
  split
  · next n hname =>
    rw [hname] at hdeclared
    exact Passage.declareAt hc.stretch fun u hu hended => .pure (hdeclared hu hended)
  · next hname =>
    rw [hname, Option.toList_none, Part.append_undeclared] at hdeclared
    exact .pure (hdeclared hc.stretch rfl)

/-! ## Blocks and jumps -/

/-- Nothing, or a node. -/
theorem Whole.optional {α : Type} {p : Parse α} {node : α → Node} (h : Whole p e node) :
    Gathers (some <$> p) e false (Node.maybe node) :=
  fun s hs => .bind (h s hs) fun _ _ ha => .pure ha.stretch.weaken

theorem Gathers.none {α : Type} {node : α → Node} :
    Gathers (Pure.pure none) e false (Node.maybe node) :=
  fun _ hs => .pure (.start hs)

/-- A block opens a scope, which lies between its braces. -/
theorem block_whole (h : r.Charted) : Whole (block r) e fun b => .stmt (.block b) := by
  have hbody : Leads (do
      let items ← itemsUntil (· == .punct .rightBrace) r.item
      next
      return items) e false (fun chain items => .of chain (items.map .stmt)) fun _ => True := by
    intro s hs
    refine (Stretch.start hs).gather (.itemsUntil (h.item e).gathers) fun items t ht =>
      ht.skip fun _ u hu =>
      .pure ⟨hu, trivial⟩
  have hscope : Leads (inBlock _) e _ _ _ := hbody.inScope rfl
  intro s hs
  refine (Stretch.start hs).punct fun t ht => Passage.lead ht hscope fun x u hgood hu => ?_
  obtain ⟨items, scope⟩ := x
  rw [Part.nothing_append] at hu
  exact .span (.pure (Passage.closeScope hu hs rfl rfl hgood.1 ⟨rfl, fun _ => rfl, fun _ _ => rfl,
    id, id⟩))

theorem condition_gathers (h : r.Charted) : Gathers (condition r) e true fun x => [.expr x] := by
  intro s hs
  refine (Stretch.start hs).punct fun t ht => ht.whole (h.expression e) fun test u hu _ => ?_
  exact hu.skip fun _ v hv => .pure hv

/-- A statement with a label starts at the label. -/
theorem labelledStatement_extent (h : r.Charted) {s : ParseState} (hs : s.Ready e.source)
    (hkind : s.token.kind = .identifier) :
    Holds (labelledStatement r) e s fun b t => Extent e.source s t (.stmt b) := by
  refine .known rfl (.look fun _ => .failIf (fun _ => .fail) fun _ => hs.take
    (by rw [hkind]; decide) fun t ht hleaf => ?_)
  have hname := (hleaf (.name (nameOf s.token)) (Node.name_leaf _) rfl).stretch
  refine hname.skip fun _ u hu => .look fun here => .failIf (fun _ => .failAt) fun _ =>
    .look fun k => ?_
  exact hu.whole (.within (h.statement _)) fun body v hv _ => .span (.pure (hv.node hs rfl rfl rfl))

/-- The label that a `break` or `continue` names, on the same line. -/
theorem labelReference_gathers : Gathers labelReference e false (Node.maybe .name) := by
  intro s hs
  refine .known rfl (.ite (fun _ => .pure (.start hs)) fun hkind => ?_)
  have hidentifier : s.token.kind = .identifier := by
    simp only [Bool.or_eq_true, bne_iff_ne, ne_eq, not_or, Decidable.not_not] at hkind
    exact hkind.1
  exact hs.take (by rw [hidentifier]; decide) fun t _ hleaf =>
    .pure (hleaf _ (Node.name_leaf _) rfl).stretch.weaken

theorem breakStatement_whole : Whole breakStatement e .stmt := by
  intro s hs
  refine (Stretch.start hs).word fun t ht => ht.gather labelReference_gathers fun label u hu =>
    .look fun here => ?_
  have hrest : Holds (do
      semicolon
      return Stmt.breakOff (← spanFrom s.token.start) label) e u fun b v =>
        Extent e.source s v (.stmt b) :=
    hu.skip fun _ v hv => .span (.pure (hv.node hs rfl rfl rfl))
  dsimp only
  split
  · exact .failIf (fun _ => .failAt) fun _ => hrest
  · exact .failIf (fun _ => .failAt) fun _ => hrest

theorem continueStatement_whole : Whole continueStatement e .stmt := by
  intro s hs
  refine (Stretch.start hs).word fun t ht => ht.gather labelReference_gathers fun label u hu =>
    .look fun here => ?_
  have hrest : Holds (do
      semicolon
      return Stmt.carryOn (← spanFrom s.token.start) label) e u fun b v =>
        Extent e.source s v (.stmt b) :=
    hu.skip fun _ v hv => .span (.pure (hv.node hs rfl rfl rfl))
  dsimp only
  split
  · split
    · exact .bind (P := fun _ _ => False) .failAt fun _ _ => False.elim
    · exact .failIf (fun _ => .failAt) fun _ => hrest
  · exact .failIf (fun _ => .failAt) fun _ => hrest

/-- A `return` ends with its line unless an expression begins there. -/
theorem returnStatement_whole (h : r.Charted) : Whole (returnStatement r) e .stmt := by
  intro s hs
  refine (Stretch.start hs).word fun t ht => .look fun here => .failIf (fun _ => .failAt) fun _ =>
    .look fun _ => ?_
  refine ht.gatherEither .none (h.expression e).optional fun argument u hu =>
    hu.skip fun _ v hv => ?_
  exact .span (.pure (hv.node hs rfl rfl rfl))

theorem throwStatement_whole (h : r.Charted) : Whole (throwStatement r) e .stmt := by
  intro s hs
  refine (Stretch.start hs).word fun t ht => .look fun _ => .failIf (fun _ => .fail) fun _ => ?_
  refine ht.whole (h.expression e) fun argument u hu _ => hu.skip fun _ v hv =>
    .span (.pure (hv.node hs rfl rfl rfl))

theorem debuggerStatement_whole : Whole debuggerStatement e .stmt := by
  intro s hs
  exact (Stretch.start hs).word fun t ht => ht.skip fun _ u hu =>
    .span (.pure (hu.node hs rfl rfl rfl))

/-! ## Branches -/

theorem ifStatement_whole (h : r.Charted) : Whole (ifStatement r) e .stmt := by
  intro s hs
  refine (Stretch.start hs).word fun t ht => ht.gather (condition_gathers h) fun test u hu => ?_
  refine hu.whole (h.statement e) fun consequent v hv _ =>
    hv.gather (.behind (h.statement e)) fun alternate w hw => ?_
  exact .span (.pure (hw.node hs rfl rfl rfl))

theorem clauseTest_gathers (h : r.Charted) (hasDefault : Bool) :
    Gathers (clauseTest r hasDefault) e false (Node.maybe .expr) := by
  intro s hs
  refine .look fun _ => .ite (fun _ => .failIf (fun _ => .fail) fun _ => ?_) fun _ => ?_
  · exact (Stretch.start hs).skip fun _ t ht => .pure ht
  · exact (Stretch.start hs).word fun t ht => ht.whole (h.expression e) fun test u hu _ =>
      .pure hu.weaken

/-- The clauses of a switch one behind the other. -/
theorem clauses_gathers (h : r.Charted) :
    Gathers (clauses r) e false fun cases => cases.map .caseClause := by
  intro s hs
  refine .repeating (fun items t => Stretch e.source false s t (items.reverse.map .caseClause))
    (.start hs)
    fun items t ht => ?_
  refine .look fun _ => .ite (fun _ => .pure ht) fun _ => .known rfl ?_
  refine (Stretch.start ht.ready).gather (clauseTest_gathers h _) fun test u hu =>
    hu.punct fun v hv => ?_
  refine hv.gather (.itemsUntil (h.item e).gathers) fun consequent w hw => .span (.pure ?_)
  have hclause :
      Extent e.source t w (.caseClause ⟨⟨t.token.start, w.previousEnd⟩, test, consequent⟩) :=
    hw.node ht.ready rfl rfl rfl
  exact (ht.andThen hclause.stretch).weaken.more

/-- The discriminant of a switch stands outside the scope of its clauses. -/
theorem switch_same {chain : List Scope.Frame} {span : Span} {discriminant : Expr}
    {x : List CaseClause × Option Scope} :
    (Part.of chain [Node.expr discriminant] ++
      Part.closing (fun chain cases => .of chain (cases.map .caseClause)) chain x).Same
      (.inner chain (.stmt (.switch span discriminant x.1 x.2))) := by
  refine ⟨rfl, fun d => ?_, ?_⟩
  · rw [Part.inner, Node.declarations_eq]
    simp [Part.closing, Part.enclosed, Part.of, Node.slots, Stmt.slots, List.flatMap_map,
      Node.declared, Node.inner, Node.scopes]
  · rw [Part.inner, Node.opened_eq]
    simp [Part.closing, Part.enclosed, Part.of, Node.slots, Stmt.slots, List.flatMap_map,
      Node.inner, Node.scopes]
    exact List.perm_append_comm_assoc _ _ _

/-- The value that a switch compares with lies outside of its scope. -/
theorem switchStatement_whole (h : r.Charted) : Whole (switchStatement r) e .stmt := by
  have hbody : Leads (within (fun outer => { outer with inSwitch := true }) do
      let cases ← clauses r
      next
      return cases) e false (fun chain cases => .of chain (cases.map .caseClause)) fun _ =>
        True := by
    refine .within fun s hs => (Stretch.start hs).gather (clauses_gathers h) fun cases t ht => ?_
    exact ht.skip fun _ u hu => .pure ⟨hu, trivial⟩
  have hscope : Leads (inBlock _) e _ _ _ := hbody.inScope rfl
  intro s hs
  refine (Stretch.start hs).word fun t ht =>
    ht.gather (condition_gathers h) fun discriminant u hu => hu.punct
    fun v hv => ?_
  refine Passage.lead hv hscope fun x w hgood hw => ?_
  obtain ⟨cases, scope⟩ := x
  exact .span (.pure (Passage.close (hw.congr switch_same) hs rfl hgood.1 id))

/-- The parameter of a handler, whose names are declared, and its statements. -/
def catchPart (chain : List Scope.Frame) (x : Option Pattern × List Stmt) : Part :=
  Part.of chain (Node.maybe .pattern x.1) ++
    Part.declaring .letDecl chain (Pattern.boundNamesOption x.1) ++
    .of chain (x.2.map .stmt)

/-- The parameter and the statements of a handler are the part of its clause. -/
theorem catch_same {chain : List Scope.Frame} {span : Span}
    {x : (Option Pattern × List Stmt) × Option Scope} :
    (Part.closing catchPart chain x).Same
    (.inner chain (.catchClause ⟨span, x.1.1, x.1.2, x.2⟩)) := by
  refine ⟨?_, fun d => ?_, ?_⟩
  · simp [catchPart, Part.closing, Part.enclosed, Part.of, Part.declaring, Part.inner, Node.slots]
  · rw [Part.inner, Node.declarations_eq]
    simp [catchPart, Part.closing, Part.enclosed, Part.of, Part.declaring, Node.slots,
      Node.declared, Node.inner, Node.scopes, or_left_comm]
  · rw [Part.inner, Node.opened_eq]
    simp [catchPart, Part.closing, Part.enclosed, Part.of, Part.declaring, Node.slots, Node.inner,
      Node.scopes]

/-- The names of the parameter are declared behind it, before the closing parenthesis. -/
theorem catchParam_leads (h : r.Charted) :
    Leads (catchParam r) e false (fun chain o => .of chain (Node.maybe .pattern o) ++
      Part.declaring .letDecl chain (Pattern.boundNamesOption o)) fun _ => True := by
  intro s hs
  refine .look fun _ => .ite (fun _ => ?_) fun _ => .pure ⟨Stretch.start hs, trivial⟩
  refine (Stretch.start hs).skip fun _ t ht =>
    ht.find (h.target e true).patterns (fun p u hu => ?_) fun _ => .unexpected
  exact Passage.declareAll hu fun v hv _ => hv.skip fun _ w hw => .pure ⟨hw.weaken, trivial⟩

/-- The scope of a handler is opened before its parameter is read. -/
theorem catchClause_whole (h : r.Charted) : Whole (catchClause r) e .catchClause := by
  intro s hs
  refine .known rfl ((Stretch.start hs).skip fun _ t ht => Passage.lead ht
    (Leads.inScope (?hbody : Leads _ e true catchPart fun _ => True) rfl) fun x u hgood hu => ?_)
  case hbody =>
    intro s hs
    refine Passage.lead (Stretch.start hs) (catchParam_leads h) fun param t _ ht =>
      ht.punct fun u hu => ?_
    refine hu.gather (.itemsUntil (h.item e).gathers) fun body v hv => hv.skip fun _ w hw =>
      .pure ⟨?_, trivial⟩
    rwa [Part.nothing_append] at hw
  obtain ⟨⟨param, body⟩, scope⟩ := x
  rw [Part.nothing_append] at hu
  exact .span (.pure (Passage.close (hu.congr catch_same) hs rfl hgood.1 id))

theorem tryStatement_whole (h : r.Charted) : Whole (tryStatement r) e .stmt := by
  intro s hs
  refine (Stretch.start hs).word fun t ht => ht.whole (block_whole h) fun main u hu _ =>
    .look fun _ => ?_
  refine hu.gatherEither (catchClause_whole h).optional .none fun handler v hv => ?_
  refine hv.gather (.behind (block_whole h)) fun finalizer w hw => .failIf (fun _ => .fail) fun _ =>
    .span (.pure ?_)
  exact hw.node hs rfl rfl rfl

/-! ## Loops -/

theorem iterationBody_whole (h : r.Charted) : Whole (iterationBody r) e .stmt :=
  .within (h.statement _)

theorem whileStatement_whole (h : r.Charted) : Whole (whileStatement r) e .stmt := by
  intro s hs
  refine (Stretch.start hs).word fun t ht => ht.gather (condition_gathers h) fun test u hu => ?_
  exact hu.whole (iterationBody_whole h) fun body v hv _ => .span (.pure (hv.node hs rfl rfl rfl))

theorem doStatement_whole (h : r.Charted) : Whole (doStatement r) e .stmt := by
  intro s hs
  refine (Stretch.start hs).word fun t ht => ht.whole (iterationBody_whole h) fun body u hu _ =>
    hu.word fun v hv => ?_
  refine hv.gather (condition_gathers h) fun test w hw => .look fun _ => hw.skipIf fun _ x hx => ?_
  exact .span (.pure (hx.node hs rfl rfl rfl))

/-- The head of a loop over values may be any target. -/
theorem targetHead_finds (h : r.Charted) : Finds (targetHead r) e true fun n => [n] := by
  refine .attempt fun s hs =>
    (Stretch.start hs).find (h.target e false).heads (fun p t ht => .look fun word => ?_)
    fun _ => .missed
  split
  · exact .found ht
  · exact .missed

/-- What a loop starts with, if it starts with anything. -/
theorem loopHead_gathers (h : r.Charted) : Gathers (loopHead r) e false Option.toList := by
  intro s hs
  refine .look fun _ => .ite (fun _ => .pure (.start hs)) fun _ => .look fun _ =>
    .ite (fun _ => ?_) fun _ => ?_
  · have hdeclaration (e : Surroundings) : Whole (variableDeclaration r) e fun d =>
        .stmt (.declaration d) := by
      intro s hs
      refine (variableDeclaration_read h hs).mono fun d t ⟨hread, hspan⟩ => ?_
      exact Passage.close (hread.congr declaration_same) hs hspan trivial id
    exact (Stretch.start hs).whole (.within (hdeclaration _)) fun d t ht _ => .pure ht.weaken
  · have hconfined := h.confined
    have hleaves : Leaves .none (targetHead r) := by
      refine @Leaves.attempt _ _ _ (.andThen fun o => ?_)
      cases o <;> infer_instance
    refine .orElse (targetHead_finds h s hs) (fun t => still_of_miss (p := targetHead r)
      (.attempt _))
      (fun n t ht => .pure ht.weaken) ?_
    exact (Stretch.start hs).whole (.within (h.expression _)) fun x t ht _ => .pure ht.weaken

/-- A loop of one of the three forms, which waits for its range and its scope. -/
def IsLoop (build : Span → Option Scope → Stmt) : Prop :=
  ∀ span scope, (build span scope).span = span ∧ (build span scope).slots = (build {} none).slots ∧
    (Node.stmt (build span scope)).Encloser .block scope

/-- What a loop is made of. -/
def loopPart (chain : List Scope.Frame) (build : Span → Option Scope → Stmt) : Part :=
  .of chain (build {} none).slots

/-- A loop over keys or values goes on from its head, which was read before it was known
for one. -/
theorem collectionLoop_passage (h : r.Charted) {start : Nat} {await : Bool} {head : Option Node}
    {word : LoopWord} {s₀ s : ParseState} {taken : Bool}
    (hhead : Stretch e.source taken s₀ s head.toList) :
    Holds (collectionLoop r start await head word) e s fun build t =>
      Passage e.source true s₀ t (loopPart (frames s₀.scopes) build) ∧ IsLoop build := by
  cases head with
  | none => exact .bind (P := fun _ _ => False) .failAt fun _ _ => False.elim
  | some n =>
    refine hhead.skip fun _ t ht => ht.skipIf fun _ u hu => hu.skip fun _ v hv => ?_
    cases word with
    | forIn =>
      refine hv.whole (h.expression e) fun right w hw _ => hw.skip fun _ x hx => ?_
      refine hx.whole (iterationBody_whole h) fun body y hy _ =>
        .pure ⟨hy, fun span scope => ⟨rfl, rfl, ?_⟩⟩
      exact ⟨rfl, fun _ => rfl, fun _ _ => rfl, id, id⟩
    | forOf =>
      refine hv.whole (h.assignment e) fun right w hw _ => hw.skip fun _ x hx => ?_
      refine hx.whole (iterationBody_whole h) fun body y hy _ =>
        .pure ⟨hy, fun span scope => ⟨rfl, rfl, ?_⟩⟩
      exact ⟨rfl, fun _ => rfl, fun _ _ => rfl, id, id⟩

/-- So do the two clauses of a counted loop, -/
theorem loopClauses_passage (h : r.Charted) {head : Option Node} {s₀ s : ParseState} {taken : Bool}
    (hhead : Stretch e.source taken s₀ s head.toList) :
    Holds (loopClauses r head) e s fun build t =>
      Passage e.source true s₀ t (loopPart (frames s₀.scopes) build) ∧ IsLoop build := by
  refine hhead.punct fun u hu => .look fun _ =>
    hu.gatherEither .none (h.expression e).optional fun test v hv => ?_
  refine hv.punct fun w hw => .look fun _ =>
    hw.gatherEither .none (h.expression e).optional fun update x hx => ?_
  refine hx.punct fun y hy => hy.whole (iterationBody_whole h) fun body z hz _ =>
    .pure ⟨hz, fun span scope => ⟨rfl, rfl, ?_⟩⟩
  exact ⟨rfl, fun _ => rfl, fun _ _ => rfl, id, id⟩

/-- and the loop as a whole. -/
theorem countedLoop_passage (h : r.Charted) {head : Option Node} {s₀ s : ParseState} {taken : Bool}
    (hhead : Stretch e.source taken s₀ s head.toList) :
    Holds (countedLoop r head) e s fun build t =>
      Passage e.source true s₀ t (loopPart (frames s₀.scopes) build) ∧ IsLoop build := by
  unfold countedLoop
  dsimp only
  split
  · exact hhead.skip fun _ t ht => loopClauses_passage h ht
  · exact loopClauses_passage h hhead

theorem loopParts_leads (h : r.Charted) (start : Nat) (await : Bool) :
    Leads (loopParts r start await) e true loopPart IsLoop := by
  intro s hs
  refine (Stretch.start hs).gather (loopHead_gathers h) fun head t ht => .look fun word => ?_
  cases word with
  | some word => exact collectionLoop_passage h ht
  | none => exact .failIf (fun _ => .unexpected) fun _ => countedLoop_passage h ht

/-- The scope of a loop is opened in front of its head and closed behind its body. -/
theorem forStatement_whole (h : r.Charted) : Whole (forStatement r) e .stmt := by
  intro s hs
  refine (Stretch.start hs).word fun t ht => .look fun await =>
    .ite (fun _ => .look fun _ => .failIf (fun _ => .unexpected)
    fun _ => ht.skip fun _ u hu => ?_) fun _ => ?_
  -- with the word `await` or without it, what follows is read as one loop
  all_goals
    refine Stretch.punct ‹Stretch _ _ s _ _› fun v hv => Passage.lead hv
      (Leads.inScope (loopParts_leads h _ _) rfl) fun x w hgood hw => ?_
    obtain ⟨build, scope⟩ := x
    obtain ⟨hkind, hloop⟩ := hgood
    rw [Part.nothing_append] at hw
    obtain ⟨hspan, hslots, hencloser⟩ := hloop ⟨s.token.start, w.previousEnd⟩ scope
    exact .span (.pure (Passage.closeScope hw hs hslots hspan hkind hencloser))

/-! ## Dispatch -/

theorem expressionStatement_whole (h : r.Charted) : Whole (expressionStatement r) e .stmt := by
  intro s hs
  refine .known rfl ((Stretch.start hs).whole (h.expression e) fun x t ht _ => ht.skip
    fun _ u hu => ?_)
  exact .span (.pure (hu.node hs rfl rfl rfl))

/-- A statement from its first token to its last, whichever it begins with. -/
theorem statementRule_whole (h : r.Charted) : Whole (statementRule r) e .stmt := by
  intro s hs
  refine .known rfl ?_
  split
  · next hkind =>
    refine (Stretch.start hs).next (by rw [hkind]; decide) fun t ht _ =>
      .span (.pure (ht.node hs rfl rfl rfl))
  · exact .bind (block_whole h s hs) fun b t ht => .pure ht
  · exact variableStatement_whole h s hs
  · exact ifStatement_whole h s hs
  · exact doStatement_whole h s hs
  · exact whileStatement_whole h s hs
  · exact forStatement_whole h s hs
  · exact breakStatement_whole s hs
  · exact continueStatement_whole s hs
  · exact debuggerStatement_whole s hs
  · exact switchStatement_whole h s hs
  · exact returnStatement_whole h s hs
  · exact throwStatement_whole h s hs
  · exact tryStatement_whole h s hs
  · exact .fail
  · exact .fail
  · exact .fail
  · exact .fail
  · exact .fail
  · next hkind => exact .look fun _ => .ite (fun _ => labelledStatement_extent h hs hkind) fun _ =>
      expressionStatement_whole h s hs
  · exact expressionStatement_whole h s hs

theorem itemRule_whole (h : r.Charted) : Whole (itemRule r) e .stmt := by
  intro s hs
  refine .look fun k => ?_
  split
  · exact functionDeclaration_whole h false s hs
  · exact classDeclaration_whole h false s hs
  · exact classDeclaration_whole h false s hs
  · exact variableStatement_whole h s hs
  · exact variableStatement_whole h s hs
  · refine .look fun _ => .ite (fun _ => functionDeclaration_whole h false s hs) fun _ =>
      .look fun _ =>
      .ite (fun _ => ?_) fun _ => ?_
    · exact variableStatement_whole h s hs
    · exact statementRule_whole h s hs
  · exact statementRule_whole h s hs

end Parse

end EcmaStack

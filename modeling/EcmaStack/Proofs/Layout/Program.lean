import EcmaStack.Grammar.Program
import EcmaStack.Proofs.Layout.Statements
import EcmaStack.Proofs.Progress.Total
import EcmaStack.Proofs.Text.Decoding

/-!
# The extent of imports and exports
-/

namespace EcmaStack

open Scope (frames)

namespace Parse

variable {r : Rules} {e : Surroundings}

theorem exportName_whole : Whole exportName e .name := by
  intro s hs
  refine .known rfl (.ite (fun hkind => ?_) fun _ => .unexpected)
  refine hs.take (fun hend => ?_) fun t _ hleaf => .pure (hleaf _ (Node.name_leaf _) rfl)
  rw [hend] at hkind
  cases hkind

/-- The text that names a module covers its token. -/
theorem moduleSource_whole : Whole moduleSource e .string := by
  intro s hs
  refine .known rfl (.ite (fun hkind => ?_) fun _ => .unexpected)
  refine hs.take (fun hend => ?_) fun t _ hleaf =>
    (stringLiteral_leaf s.token).mono fun l u hl => ?_
  · rw [hend] at hkind
    cases hkind
  · obtain ⟨rfl, hl, hspan⟩ := hl
    exact hleaf _ hl hspan

/-- The key of an attribute is no node. -/
instance Passes.exportName : Passes Parse.exportName := by
  unfold Parse.exportName
  infer_instance

theorem importAttribute_whole : Whole importAttribute e .importAttribute := by
  intro s hs
  refine .known rfl ((Stretch.start hs).skip fun key t ht => ht.punct fun u hu => ?_)
  exact hu.whole moduleSource_whole fun value v hv _ => .span (.pure (hv.node hs rfl rfl rfl))

theorem importAttributes_gathers :
    Gathers importAttributes e false fun list => list.map .importAttribute := by
  intro s hs
  refine .look fun _ => .look fun _ => .look fun _ => .ite (fun _ => ?_) fun _ => .pure (.start hs)
  refine (Stretch.start hs).skip fun _ t ht => ht.skip fun _ u hu => ?_
  exact hu.gather (.commaList importAttribute_whole.gathers) fun list v hv => hv.skip fun _ w hw =>
    .pure hw

/-! ## Imports -/

/-- A name under which something goes both here and there. -/
theorem name_twice {source : Text} {s t : ParseState} {n : Name} (h : Extent source s t (.name n)) :
    Stretch source true s t [.name n, .name n] := by
  have hbegan := h.stretch.began rfl
  exact h.stretch.leaf (Node.name_leaf n) h.span (Nat.le_refl _) hbegan (Nat.le_refl _)

/-- One name, or two with `as` between them. -/
theorem importSpecifier_whole : Whole importSpecifier e .importSpecifier := by
  intro s hs
  refine .known rfl (.bind (exportName_whole s hs) fun imported t ht => .look fun _ =>
    .ite (fun _ => ?_) fun _ => ?_)
  · refine ht.stretch.skip fun _ u hu => hu.whole requiredBinding_whole fun inner v hv _ =>
      .span (.pure ?_)
    exact hv.node hs rfl rfl rfl
  · refine .look fun _ => .ite (fun _ => .failAt) fun _ => .span (.pure ?_)
    exact (name_twice ht).node hs rfl rfl rfl

theorem defaultSpecifier_gathers :
    Gathers defaultSpecifier e false fun list => list.map .importSpecifier := by
  intro s hs
  have hfound {t : ParseState} {inner : Name} (ht : Stretch e.source true s t [.name inner]) :
      Stretch e.source false s t [.importSpecifier (.standard inner.span (some inner))] := by
    have hname : Stretch e.source true s t ([] ++ [Node.name inner]) := ht
    exact (hname.wrap (m := .importSpecifier (.standard inner.span (some inner))) rfl rfl rfl
      rfl).weaken
  refine .look fun _ => .ite (fun _ => ?_) fun _ => .pure (.start hs)
  refine (Stretch.start hs).whole requiredBinding_whole fun inner t ht _ => .look fun _ =>
    .ite (fun _ => ?_) fun _ => ?_
  · refine ht.skip fun _ u hu => .look fun _ => .look fun _ =>
      .failIf (fun _ => .unexpected) fun _ => .pure ?_
    exact hfound hu
  · exact .pure (hfound ht)

theorem otherSpecifiers_gathers :
    Gathers otherSpecifiers e false fun list => list.map .importSpecifier := by
  intro s hs
  refine .look fun k => ?_
  split
  · refine .known rfl ((Stretch.start hs).skip fun _ t ht => ht.skip fun _ u hu => ?_)
    refine hu.whole requiredBinding_whole fun inner v hv _ => .span (.pure ?_)
    have hnode :
        Extent e.source s v (.importSpecifier
          (.whole ⟨s.token.start, v.previousEnd⟩ (some inner))) :=
      hv.node hs rfl rfl rfl
    exact hnode.stretch.weaken
  · refine (Stretch.start hs).skip fun _ t ht =>
      ht.gather (.commaList importSpecifier_whole.gathers) fun list u hu => ?_
    exact hu.skip fun _ v hv => .pure hv
  · exact .pure (.start hs)

theorem importSpecifiers_gathers :
    Gathers importSpecifiers e false fun list => list.map .importSpecifier := by
  intro s hs
  refine .look fun _ => .ite (fun _ => .pure (.start hs)) fun _ => ?_
  refine (Stretch.start hs).gather defaultSpecifier_gathers fun first t ht =>
    ht.gather otherSpecifiers_gathers
    fun others u hu => ?_
  refine .failIf (fun _ => .unexpected) fun _ => hu.skip fun _ v hv => .pure ?_
  show Stretch _ _ _ _ ((first ++ others).map _)
  rwa [List.map_append]

/-- The names that an import declares are those of its specifiers. -/
theorem importedNames_map (specifiers : List ImportSpecifier) :
    Node.importedNames (specifiers.map .importSpecifier) = specifiers.filterMap importedName := by
  rw [Node.importedNames, List.filterMap_map]
  rfl

theorem importDeclaration_whole : Whole importDeclaration e .stmt := by
  intro s hs
  refine (Stretch.start hs).word fun t ht =>
    ht.gather importSpecifiers_gathers fun specifiers u hu => ?_
  refine hu.whole moduleSource_whole fun source v hv _ =>
    hv.gather importAttributes_gathers fun attributes w hw => ?_
  refine hw.skip fun _ x hx => .span (Passage.declareAll hx fun y hy hended => .pure ?_)
  rw [← hended]
  refine Passage.close (hy.congr (Node.declaring_same ?_ ?_ rfl fun _ => rfl)) hs rfl trivial id
  · simp [Node.slots, Stmt.slots]
  · rw [Node.declared, importedNames_map]

/-! ## Exports -/

/-- What is exported under a name; the name may be a text. -/
theorem exportSpecifier_gathers :
    Gathers exportSpecifier e true fun x => [.exportSpecifier x.1] := by
  intro s hs
  refine .known rfl (.bind (exportName_whole s hs) fun inner t ht => ?_)
  have hexported : Holds (do
      if ← atContextual "as" then
        next
        exportName
      else return inner : Parse Name) e t fun exported u => Stretch e.source true s u [.name inner,
        .name exported] := by
    refine .look fun _ => .ite (fun _ => ?_) fun _ => .pure (name_twice ht)
    refine ht.stretch.skip fun _ u hu => (exportName_whole u hu.ready).mono fun exported v hv => ?_
    exact hu.andThen hv.stretch
  refine .bind hexported fun exported u hu => .span (.pure ?_)
  have hnode : Extent e.source s u
      (.exportSpecifier ⟨⟨s.token.start, u.previousEnd⟩, some inner, some exported⟩) :=
        hu.node hs rfl rfl rfl
  exact hnode.stretch

/-- What an export names another module by, if it does, and how. -/
theorem sourceNodes_gathers (specifiers : List (ExportSpecifier × Bool)) : Gathers (do
      if ← atContextual "from" then
        next
        let source ← moduleSource
        return (some source, ← importAttributes)
      else
        checkPlain specifiers
        return (none, []) : Parse (Option StringLiteral × List ImportAttribute)) e false
    fun x => Node.maybe .string x.1 ++ x.2.map .importAttribute := by
  intro s hs
  refine .look fun _ => .ite (fun _ => ?_) fun _ => (Stretch.start hs).skip fun _ t ht => .pure ht
  refine (Stretch.start hs).skip fun _ t ht => ht.whole moduleSource_whole fun source u hu _ => ?_
  exact hu.gather importAttributes_gathers fun attributes v hv => .pure hv.weaken

section

variable {s₀ s : ParseState} (hs₀ : s₀.Ready e.source) (h : Stretch e.source true s₀ s [])

include hs₀ h

theorem exportList_extent :
    Holds (exportList s₀.token.start) e s fun b t => Extent e.source s₀ t (.stmt b) := by
  refine h.skip fun _ t ht =>
    ht.gather (.commaList exportSpecifier_gathers) fun specifiers u hu => ?_
  refine hu.skip fun _ v hv => hv.gather (sourceNodes_gathers specifiers) fun x w hw => ?_
  refine hw.skip fun _ y hy => .span (.pure (hy.node hs₀ ?_ rfl rfl))
  simp [Node.slots, Stmt.slots, Node.maybe]

theorem exportEverything_extent :
    Holds (exportEverything s₀.token.start) e s fun b t => Extent e.source s₀ t (.stmt b) := by
  refine h.skip fun _ t ht => ht.gather (.behind exportName_whole) fun exported u hu =>
    hu.skip fun _ v hv => ?_
  refine hv.whole moduleSource_whole fun source w hw _ =>
    hw.gather importAttributes_gathers fun attributes x hx => ?_
  refine hx.skip fun _ y hy => .span (.pure (hy.node hs₀ ?_ rfl rfl))
  simp [Node.slots, Stmt.slots]

/-- A default export starts at `export`, which was taken before. -/
theorem exportStandard_extent (hr : r.Charted) :
    Holds (exportStandard r s₀.token.start) e s fun b t => Extent e.source s₀ t (.stmt b) := by
  refine h.skip fun _ t ht => .look fun _ => .look fun _ => .ite (fun _ => ?_) fun _ =>
    .look fun _ => .look fun _ =>
    .ite (fun _ => ?_) fun _ => ?_
  · exact ht.whole (functionDeclaration_whole hr true) fun b u hu _ =>
      .span (.pure (hu.node hs₀ rfl rfl rfl))
  · exact ht.whole (classDeclaration_whole hr true) fun b u hu _ =>
      .span (.pure (hu.node hs₀ rfl rfl rfl))
  · refine ht.whole (hr.assignment e) fun x u hu _ => hu.skip fun _ v hv =>
      .span (.pure (hv.node hs₀ rfl rfl rfl))

end

theorem exportedDeclaration_whole (h : r.Charted) : Whole (exportedDeclaration r) e .stmt := by
  intro s hs
  refine .look fun _ => .ite (fun _ => variableStatement_whole h s hs) fun _ => .look fun _ =>
    .look fun _ => ?_
  refine .ite (fun _ => functionDeclaration_whole h false s hs) fun _ => .look fun _ =>
    .look fun _ => ?_
  exact .ite (fun _ => classDeclaration_whole h false s hs) fun _ => .unexpected

theorem exportDeclaration_whole (h : r.Charted) : Whole (exportDeclaration r) e .stmt := by
  intro s hs
  refine (Stretch.start hs).word fun t ht => .look fun k => ?_
  split
  · exact exportEverything_extent hs ht
  · exact exportStandard_extent hs ht h
  · exact exportList_extent hs ht
  · refine ht.whole (exportedDeclaration_whole h) fun b u hu _ =>
      .span (.pure (hu.node hs rfl rfl rfl))

/-- An item of a module from its first token to its last. -/
theorem moduleItem_whole (h : r.Charted) : Whole (moduleItem r) e .stmt := by
  intro s hs
  refine .look fun here => .ite (fun _ => .look fun k => ?_) fun _ => h.item e s hs
  split
  · exact .look fun after => .ite (fun _ => importDeclaration_whole s hs) fun _ => h.item e s hs
  · exact exportDeclaration_whole h s hs
  · exact h.item e s hs

end Parse

end EcmaStack

/-!
## Programs are laid out as their trees tell

Every goal reads one node, by induction on the depth to which goals nest (`rulesWith_charted`);
so a whole program is read on one stretch, inside the scope of the program (`program_read`).
From the stretch follow the two things a reader of the tree relies on: the range of each node
lies in the range of the node above it, and each scope holds the names that belong to it and
lies in the scope that is in force where it is attached.
-/

namespace EcmaStack

open Scope (frames Numbered)

open Parse

variable {e : Surroundings}

namespace Parse

/-! ## The knot -/

/-- Each goal is answered by rules that read one node if those for the goals inside it do. -/
theorem rulesWith_charted (fuel : Nat) : (rulesWith fuel).Charted := by
  induction fuel with
  | zero =>
    exact {
      confined := rulesWith_confined 0
      expression := fun e s _ => .fail
      assignment := fun e s _ => .fail
      binary := fun e least s _ => .fail
      unary := fun e s _ => .fail
      leftHandSide := fun e s _ => .fail
      construct := fun e s _ => .fail
      target := fun e binding s _ => .fail
      statement := fun e s _ => .fail
      item := fun e s _ => .fail }
  | succ fuel ih =>
    exact {
      confined := rulesWith_confined (fuel + 1)
      expression := fun e => commaExpression_whole ih
      assignment := fun e => assignmentExpression_whole ih
      binary := fun e least => binaryExpression_whole ih least
      unary := fun e => unaryExpression_whole ih
      leftHandSide := fun e => leftHandSide_whole ih
      construct := fun e => newExpression_whole ih
      target := fun e binding => patternTarget_finds ih binding
      statement := fun e => statementRule_whole ih
      item := fun e => itemRule_whole ih }

/-! ## The stretch of a program -/

/-- In the scope of a program one number has been given. -/
theorem initial_numbered {source : Text} {async generator : Bool} :
    Numbered 1 ((ParseState.initial source).enter (functionScope async generator)).scopes :=
  ⟨List.nodup_singleton _, by simp [ParseState.enter,
    ParseState.initial], _, List.mem_cons_self, rfl⟩

/-- The interpreter line leaves the cursor where the token in hand ends. -/
theorem interpreterLine_ends {scope : Scope} :
    Holds interpreterLine e ((ParseState.initial e.source).enter scope) fun _ s =>
      (Cursor.ofText e.source).Reaches s.cursor ∧ s.token.stop = s.cursor.offset ∧
      s.scopes = ((ParseState.initial e.source).enter scope).scopes ∧ s.fresh = 1 := by
  refine .known rfl ?_
  split
  · next t cursor hread =>
    rintro _ _ heq
    cases heq
    exact ⟨readHashbang_reaches hread, readHashbang_stop hread, rfl, rfl⟩
  · exact .pure ⟨.refl _, rfl, rfl, rfl⟩

end Parse

/-- A program was read between two states, inside its scope: the first has the first token in
hand, and at the second nothing is left. -/
structure ProgramRead (source : Text) (p : Program) (s t : ParseState) : Prop where
  span : p.span = ⟨0, source.width⟩
  scopes : s.scopes = ((ParseState.initial source).enter (functionScope false p.module)).scopes
  fresh : s.fresh = 1
  read : Stretch source false s t (Node.program p).slots
  scope : p.scope = t.scopes.head?

theorem Parse.program_read (fuel : Nat) :
    Holds (program (rulesWith fuel)) e (.initial e.source) fun p _ =>
    ∃ s t, ProgramRead e.source p s t := by
  refine .known rfl (.bind (.inScope (P := fun x t => ∃ s,
    s.scopes = ((ParseState.initial e.source).enter (functionScope false e.module)).scopes ∧
    s.fresh = 1 ∧
      Stretch e.source false s t (x.2.1.map .directive ++ x.2.2.map .stmt)) ?_) ?_)
  · refine .bind interpreterLine_ends fun interpreter s ⟨hcursor, hended, hscopes, hfresh⟩ => ?_
    have hnumbered : Numbered s.fresh s.scopes := by
      rw [hscopes, hfresh]
      exact initial_numbered
    refine .bind (next_ready hcursor hended hnumbered) fun _ t ⟨ht, _, hscopes', hfresh'⟩ => ?_
    refine (Stretch.start ht).gather directives_gathers fun ds u hu => ?_
    refine hu.gather (.itemsUntil (moduleItem_whole (rulesWith_charted fuel)).gathers)
      fun items v hv => .pure ?_
    exact ⟨t, hscopes'.trans hscopes, hfresh'.trans hfresh, hv⟩
  · rintro ⟨⟨interpreter, ds, items⟩, scope⟩ _ ⟨t, ⟨s, hscopes, hfresh, hread⟩, hscope, -⟩
    exact .pure ⟨s, t, rfl, hscopes, hfresh, hread, hscope⟩

theorem parseFile_read {file : SourceFile} {module : Bool} {compiler : PatternCompiler}
    {p : Program} (h : parseFile file module compiler = .ok p) :
    ∃ s t, ProgramRead file.text p s t := by
  unfold parseFile at h
  split at h
  · next q hq =>
    cases h
    obtain ⟨⟨_, t⟩, hread, rfl⟩ := Scope.map_ok hq
    exact program_read _ _ t hread
  · cases h

namespace ProgramRead

variable {source : Text} {p : Program} {s t : ParseState}

/-- The parts of a program are laid in the source. -/
theorem children (h : ProgramRead source p s t) {c : Node} (hc : c ∈ (Node.program p).children) :
    c.Laid 0 source.width ∧ c.HasScopes := by
  obtain ⟨hmem, hthere⟩ := List.mem_filter.mp hc
  rcases h.read.laid c hmem with hmissing | ⟨hlaid, howns⟩
  · simp [hmissing] at hthere
  · have hbehind := h.read.ready.behind
    have hinside := h.read.ready.placed.inSource
    have hstart := hinside.start_le
    have hstop := hinside.stop_le
    exact ⟨hlaid.widen (Nat.zero_le _) (by omega), howns⟩

end ProgramRead

/-- A script with functions, a class and blocks of every kind, and with parentheses that are
read twice. -/
def layeredScript : SourceFile :=
  .ofString "layered.js"
    "var f = function g(x) { for (let i of x) { var v } try { } catch (e) { } return (a = class K { m() { } }, 1) }"

/-- The script of the examples below is read. -/
theorem layeredScript_read : ∃ p, parseFile layeredScript false = .ok p := by
  have hread : (parseFile layeredScript false).toOption.isSome = true := by decide +kernel
  cases hp : parseFile layeredScript false with
  | ok p => exact ⟨p, rfl⟩
  | error fault =>
    rw [hp] at hread
    cases hread

/-! ## Ranges -/

/-- The range of a program is the file, and below it ranges nest: the range of a child is not
empty and lies in that of its parent. -/
theorem spans_nest {file : SourceFile} {module : Bool} {compiler : PatternCompiler} {p : Program}
    (h : parseFile file module compiler = .ok p) :
    p.span = ⟨0, file.size⟩ ∧ ∀ m ∈ (Node.program p).walk, ∀ n ∈ m.children,
      0 ≤ m.span.start ∧ m.span.start ≤ n.span.start ∧ n.span.start < n.span.stop ∧ n.span.stop ≤
        m.span.stop ∧
        m.span.stop ≤ file.size := by
  obtain ⟨s, t, hread⟩ := parseFile_read h
  have hsize : file.text.width = file.size := Text.width_decode file.bytes
  rw [← hsize]
  have hspan : (Node.program p).span = ⟨0, file.text.width⟩ := hread.span
  refine ⟨hread.span, fun m hm n hn => ?_⟩
  rw [Node.walk_eq] at hm
  rcases List.mem_cons.mp hm with rfl | hm
  · obtain ⟨hlaid, _⟩ := hread.children hn
    rw [hspan]
    exact ⟨Int.le_refl _, hlaid.start, hlaid.filled, hlaid.stop, Int.le_refl _⟩
  · obtain ⟨c, hc, hm⟩ := List.mem_flatMap.mp hm
    obtain ⟨hlaid, _⟩ := hread.children hc
    obtain ⟨hstart, hstop⟩ := hlaid.within m hm
    obtain ⟨hfirst, hfilled, hlast⟩ := hlaid.encloses m hm n hn
    exact ⟨hstart, hfirst, hfilled, hlast, hstop⟩

theorem spans_nest_layeredScript :
    ∃ p, parseFile layeredScript false = .ok p ∧ p.span = ⟨0, layeredScript.size⟩ ∧
    ∀ m ∈ (Node.program p).walk, ∀ n ∈ m.children,
      0 ≤ m.span.start ∧ m.span.start ≤ n.span.start ∧ n.span.start < n.span.stop ∧ n.span.stop ≤
        m.span.stop ∧
        m.span.stop ≤ layeredScript.size := by
  obtain ⟨p, hp⟩ := layeredScript_read
  exact ⟨p, hp, spans_nest hp⟩

/-! ## Scopes -/

/-- The scopes of a program are told apart by their numbers, each lies in the scope in force
where it is attached, and holds the names that belong to it. Every declaration belongs to one of
them, and every node has the scopes it should have. -/
structure Program.ExactScopes (p : Program) : Prop where
  distinct : (((Node.program p).opened []).map (·.2.serial)).Nodup
  parents : ∀ o ∈ (Node.program p).opened [], o.2.parent = o.1
  nodup : ∀ o ∈ (Node.program p).opened [], o.2.names.Nodup
  names : ∀ o ∈ (Node.program p).opened [], ∀ x,
    x ∈ o.2.names ↔ ⟨some o.2.serial, x⟩ ∈ (Node.program p).declarations []
  homes : ∀ d ∈ (Node.program p).declarations [], ∃ o ∈ (Node.program p).opened [], d.home =
    some o.2.serial
  root : ∃ scope, p.scope = some scope ∧ scope.kind = .function ∧ scope.parent = none
  gives : ∀ m ∈ (Node.program p).walk, m.GivesScopes

namespace ProgramRead

variable {source : Text} {p : Program} {s t : ParseState}

/-- What was declared and opened from the start, in the scope of the program. -/
theorem gained (h : ProgramRead source p s t) :
    Scoped ((ParseState.initial source).enter (functionScope false p.module)) t
      ((Node.program p).slots.flatMap (·.declarations (frames s.scopes)))
      ((Node.program p).slots.flatMap (·.opened (frames s.scopes))) := by
  have hstart : Numbered s.fresh s.scopes := h.read.scopes.start
  rw [h.scopes, h.fresh] at hstart
  exact (Scoped.of_eq hstart h.scopes h.fresh).trans h.read.scopes

/-- The scopes of a program that was read are exactly those that its tree tells. -/
theorem exact (h : ProgramRead source p s t) : p.ExactScopes := by
  have hscoped := h.gained
  obtain ⟨closed, hhead, hframe, hparent, hnodup, hnames, -⟩ := hscoped.closed rfl
  have hserial : closed.serial = 0 := congrArg Scope.Frame.serial hframe
  have hscope : p.scope = some closed := h.scope.trans hhead
  -- The program's scope is the first that is opened, and every other is opened inside it.
  have hchain : Scope.inside p.scope.toList [] = frames s.scopes := by
    rw [hscope, h.scopes]
    show [closed.frame] = _
    rw [hframe]
    rfl
  have hdeclarations : (Node.program p).declarations [] =
      (Node.program p).slots.flatMap (·.declarations (frames s.scopes)) := by
    rw [Node.declarations_eq, ← hchain]
    rfl
  have hopened : (Node.program p).opened [] =
      (none, closed) :: (Node.program p).slots.flatMap (·.opened (frames s.scopes)) := by
    rw [Node.opened_eq]
    show Scope.layers none p.scope.toList ++
      (Node.program p).slots.flatMap (·.opened (Scope.inside p.scope.toList [])) = _
    rw [hchain, hscope]
    rfl
  rw [← hdeclarations] at hscoped hnames
  refine ⟨?_, ?_, ?_, ?_, fun d hd => ?_, ⟨closed, hscope, congrArg Scope.Frame.kind hframe,
    hparent⟩, fun m hm => ?_⟩
  -- The root's serial number is the first, so no scope inside has it.
  · rw [hopened, List.map_cons, List.nodup_cons]
    refine ⟨fun hmem => ?_, hscoped.distinct⟩
    obtain ⟨o, ho, heq⟩ := List.mem_map.mp hmem
    have hrange : 1 ≤ o.2.serial := (hscoped.range o ho).1
    rw [heq, hserial] at hrange
    cases hrange
  · rw [hopened]
    exact List.forall_mem_cons.mpr ⟨hparent, hscoped.parents⟩
  · rw [hopened]
    exact List.forall_mem_cons.mpr ⟨hnodup, hscoped.nodup⟩
  · rw [hopened]
    exact List.forall_mem_cons.mpr ⟨hnames, hscoped.names⟩
  · rw [hopened]
    rcases hscoped.homes d hd with ⟨x, hx, hhome⟩ | ⟨o, ho, hhome⟩
    · rw [List.mem_singleton.mp hx] at hhome
      exact ⟨(none, closed), List.mem_cons_self, by rw [hhome, hserial]; rfl⟩
    · exact ⟨o, List.mem_cons_of_mem _ ho, hhome⟩
  · rw [Node.walk_eq] at hm
    rcases List.mem_cons.mp hm with rfl | hm
    · exact fun c hc => (h.children hc).2
    · obtain ⟨c, hc, hm⟩ := List.mem_flatMap.mp hm
      exact (h.children hc).1.scopes m hm

end ProgramRead

/-- Every program that is read has the scopes its tree tells, and nothing is declared in them
besides. -/
theorem scopes_exact {file : SourceFile} {module : Bool} {compiler : PatternCompiler} {p : Program}
    (h : parseFile file module compiler = .ok p) :
    p.ExactScopes := by
  obtain ⟨s, t, hread⟩ := parseFile_read h
  exact hread.exact

theorem scopes_exact_layeredScript :
    ∃ p, parseFile layeredScript false = .ok p ∧ p.ExactScopes := by
  obtain ⟨p, hp⟩ := layeredScript_read
  exact ⟨p, hp, scopes_exact hp⟩

end EcmaStack

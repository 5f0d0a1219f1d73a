import EcmaStack.Proofs.Layout.Functions

/-!
# The extent of classes
-/

namespace EcmaStack

open Scope (frames)

namespace Parse

variable {r : Rules} {e : Surroundings}

/-! ## Arguments and decorators -/

/-- A spread starts at its dots, which are in it, and ends with what is spread. -/
theorem spreadOrAssignment_whole (h : r.Charted) : Whole (spreadOrAssignment r) e .expr := by
  intro s hs
  refine .look fun _ => .ite (fun _ => ?_) fun _ => h.assignment e s hs
  refine .known rfl ((Stretch.start hs).skip fun _ t ht => ht.whole (h.assignment e)
    fun x u hu _ => ?_)
  exact .span (.pure (hu.node hs rfl rfl rfl))

/-- The arguments of a call lie between its parentheses. -/
theorem arguments_gathers (h : r.Charted) :
    Gathers (arguments r) e true fun args => args.map .expr := by
  intro s hs
  refine (Stretch.start hs).punct fun t ht =>
    ht.gather (.within (.commaList (spreadOrAssignment_whole h).gathers)) fun args u hu => ?_
  exact hu.skip fun _ v hv => .pure hv

/-- Parentheses cover what is in them: an arrow function if there is one, else an
expression. -/
theorem parenthesized_whole (h : r.Charted) : Whole (parenthesized r) e .expr := by
  intro s hs
  refine (Stretch.start hs).punct fun t ht => ht.whole (.within (h.expression _)) fun x u hu _ => ?_
  exact hu.skip fun _ v hv => .span (.pure (hv.node hs rfl rfl rfl))

/-- Dotted names go on from the expression before them. -/
theorem dottedNames_extent {x : Expr} {s₀ s : ParseState} (hs₀ : s₀.Ready e.source)
    (hx : Extent e.source s₀ s (.expr x)) :
    Holds (dottedNames s₀.token.start x) e s fun y t => Extent e.source s₀ t (.expr y) := by
  refine Holds.repeating (fun y t => Extent e.source s₀ t (.expr y)) hx fun y t hy => .look fun _ =>
    .ite (fun _ => ?_)
    fun _ => .pure hy
  refine hy.stretch.skip fun _ u hu => hu.whole memberName_whole fun property v hv _ =>
    .span (.pure ?_)
  exact hv.node hs₀ rfl rfl rfl

/-- The expression of a decorator starts at its first name, however many follow it. -/
theorem decoratorExpression_whole (h : r.Charted) : Whole (decoratorExpression r) e .expr := by
  intro s hs
  refine .look fun _ => .ite (fun _ => parenthesized_whole h s hs) fun _ => .known rfl ?_
  refine .bind (identifierReference_whole s hs) fun x t hx =>
    .bind (dottedNames_extent hs hx) fun y u hy => ?_
  refine .look fun _ => .ite (fun _ => ?_) fun _ => .pure hy
  exact hy.stretch.gather (arguments_gathers h) fun args v hv =>
    .span (.pure (hv.node hs rfl rfl rfl))

theorem decorators_gathers (h : r.Charted) :
    Gathers (decorators r) e false fun ds => ds.map .decorator := by
  intro s hs
  refine Holds.repeating (fun items t => Stretch e.source false s t (items.reverse.map .decorator))
    (.start hs)
    fun items t ht => ?_
  refine .look fun _ => .ite (fun _ => .known rfl ?_) fun _ => .pure ht
  refine (Stretch.start ht.ready).skip fun _ u hu =>
    hu.whole (decoratorExpression_whole h) fun x v hv _ => .span (.pure ?_)
  have hnode : Extent e.source t v (.decorator ⟨⟨t.token.start, v.previousEnd⟩, x⟩) :=
    hv.node ht.ready rfl rfl rfl
  exact (ht.trans hnode.stretch).weaken.more

/-! ## Elements -/

/-- A static block goes on from the word before it. -/
theorem staticBlock_stretch (h : r.Charted) {s₀ s : ParseState} (hs₀ : s₀.Ready e.source)
    (hs : Stretch e.source true s₀ s []) :
    Holds (staticBlock r s₀.token.start) e s fun x t =>
    Stretch e.source true s₀ t [.classElement x] := by
  have hbody : Leads (within Region.staticBlock do
      let _ ← expectPunct .leftBrace
      let items ← itemsUntil (· == .punct .rightBrace) r.item
      next
      return items) e true (fun chain items => .of chain (items.map .stmt)) fun _ => True := by
    refine .within fun s hs => (Stretch.start hs).punct fun t ht => ?_
    exact ht.gather (.itemsUntil (h.item _).gathers) fun items u hu => hu.skip fun _ v hv =>
      .pure ⟨hv, trivial⟩
  have hscope : Leads (inScope (functionScope false false) _) e _ _ _ := hbody.inScope rfl
  refine Passage.lead hs hscope fun x t hgood ht => ?_
  obtain ⟨body, scope⟩ := x
  rw [Part.nothing_append] at ht
  refine .span (.pure (Passage.closeScope ht hs₀ rfl rfl hgood.1 ?_).stretch)
  exact ⟨rfl, fun _ => rfl, fun _ _ => rfl, fun hkind => ⟨rfl, hkind⟩, id⟩

/-- A member goes on from the decorators before it. -/
theorem classMember_stretch (h : r.Charted) (derived static : Bool) {ds : List Decorator}
    {s₀ s : ParseState} {taken : Bool} (hs₀ : s₀.Ready e.source)
    (hds : Stretch e.source taken s₀ s (ds.map .decorator)) :
    Holds (classMember r derived s₀.token.start ds static) e s fun x t =>
    Stretch e.source true s₀ t [.classElement x] := by
  refine hds.skip fun accessor t ht => ht.skipEither fun m u hu => .known rfl ?_
  refine .either (propertyKey_finds h u hu.ready) (fun k v hv => ?_) fun _ => .unexpected
  obtain ⟨key, computed⟩ := k
  refine .look fun _ => .ite (fun _ => ?_) fun _ => ?_
  · refine hv.skip fun kind w hw => .bind (method_read h u.token.start kind _ _ _ hw.ready)
      fun f x ⟨hparts, hspan, hscopes⟩ => ?_
    have hmember := (hu.trans hw).closeFrom hparts hspan hu.onward hw.onward hscopes id
    rw [List.append_assoc] at hmember
    exact .span (.pure (hmember.node hs₀ rfl rfl rfl).stretch)
  · refine (hu.andThen hv).skipIf fun _ w hw => hw.skipIf fun _ x hx => ?_
    refine hx.gather (.behind (.within (h.assignment _))) fun o y hy => .span ?_
    rw [List.append_assoc] at hy
    exact (hy.node hs₀ rfl rfl rfl).stretch.skip fun _ z hz => .pure hz

/-- An element of a class, or one semicolon, which makes none. -/
theorem classElement_gathers (h : r.Charted) (derived : Bool) :
    Gathers (classElement r derived) e true fun x => [.classElement x] := by
  intro s hs
  refine .known rfl ((Stretch.start hs).gather (decorators_gathers h) fun ds t ht =>
    .known rfl (.ite (fun hword => ?_) fun _ => ?_))
  · refine .look fun _ => .ite (fun _ => .failIf (fun _ => .fail) fun hnone => ?_) fun _ =>
      .look fun _ =>
      .ite (fun _ => ?_) fun _ => ?_
    · have hempty : ds = [] := by simpa using hnone
      subst hempty
      refine ht.next (fun hend => ?_) fun u hu _ => staticBlock_stretch h hs hu
      rw [hend] at hword
      cases hword
    · exact ht.skip fun _ u hu => classMember_stretch h derived true hs hu
    · exact classMember_stretch h derived false hs ht
  · exact classMember_stretch h derived false hs ht

/-- The elements of a class one after the other, without those that were none. -/
theorem classElements_gathers (h : r.Charted) (derived : Bool) :
    Gathers (classElements r derived) e false fun items => items.map .classElement := by
  intro s hs
  refine Holds.repeating (fun items t => Stretch e.source false s t
    (items.reverse.map .classElement)) (.start hs)
    fun items t ht => ?_
  refine .look fun _ => .ite (fun _ => .pure ht) fun _ => .look fun _ =>
    .ite (fun _ => ht.skip fun _ u hu => .pure hu)
    fun _ => ?_
  exact ht.gather (classElement_gathers h derived) fun x u hu => .ite (fun _ => .failAt) fun _ =>
    .pure hu.weaken.more

/-! ## Classes -/

/-- What a class extends, and its elements in their scope. -/
def classPart (chain : List Scope.Frame) (x : Option Expr × List ClassElement × Option Scope) :
    Part :=
  Part.of chain (Node.maybe .expr x.1) ++
    Part.closing (fun chain elements => .of chain (elements.map .classElement)) chain x.2

/-- What follows the name of a class: its superclass, in the scope of the name, and its
elements, in a scope that is a function's. -/
theorem classRest_leads (h : r.Charted) : Leads (classRest r) e true classPart fun x =>
    x.2.2.map (·.kind) = some .function := by
  have hbody (derived : Bool) : Leads (within (fun _ => Region.classBody) do
      let _ ← expectPunct .leftBrace
      let elements ← classElements r derived
      next
      return elements) e true (fun chain elements => .of chain (elements.map .classElement))
        fun _ => True := by
    refine .within fun s hs => (Stretch.start hs).punct fun t ht => ?_
    exact ht.gather (classElements_gathers h derived) fun items u hu => hu.skip fun _ v hv =>
      .pure ⟨hv, trivial⟩
  intro s hs
  refine (Stretch.start hs).gather (.behind (h.leftHandSide e)) fun superClass t ht => ?_
  have hscope : Leads (inScope (functionScope false false) _) e _ _ _ :=
    (hbody superClass.isSome).inScope rfl
  exact Passage.lead ht hscope fun x u hgood hu => .pure ⟨hu, hgood.1⟩

/-- A class without a scope for its name. -/
theorem class_same {chain : List Scope.Frame} {span : Span} {ds : List Decorator}
    {name : Option Name} {x : Option Expr × List ClassElement × Option Scope}
    {closure : List String} :
    (Part.of chain (ds.map .decorator ++ Node.maybe .name name) ++ classPart chain x).Same
      (.inner chain
        (.expr (.classExpr ⟨span, name, x.1, x.2.1, ds, { scope := x.2.2, closure }⟩))) := by
  refine ⟨?_, fun d => ?_, ?_⟩
  · simp [classPart, Part.closing, Part.enclosed, Part.of, Part.inner, Node.slots, Expr.slots]
  · rw [Part.inner, Node.declarations_eq]
    simp [classPart, Part.closing, Part.enclosed, Part.of, Node.slots, Expr.slots, Node.maybe,
      Option.toList_map, List.flatMap_map, Node.declared, Expr.declared, Env.scopes, Env.ownName]
  · rw [Part.inner, Node.opened_eq]
    simp [classPart, Part.closing, Part.enclosed, Part.of, Node.slots, Expr.slots, Node.maybe,
      Option.toList_map, List.flatMap_map, Node.scopes, Expr.scopes, Env.scopes]
    classical
    rw [List.perm_iff_count]
    intro o
    simp only [List.count_append]
    omega

/-- A class with a scope for its name has what it extends and its elements there. -/
theorem namedClass_same {chain : List Scope.Frame} {span : Span} {ds : List Decorator} {n : Name}
    {x : Option Expr × List ClassElement × Option Scope} {own : Scope} {closure : List String} :
    (Part.of chain (ds.map .decorator ++ [Node.name n]) ++
      Part.closing (namedPart n classPart) chain (x, some own)).Same
      (.inner chain (.expr (.classExpr ⟨span, some n, x.1, x.2.1, ds,
        { scope := x.2.2, nameScope := some own, closure }⟩))) := by
  refine ⟨?_, fun d => ?_, ?_⟩
  · simp [classPart, namedPart, Part.closing, Part.enclosed, Part.of, Part.declaring, Part.inner,
      Node.slots, Expr.slots, Node.maybe]
  · rw [Part.inner, Node.declarations_eq]
    simp [classPart, namedPart, Part.closing, Part.enclosed, Part.of, Part.declaring, Node.slots,
      Expr.slots, Node.maybe, Option.toList_map, List.flatMap_map, Node.declared, Expr.declared,
      Env.scopes, Env.ownName, declared_own,
        or_left_comm]
  · rw [Part.inner, Node.opened_eq]
    simp [classPart, namedPart, Part.closing, Part.enclosed, Part.of, Part.declaring, Node.slots,
      Expr.slots, Node.maybe, Option.toList_map, List.flatMap_map, Node.scopes, Expr.scopes,
      Env.scopes]
    classical
    rw [List.perm_iff_count]
    intro o
    simp only [List.count_append, List.count_cons]
    omega

/-- A class from its keyword to its closing brace. Its decorators stand before that and
belong to what the class stands in. -/
theorem classLiteral_whole (h : r.Charted) (declaration nameOptional : Bool) :
    Whole (classLiteral r declaration nameOptional) e fun c => .expr (.classExpr c) := by
  intro s hs
  refine .known rfl ((Stretch.start hs).gather (decorators_gathers h) fun ds t ht => ht.word
    fun u hu => ?_)
  have hname : Gathers (className declaration nameOptional) e false (Node.maybe .name) := by
    intro s hs
    refine .look fun _ => .ite (fun _ => ?_) fun _ => .ite (fun _ => .unexpected) fun _ =>
      .pure (.start hs)
    exact (Stretch.start hs).whole requiredBinding_whole fun n t ht _ => .pure ht.weaken
  refine hu.gather hname fun name v hv => ?_
  dsimp only
  split
  · next n =>
    -- With a name the class is read inside a scope of its own, in which the name is declared
    -- first.
    have hrest : Leads (do
        declare n .constDecl
        classRest r) e true (namedPart n classPart) fun x => x.2.2.map (·.kind) =
          some .function := by
      intro s hs
      refine Passage.declareAt (Stretch.start hs) fun t ht _ => ?_
      refine (classRest_leads h t ht.ready).mono fun x u hx => ⟨?_, hx.2⟩
      have hboth := ht.trans hx.1
      rwa [ht.sameFrames, Part.nothing_append] at hboth
    have hscope : Leads (inBlock _) e _ _ _ := hrest.inScope rfl
    refine Passage.lead hv hscope fun x w hgood hw => ?_
    obtain ⟨⟨superClass, elements, scope⟩, nameScope⟩ := x
    obtain ⟨hown, hfunction⟩ := hgood
    cases nameScope with
    | none => cases hown
    | some own =>
      exact .known rfl
        (.span (.pure (Passage.close (hw.congr namedClass_same) hs rfl ⟨hown, hfunction⟩ id)))
  · refine Passage.lead hv (classRest_leads h) fun x w hgood hw => ?_
    obtain ⟨superClass, elements, scope⟩ := x
    exact .known rfl
      (.span (.pure (Passage.close (hw.congr (@class_same _ _ _ none _ _)) hs rfl ⟨rfl, hgood⟩ id)))

end Parse

end EcmaStack

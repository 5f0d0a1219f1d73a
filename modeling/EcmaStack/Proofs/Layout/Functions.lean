import EcmaStack.Proofs.Layout.Patterns

/-!
# The extent of functions and classes
-/

namespace EcmaStack

open Scope (frames)

namespace Parse

variable {r : Rules} {e : Surroundings}

/-- On a miss a rule that goes back and leaves the scopes alone has done nothing. -/
theorem still_of_miss {α : Type} {p : Parse (Option α)} (hback : GoesBack p) [hl : Leaves .none p]
    {s t : ParseState} (h : p e s = .ok (none, t)) : t = s := by
  have hscopes : s.scopes = t.scopes := hl.change e s none t h
  rw [hback e s t h, ← hscopes]

/-! ## Directives -/

/-- A directive is found if the text of the statement is one. -/
theorem directive_finds : Finds directive e true fun d => [.directive d] := by
  refine .attempt fun s hs => .known rfl (.ite (fun _ => .missed) fun hkind => ?_)
  refine hs.take (fun hend => hkind (by rw [hend]; rfl)) fun t ht hleaf => .look fun _ =>
    .ite (fun _ => ?_) fun _ =>
    .missed
  refine (Stretch.start ht).skip fun _ u hu => hu.skip fun text v hv => .found ?_
  have hnode :=
    hleaf (.directive ⟨tokenSpan s.token, text⟩) ⟨rfl, rfl, fun _ => rfl, fun _ _ => rfl, trivial,
      id⟩ rfl
  exact Stretch.pass hnode.stretch hv

theorem directives_gathers : Gathers directives e false fun ds => ds.map .directive := by
  have hleaves : Leaves .none directive := by
    unfold directive
    infer_instance
  intro s hs
  refine Holds.repeating (fun items t => Stretch e.source false s t (items.reverse.map .directive))
    (.start hs)
    fun items t ht => ?_
  refine .orElse (directive_finds t ht.ready) (fun u => still_of_miss (.attempt _))
    (fun d u hu => .pure ?_) (.pure ht)
  exact (ht.trans hu).weaken.more

/-! ## Functions -/

/-- A body from brace to brace: first the directives, then the statements. -/
theorem functionBody_whole (h : r.Charted) : Whole (functionBody r) e .body := by
  intro s hs
  refine (Stretch.start hs).punct fun t ht => ht.gather directives_gathers fun ds u hu => ?_
  refine hu.gather (.itemsUntil (h.item e).gathers) fun items v hv => hv.skip fun _ w hw =>
    .span (.pure (hw.node hs rfl rfl rfl))

/-- The parameters of a function, which are declared, and its body. -/
def functionPart (chain : List Scope.Frame) (x : Params × Body) : Part :=
  Part.of chain [Node.params x.1] ++ Part.declaring .param chain x.1.boundNames ++
    Part.of chain [.body x.2]

/-- Parameters and body share the scope of the function, which is closed and numbered
behind them. -/
theorem functionRest_leads (h : r.Charted) (generator async : Bool) :
    Leads (functionRest r generator async) e true
    (.closing functionPart) (Closed .function fun _ => True) := by
  have hparts : Leads (within Region.function do
      let params ← parameters r
      declareParameters params
      return (params, ← functionBody r)) e true functionPart fun _ => True := by
    refine .within fun s hs => ?_
    refine (Stretch.start hs).whole (parameters_whole h) fun params t ht _ => ?_
    refine Passage.declareAll ht fun u hu _ => hu.whole (functionBody_whole h) fun body v hv =>
      .pure ⟨hv, trivial⟩
  exact hparts.inScope rfl

/-- The name of a function, where one stands. -/
theorem functionName_gathers (declaration nameOptional generator async : Bool) :
    Gathers (functionName declaration nameOptional generator async) e false (Node.maybe .name) := by
  intro s hs
  refine .look fun _ => .ite (fun _ => ?_) fun _ => .ite (fun _ => .unexpected) fun _ =>
    .pure (.start hs)
  refine .ite (fun _ => ?_) fun _ => ?_
  · exact (Stretch.start hs).whole requiredBinding_whole fun n t ht _ => .pure ht.weaken
  · rintro o t heq
    obtain ⟨x, u, hscope, hrest⟩ := bind_ok heq
    obtain ⟨name, v, hname, rfl, rfl⟩ := inScope_ok hscope
    cases name with
    | none => exact absurd hrest (Holds.unexpected (P := fun _ _ => False) o t)
    | some n =>
      cases hrest
      have hread := (bindingIdentifier_finds _ (hs.enter _) _ v hname n rfl).stretch
      have hname (chain : List Scope.Frame) : Part.of chain [Node.name n] =
          ⟨[.name n], [], []⟩ := by
        simp [Part.of]
      rw [Stretch, hname] at hread
      rw [Stretch, Node.maybe, Option.map_some, Option.toList_some, hname]
      exact (hread.dropped hs rfl rfl).weaken

/-- A function without a scope for its name is its name, and parameters and body in its scope. -/
theorem function_same {chain : List Scope.Frame} {span : Span} {name : Option Name}
    {async generator : Bool} {x : (Params × Body) × Option Scope} {closure : List String} :
    (Part.of chain (Node.maybe .name name) ++ Part.closing functionPart chain x).Same
      (.inner chain (.function ⟨span, name, x.1.1, x.1.2, async, generator,
        { scope := x.2, closure }⟩)) := by
  refine ⟨rfl, fun d => ?_, ?_⟩
  · rw [Part.inner, Node.declarations_eq]
    simp [functionPart, Part.closing, Part.enclosed, Part.of, Part.declaring, Node.function,
      Node.slots, Expr.slots, Node.declared, Expr.declared, Node.inner, Node.scopes, Expr.scopes,
      Env.scopes, Env.ownName, or_left_comm]
  · rw [Part.inner, Node.opened_eq]
    simp [functionPart, Part.closing, Part.enclosed, Part.of, Part.declaring, Node.function,
      Node.slots, Expr.slots, Node.inner, Node.scopes, Expr.scopes, Env.scopes]

/-- What is read in the scope of a function's name. -/
def namedPart {α : Type} (n : Name) (part : List Scope.Frame → α → Part) (chain : List Scope.Frame)
    (a : α) : Part :=
  .declaring .constDecl chain [n] ++ part chain a

/-- A function with a scope for its name has the rest of it there. -/
theorem named_same {chain : List Scope.Frame} {span : Span} {n : Name} {async generator : Bool}
    {x : (Params × Body) × Option Scope} {own : Scope} {closure : List String} :
    (Part.of chain [Node.name n] ++ Part.closing (namedPart n (.closing functionPart)) chain
      (x, some own)).Same
      (.inner chain (.function ⟨span, some n, x.1.1, x.1.2, async, generator,
        { scope := x.2, nameScope := some own, closure }⟩)) := by
  refine ⟨rfl, fun d => ?_, ?_⟩
  · rw [Part.inner, Node.declarations_eq]
    simp [functionPart, namedPart, Part.closing, Part.enclosed, Part.of, Part.declaring,
      Node.function, Node.slots, Expr.slots, Node.declared, Expr.declared, Node.inner, Node.scopes,
      Expr.scopes, Env.scopes, Env.ownName, Node.maybe, Scope.inside, or_left_comm, declared_own]
  · rw [Part.inner, Node.opened_eq]
    simp [functionPart, namedPart, Part.closing, Part.enclosed, Part.of, Part.declaring,
      Node.function, Node.slots, Expr.slots, Node.inner, Node.scopes, Expr.scopes, Env.scopes,
      Node.maybe, Scope.inside]

/-- A function is told by its parts, and its range is what was read. -/
theorem function_read (h : r.Charted) (declaration nameOptional : Bool) {s : ParseState}
    (hs : s.Ready e.source) :
    Holds (function r declaration nameOptional) e s fun f t =>
      Passage e.source true s t (.inner (frames s.scopes) (.function f)) ∧ f.span =
        ⟨s.token.start, t.previousEnd⟩ ∧
        f.env.Fits (!declaration && f.name.isSome) := by
  refine .known rfl (.look fun async => (Stretch.start hs).skipIf fun _ t ht => ht.word
    fun u hu => .look
    fun generator => ?_)
  refine hu.skipIf fun _ v hv =>
    hv.gather (functionName_gathers declaration nameOptional generator async)
    fun name w hw => ?_
  dsimp only
  split
  · next n =>
    have hnamed : Leads (inBlock do
        declare n .constDecl
        functionRest r generator async) e true (.closing (namedPart n (.closing functionPart)))
        (Closed .block (Closed .function fun _ => True)) := by
      have hrest : Leads (do
          declare n .constDecl
          functionRest r generator async) e true (namedPart n (.closing functionPart))
            (Closed .function fun _ => True) := by
        intro s hs
        refine Passage.declareAt (Stretch.start hs) fun t ht _ => ?_
        refine (functionRest_leads h generator async t ht.ready).mono fun x u hx => ⟨?_, hx.2⟩
        have hboth := ht.trans hx.1
        rwa [ht.sameFrames, Part.nothing_append] at hboth
      exact hrest.inScope rfl
    refine Passage.lead hw hnamed fun x t hgood ht => ?_
    obtain ⟨⟨⟨params, body⟩, scope⟩, nameScope⟩ := x
    obtain ⟨hname, hscope, _⟩ := hgood
    cases nameScope with
    | none => cases hname
    | some own => exact .known rfl (.span (.pure ⟨ht.congr named_same, rfl, hname, hscope⟩))
  · next heq =>
    refine Passage.lead hw (functionRest_leads h generator async) fun x t hgood ht => ?_
    obtain ⟨⟨params, body⟩, scope⟩ := x
    obtain ⟨hscope, _⟩ := hgood
    refine .known rfl (.span (.pure ⟨ht.congr function_same, rfl, ?_, hscope⟩))
    dsimp only
    cases name with
    | none => rw [Option.isSome_none, Bool.and_false]; rfl
    | some n =>
      cases declaration with
      | false => exact absurd rfl (heq n rfl)
      | true => rfl

/-- A function expression extends over what was read. -/
theorem function_whole (h : r.Charted) (nameOptional : Bool) :
    Whole (function r false nameOptional) e .function := by
  intro s hs
  exact (function_read h false nameOptional hs).mono fun f t ⟨hread, hspan, hscopes⟩ =>
    hread.close hs hspan hscopes id

/-- The function of a method starts at the key, which has been read. -/
theorem method_read (h : r.Charted) (start : Nat) (kind : PropertyKind)
    (async generator superCall : Bool) {s : ParseState} (hs : s.Ready e.source) :
    Holds (method r start kind async generator superCall) e s fun f t =>
      Passage e.source true s t (.inner (frames s.scopes) (.function f)) ∧ f.span =
        ⟨start, t.previousEnd⟩ ∧
        (Node.function f).HasScopes := by
  have hparts : Leads (within (fun outer => outer.method superCall) do
      let paramStart ← offset
      let params ← parameters r
      checkAccessor kind paramStart params
      declareParameters params
      return (params, ← functionBody r)) e true functionPart fun _ => True := by
    refine .within fun s hs => .look fun _ => ?_
    refine (Stretch.start hs).whole (parameters_whole h) fun params t ht _ =>
      ht.skip fun _ u hu => ?_
    refine Passage.declareAll hu fun v hv _ => hv.whole (functionBody_whole h) fun body w hw =>
      .pure ⟨hw, trivial⟩
  have hscope : Leads (inScope (functionScope generator async) _) e _ _ _ := hparts.inScope rfl
  refine Passage.lead (Stretch.start hs) hscope fun x t hgood ht => ?_
  obtain ⟨⟨params, body⟩, scope⟩ := x
  exact .span (.pure ⟨ht.congr (@function_same _ _ none _ _ _ _), rfl, rfl, hgood.1⟩)

/-! ## Arrow functions -/

/-- One name, or a list in parentheses. -/
theorem arrowParameters_finds (h : r.Charted) : FindsWhole (arrowParameters r) e .params := by
  intro s hs
  refine .look fun _ => .ite (fun _ => ?_) fun _ =>
    FindsWhole.attempt (parameterList_finds h true) s hs
  refine .either (bindingIdentifier_finds s hs) (fun n t ht => .found ⟨?_, ht.span⟩) fun _ =>
    .missed
  have hpattern : Stretch e.source true s t ([] ++ [Node.pattern (.target (.identifier n))]) :=
    ht.bound
  have helement :
      Stretch e.source true s t ([] ++
        [Node.element (.bound n.span (.target (.identifier n)) none)]) :=
    hpattern.wrap rfl rfl rfl rfl
  exact helement.wrap rfl rfl rfl rfl

/-- The body of an arrow function is a block or a value. -/
theorem arrowBody_gathers (h : r.Charted) :
    Gathers (arrowBody r) e true fun x => x.1.orValue x.2 := by
  intro s hs
  refine .look fun _ => .ite (fun _ => ?_) fun _ => ?_
  · refine .bind (functionBody_whole h s hs) fun body t ht => .pure ?_
    cases body with
    | missing => exact absurd ht.filled (Int.lt_irrefl 0)
    | block => exact ht.stretch
  · exact (Stretch.start hs).whole (h.assignment e) fun x t ht _ => .pure ht

/-- The parameters of an arrow function, which are declared, and what it does. -/
def arrowPart (chain : List Scope.Frame) (x : Params × Body × Option Expr) : Part :=
  Part.of chain [Node.params x.1] ++ Part.declaring .param chain x.1.boundNames ++
    Part.of chain (x.2.1.orValue x.2.2)

/-- The parts of an arrow function are the slots of its node, in the same order. -/
theorem arrow_same {chain : List Scope.Frame} {span : Span} {async : Bool}
    {x : (Params × Body × Option Expr) × Option Scope}
    {closure : List String} : (Part.closing arrowPart chain x).Same
      (.inner chain
        (.expr (.arrow span x.1.1 x.1.2.1 x.1.2.2 async { scope := x.2, closure }))) := by
  refine ⟨rfl, fun d => ?_, ?_⟩
  · rw [Part.inner, Node.declarations_eq]
    simp [arrowPart, Part.closing, Part.enclosed, Part.of, Part.declaring, Node.slots, Expr.slots,
      Node.declared, Expr.declared, Node.inner, Node.scopes, Expr.scopes, Env.scopes, or_left_comm]
  · rw [Part.inner, Node.opened_eq]
    simp [arrowPart, Part.closing, Part.enclosed, Part.of, Part.declaring, Node.slots, Expr.slots,
      Node.inner, Node.scopes, Expr.scopes, Env.scopes]

/-- An arrow function that is missed has opened no scope and declared no name. -/
theorem arrowRest_leads (h : r.Charted) :
    LeadsOrMisses (arrowRest r) e arrowPart fun _ => True := by
  intro s hs
  refine .either (arrowParameters_finds h s hs) (fun params t ht => ?_) fun _ => .missed
  refine .look fun _ => .look fun _ => .ite (fun _ => .missed) fun _ =>
    ht.stretch.skip fun _ u hu => ?_
  refine Passage.declareAll hu fun v hv _ =>
    hv.gather (.within (arrowBody_gathers h)) fun x w hw => ?_
  exact .found ⟨hw, trivial⟩

theorem arrowFunction_finds (h : r.Charted) : FindsWhole (arrowFunction r) e .expr := by
  intro s hs
  refine .look fun o => ?_
  cases o with
  | none => exact .missed
  | some async =>
    refine .known rfl (.attempt ((Stretch.start hs).skipIf fun _ t ht => ?_))
    have htrial : LeadsOrMisses (inTrialScope (functionScope false async) (arrowRest r)) e
        (.closing arrowPart)
        (Closed .function fun _ => True) := (arrowRest_leads h).inTrialScope rfl
    refine .either (htrial t ht.ready) (fun x u ⟨hu, hgood⟩ => ?_) fun _ => .missed
    have hboth := Passage.trans ht hu
    rw [ht.sameFrames, Part.nothing_append] at hboth
    obtain ⟨⟨params, body, value⟩, scope⟩ := x
    exact .span (.found (Passage.close (hboth.congr arrow_same) hs rfl ⟨rfl, hgood.1⟩ id))

end Parse

end EcmaStack

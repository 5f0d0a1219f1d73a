import EcmaStack.Proofs.Layout.Laws

/-!
# Passages through scopes

A passage inside a scope becomes, once the scope is closed, a passage with that scope among
those opened on it. A declaration adds a name to what is declared.
-/

namespace EcmaStack

open Scope (frames Numbered)

open Parse

/-- Opening a scope moves nothing. -/
theorem ParseState.Ready.enter {source : Text} {s : ParseState} (hs : s.Ready source)
    (scope : Scope) :
    (s.enter scope).Ready source :=
  ⟨hs.placed.entered, hs.behind, hs.numbered.cons rfl⟩

namespace Passage

variable {source : Text} {s u : ParseState} {scope : Scope} {taken : Bool}

/-- A scope is closed that was opened at the start of a passage. What was read in it is told
where the chain has that scope at its head. -/
theorem leave {α : Type} {part : List Scope.Frame → α → Part} {a : α} (hs : s.Ready source)
    (hempty : scope.bindings = [])
    (h : Passage source taken (s.enter scope) u (part (frames (s.enter scope).scopes) a)) :
    Passage source taken s { u with scopes := u.scopes.tail }
    (.closing part (frames s.scopes) (a, u.scopes.head?)) ∧
      u.scopes.head?.map (·.kind) = some scope.kind := by
  obtain ⟨closed, hhead, hframe, hscopes⟩ := h.scopes.leave hs.numbered hempty
  have hchain : frames (s.enter scope).scopes = Scope.inside [closed] (frames s.scopes) := by
    show _ :: _ = closed.frame :: _
    rw [hframe]
    rfl
  rw [hchain] at h hscopes
  rw [hhead]
  exact ⟨⟨⟨⟨h.ready.placed.stands, hscopes.numbered.opened⟩, h.ready.behind, hscopes.numbered⟩,
    h.began, h.onward, h.ended,
    h.laid, hscopes⟩, congrArg (fun f => some (Scope.Frame.kind f)) hframe⟩

/-- A scope in which nothing was declared is dropped. -/
theorem dropped {part : Part} (hs : s.Ready source)
    (h : Passage source taken (s.enter scope) u part) (hdeclarations : part.declarations = [])
    (hopened : part.opened = []) :
    Passage source taken s { u with scopes := u.scopes.tail } part := by
  have hscopes := h.scopes
  rw [hdeclarations, hopened] at hscopes
  have hdropped := hscopes.drop hs.numbered
  refine ⟨⟨⟨h.ready.placed.stands, hdropped.numbered.opened⟩, h.ready.behind, hdropped.numbered⟩,
    h.began, h.onward,
    h.ended, h.laid, ?_⟩
  rw [hdeclarations, hopened]
  exact hdropped

end Passage

/-! ## Scopes -/

namespace Parse

variable {α β : Type} {e : Surroundings} {scope : Scope} {taken : Bool}
    {part : List Scope.Frame → α → Part}
  {good : α → Prop}

/-- The rule leads on a passage that is told by its answer, which is as it should be. -/
def Leads (p : Parse α) (e : Surroundings) (taken : Bool) (part : List Scope.Frame → α → Part)
    (good : α → Prop) : Prop :=
  ∀ s, s.Ready e.source → Holds p e s fun a t =>
    Passage e.source taken s t (part (frames s.scopes) a) ∧ good a

/-- A scope of a kind was closed, and what was answered in it is as it should be. -/
def Closed (kind : ScopeKind) (good : α → Prop) (x : α × Option Scope) : Prop :=
  x.2.map (·.kind) = some kind ∧ good x.1

/-- The rule leads on such a passage, unless it misses. -/
def LeadsOrMisses (p : Parse (Option α)) (e : Surroundings) (part : List Scope.Frame → α → Part)
    (good : α → Prop) : Prop :=
  ∀ s, s.Ready e.source → Holds p e s fun o t =>
    ∀ a ∈ o, Passage e.source true s t (part (frames s.scopes) a) ∧ good a

/-- A part may be read in another region. -/
theorem Leads.within {p : Parse α} {change : Region → Region}
    (h : Leads p { e with region := change e.region } taken part good) :
    Leads (Parse.within change p) e taken part good :=
  h

/-- What holds in a scope, before the scope is closed. -/
theorem Holds.inScope {p : Parse α} {s : ParseState} {P : α → ParseState → Prop}
    (h : Holds p e (s.enter scope) P) :
    Holds (Parse.inScope scope p) e s fun x t =>
      ∃ u, P x.1 u ∧ x.2 = u.scopes.head? ∧ t = { u with scopes := u.scopes.tail } := by
  rintro x t hscope
  obtain ⟨a, u, hpa, rfl, rfl⟩ := inScope_ok hscope
  exact ⟨u, h a u hpa, rfl, rfl⟩

/-- A scope that was opened empty holds what was declared while it was open, and is
numbered when it is closed. -/
theorem Leads.inScope {p : Parse α} (h : Leads p e taken part good) (hempty : scope.bindings = []) :
    Leads (Parse.inScope scope p) e taken (.closing part) (Closed scope.kind good) := by
  intro s hs
  refine (Holds.inScope (h _ (hs.enter scope))).mono fun x t ⟨u, ⟨hread, hgood⟩, hscope, hclosed⟩ =>
    ?_
  obtain ⟨a, _⟩ := x
  subst hscope hclosed
  obtain ⟨hleft, hkind⟩ := hread.leave hs hempty
  exact ⟨hleft, hkind, hgood⟩

/-- On trial the scope is closed if there is a match, and dropped otherwise. -/
theorem LeadsOrMisses.inTrialScope {p : Parse (Option α)} (h : LeadsOrMisses p e part good)
    (hempty : scope.bindings = []) :
    LeadsOrMisses (Parse.inTrialScope scope p) e (.closing part) (Closed scope.kind good) := by
  rintro s hs o t hscope x hx
  obtain ⟨o', u, hpo, rfl, hhit, _⟩ := inTrialScope_ok hscope
  cases o' with
  | none => cases hx
  | some a =>
    obtain ⟨hread, hgood⟩ := h _ (hs.enter scope) _ u hpo a rfl
    obtain ⟨hleft, hkind⟩ := hread.leave hs hempty
    rw [hhit rfl]
    cases hx
    exact ⟨hleft, hkind, hgood⟩

end Parse

section Steps

variable {α β : Type} {e : Surroundings} {s₀ s : ParseState} {taken : Bool} {part : Part}
    {R : β → ParseState → Prop}

namespace Passage

/-- What a rule leads to joins the part that was read so far. -/
theorem lead {p : Parse α} {f : α → Parse β} {more : Bool} {found : List Scope.Frame → α → Part}
    {good : α → Prop} (h : Passage e.source taken s₀ s part) (hp : Leads p e more found good)
    (hf : ∀ a t, good a →
      Passage e.source (taken || more) s₀ t (part ++ found (frames s₀.scopes) a) →
      Holds (f a) e t R) :
    Holds (p >>= f) e s R := by
  refine Holds.bind (hp s h.ready) fun a t ⟨ht, hgood⟩ => hf a t hgood ?_
  have hboth := h.trans ht
  rwa [h.sameFrames] at hboth

/-! ## Declarations -/

/-- A declaration adds a name to the part, at the scope that the chain tells, and moves
nothing. -/
theorem declareAt {name : Name} {site : Nat} {kind : DeclKind} {f : Unit → Parse β}
    (h : Passage e.source taken s₀ s part)
    (hf : ∀ t, Passage e.source taken s₀ t (part ++ Part.declaring kind (frames s₀.scopes) [name]) →
      t.previousEnd = s.previousEnd → Holds (f ()) e t R) :
      Holds (Parse.declareAt name site kind >>= f) e s R := by
  rintro b v heq
  obtain ⟨_, t, hdeclare, hfb⟩ := bind_ok heq
  have hscopes := declareAt_ok hdeclare
  have hsame : t = { s with scopes := t.scopes } := by
    obtain ⟨_, _, hget, hdeclare⟩ := bind_ok hdeclare
    cases hget
    rw [hscopes] at hdeclare
    have hdone : Except.ok ((), { s with scopes := t.scopes }) =
        (Except.ok (_, t) : Except ParseFault (Unit × ParseState)) :=
      hdeclare
    injection hdone with hpair
    exact (congrArg Prod.snd hpair).symm
  have hscoped := Scoped.declare (t := t) h.ready.numbered hscopes (by rw [hsame])
  have hdeclared : Passage e.source false s t (.declaring kind (frames s.scopes) [name]) := by
    refine ⟨⟨?_, ?_, hscoped.numbered⟩, nofun, ?_, ?_, nofun, hscoped⟩
    · rw [hsame]
      exact h.ready.placed.reopened hscoped.numbered.opened
    · rw [hsame]
      exact h.ready.behind
    · rw [hsame]
    · rw [hsame]
  have hboth := h.trans hdeclared
  rw [h.sameFrames, Bool.or_false] at hboth
  exact hf t hboth (by rw [hsame]) b v hfb

/-- So do several of them, by induction on the names. -/
theorem declareAll {kind : DeclKind} {names : List Name} {f : Unit → Parse β}
    (h : Passage e.source taken s₀ s part)
    (hf : ∀ t, Passage e.source taken s₀ t (part ++ Part.declaring kind (frames s₀.scopes) names) →
      t.previousEnd = s.previousEnd → Holds (f ()) e t R) :
      Holds (Parse.declareAll kind names >>= f) e s R := by
  have hall : Holds (Parse.declareAll kind names) e s fun _ t =>
      Passage e.source taken s₀ t (part ++ Part.declaring kind (frames s₀.scopes) names) ∧
        t.previousEnd = s.previousEnd := by
    clear hf
    induction names generalizing s part with
    | nil =>
      have hnothing := Stretch.pass h (Stretch.start h.ready)
      rw [Bool.or_false] at hnothing
      refine .pure ⟨?_, rfl⟩
      rw [← @Part.append_nothing (frames s₀.scopes) part] at hnothing
      exact hnothing
    | cons n rest ih =>
      refine declareAt h fun t ht hended => ?_
      refine (ih ht).mono fun _ u ⟨hu, hended'⟩ => ⟨?_, hended'.trans hended⟩
      rwa [Part.append_assoc] at hu
  exact .bind hall fun _ t ⟨ht, hended⟩ => hf t ht hended

end Passage

end Steps

end EcmaStack

/-!
## The extent of names, keys and patterns
-/

namespace EcmaStack

/-- What receives a value was read, be it told as a pattern or as the head of a loop. -/
structure TargetRead (source : Text) (s t : ParseState) (p : Pattern) : Prop where
  pattern : Stretch source true s t [.pattern p]
  head : Stretch source true s t [Parse.patternHead p]

/-- The rule reads what receives a value, unless it misses. -/
def Parse.FindsTarget (p : Parse (Option Pattern)) (e : Surroundings) : Prop :=
  ∀ s, s.Ready e.source → Parse.Holds p e s fun o t => ∀ p ∈ o, TargetRead e.source s t p

/-- Whoever answers goals reads nodes that extend over what was read, and puts the open scopes
back on a miss. -/
structure Rules.Charted (r : Rules) : Prop where
  confined : r.Confined
  expression : ∀ e, Parse.Whole r.expression e .expr
  assignment : ∀ e, Parse.Whole r.assignment e .expr
  binary : ∀ e least, Parse.Whole (r.binary least) e .expr
  unary : ∀ e, Parse.Whole r.unary e .expr
  leftHandSide : ∀ e, Parse.Whole r.leftHandSide e .expr
  construct : ∀ e, Parse.Whole r.construct e .expr
  target : ∀ e binding, Parse.FindsTarget (r.target binding) e
  statement : ∀ e, Parse.Whole r.statement e .stmt
  item : ∀ e, Parse.Whole r.item e .stmt

/-- An expression without parts is a leaf, if it has no names in it either. -/
theorem Node.atom_leaf {x : Expr} (hatom : x.isAtom = true) (hslots : x.slots = []) :
    (Node.expr x).Leaf := by
  refine ⟨hslots, ?_⟩
  cases x with
  | missing | identifier | privateName | nullLiteral | boolean | number | bigint | string | regexp
  | thisRef | superRef | metaProperty => exact ⟨rfl, fun _ => rfl, fun _ _ => rfl, trivial, id⟩
  | _ => cases hatom

/-- A name or a member that receives a value says the same as one that is read. -/
theorem Stretch.target {source : Text} {taken : Bool} {s t : ParseState} {nodes : List Node}
    {x : Expr} (h : Stretch source taken s t (nodes ++ [Node.expr x]))
    (hthere : (Node.expr x).isMissing = false) (hx : (Node.expr x).isPlain = true)
    (htarget : (Node.pattern (.target x)).isPlain = true)
    (hgives : (Node.expr x).GivesScopes → (Node.pattern (.target x)).GivesScopes) :
    Stretch source taken s t (nodes ++ [Node.pattern (.target x)]) := by
  have hplain := Node.plain_of_isPlain hx
  have hpattern := Node.plain_of_isPlain htarget
  refine h.relabel hthere (fun hx _ =>
    ⟨hx.relabel rfl rfl (hgives (hx.scopes _ (Node.mem_walk_self _))),
    hpattern.owns⟩) ?_ ?_
  · intro chain
    rw [hpattern.declarations, hplain.declarations]
    rfl
  · intro chain
    rw [hpattern.opened, hplain.opened]
    rfl

/-- A name that is bound. -/
theorem Extent.bound {source : Text} {s t : ParseState} {n : Name}
    (h : Extent source s t (.name n)) :
    Stretch source true s t [.pattern (.target (.identifier n))] := by
  have hname : Stretch source true s t ([] ++ [Node.name n]) := h.stretch
  exact hname.target rfl rfl rfl id

namespace Parse

namespace FindsTarget

variable {p : Parse (Option Pattern)} {e : Surroundings}

/-- A target that is found is a pattern, -/
theorem patterns (h : FindsTarget p e) : Finds p e true fun p => [.pattern p] :=
  fun s hs => (h s hs).mono fun _ _ ho p hp => (ho p hp).pattern

/-- or, in the head of a loop, the expression that it is. -/
theorem heads (h : FindsTarget p e) : Finds p e true fun p => [patternHead p] :=
  fun s hs => (h s hs).mono fun _ _ ho p hp => (ho p hp).head

theorem attempt (h : FindsTarget p e) : FindsTarget (Parse.attempt p) e :=
  fun s hs => .attempt (h s hs)

end FindsTarget

variable {r : Rules} {e : Surroundings}

/-! ## Names and keys -/

theorem bindingIdentifier_finds : FindsWhole bindingIdentifier e .name := by
  intro s hs
  refine .known rfl (.look fun reserved => .ite (fun _ => .missed) fun hkind => ?_)
  have hidentifier : s.token.kind = .identifier := by
    simp only [Bool.or_eq_true, bne_iff_ne, ne_eq, not_or, Decidable.not_not] at hkind
    exact hkind.1.1
  exact hs.take (by rw [hidentifier]; decide) fun t _ hleaf =>
    .found (hleaf _ (Node.name_leaf _) rfl)

theorem requiredBinding_whole : Whole requiredBinding e .name := by
  intro s hs
  exact (bindingIdentifier_finds s hs).either (fun n t ht => .pure ht) fun _ => .unexpected

theorem identifierReference_whole : Whole identifierReference e .expr := by
  intro s hs
  refine .known rfl (.ite (fun _ => .unexpected) fun hkind => .ite (fun _ => .fail) fun _ => ?_)
  refine .look fun reserved => .ite (fun _ => .fail) fun _ => ?_
  refine hs.take (fun hend => hkind (by rw [hend]; rfl)) fun t _ hleaf => ?_
  split <;> exact .pure (hleaf _ (Node.atom_leaf rfl rfl) rfl)

theorem memberName_whole : Whole memberName e .expr := by
  intro s hs
  refine .known rfl (.ite (fun hkind => .look fun here => .ite (fun _ => ?_) fun _ => .fail)
    fun _ =>
    .ite (fun hkind => ?_) fun _ => .unexpected)
  · refine hs.take (fun hend => ?_) fun t _ hleaf => .pure (hleaf _ (Node.atom_leaf rfl rfl) rfl)
    rw [hend] at hkind
    cases hkind
  · refine hs.take (fun hend => ?_) fun t _ hleaf => .pure (hleaf _ (Node.atom_leaf rfl rfl) rfl)
    rw [hend] at hkind
    cases hkind

/-- The text of a token is looked up in the source. -/
theorem literal_still (t : Token) {s : ParseState} : Holds (literal t) e s fun _ u => u = s := by
  refine .known rfl ?_
  exact .ite (fun _ => .pure rfl) fun _ => .failAt

/-- The literal of a number that was read is a leaf. -/
theorem numberLiteral_leaf (t : Token) {s : ParseState} : Holds (numberLiteral t) e s fun x u =>
    u = s ∧ (Node.expr x).Leaf ∧ x.span = tokenSpan t := by
  refine .bind (literal_still t) fun raw u hu => .ite (fun _ => ?_) fun _ => ?_
  · split
    · exact .pure ⟨hu, Node.atom_leaf rfl rfl, rfl⟩
    · exact .failAt
  · split
    · exact .pure ⟨hu, Node.atom_leaf rfl rfl, rfl⟩
    · exact .failAt

/-- The literal of a string covers its token. -/
theorem stringLiteral_leaf (t : Token) {s : ParseState} : Holds (stringLiteral t) e s fun l u =>
    u = s ∧ (Node.string l).Leaf ∧ (Node.string l).span = tokenSpan t :=
  .bind (literal_still t) fun _ _ hu => .pure ⟨hu, Node.atom_leaf rfl rfl, rfl⟩

/-- A key starts with a token of its own, or with a bracket. -/
theorem propertyKey_finds (h : r.Charted) : Finds (propertyKey r) e true fun k => [.expr k.1] := by
  intro s hs
  refine .known rfl ?_
  have hnumber (hkind : s.token.kind ≠ .eof) : Holds (do
      next
      return some (← numberLiteral s.token, false)) e s fun o t =>
        ∀ k ∈ o, Stretch e.source true s t [.expr k.1] := by
    refine hs.take hkind fun t _ hleaf => .bind (numberLiteral_leaf s.token) fun x u hx => ?_
    obtain ⟨rfl, hx, hspan⟩ := hx
    exact .found (hleaf _ hx hspan).stretch
  split
  · next hkind =>
    refine hs.take (by rw [hkind]; decide) fun t _ hleaf =>
      .bind (stringLiteral_leaf s.token) fun l u hl => ?_
    obtain ⟨rfl, hl, hspan⟩ := hl
    exact .found (hleaf _ hl hspan).stretch
  · next hkind => exact hnumber (by rw [hkind]; decide)
  · next hkind => exact hnumber (by rw [hkind]; decide)
  · refine (Stretch.start hs).skip fun _ t ht =>
      ht.whole (.within (h.assignment _)) fun key u hu _ => ?_
    exact hu.skip fun _ v hv => .found hv
  · next hkind =>
    refine hs.take (by rw [hkind]; decide) fun t _ hleaf => ?_
    exact .found (hleaf _ (Node.atom_leaf rfl rfl) rfl).stretch
  · refine .ite (fun hkind => ?_) fun _ => .missed
    refine hs.take (fun hend => ?_) fun t _ hleaf =>
      .found (hleaf _ (Node.atom_leaf rfl rfl) rfl).stretch
    rw [hend] at hkind
    cases hkind

/-! ## Patterns -/

theorem fallback_gathers (h : r.Charted) : Gathers (fallback r) e false (Node.maybe .expr) := by
  intro s hs
  refine .look fun there => .ite (fun _ => ?_) fun _ => .pure (.start hs)
  refine (Stretch.start hs).skip fun _ t ht => ht.whole (.within (h.assignment _)) fun d u hu _ =>
    .pure hu.weaken

theorem patternElement_finds (h : r.Charted) (binding : Bool) :
    FindsWhole (patternElement r binding) e .element := by
  intro s hs
  refine .known rfl ((Stretch.start hs).find (h.target e binding).patterns (fun p t ht => ?_)
    fun _ => .missed)
  exact ht.gather (fallback_gathers h) fun d u hu => .span (.found (hu.node hs rfl rfl rfl))

/-- What the elements and the rest of a pattern, or of a parameter list, are as nodes. -/
def partNodes {α : Type} (node : α → Node) (parts : List α × Option Pattern) : List Node :=
  parts.1.map node ++ Node.maybe .pattern parts.2

/-- Elements and rest of an array pattern. One of them that is missed misses the pattern. -/
theorem arrayElements_finds (h : r.Charted) (binding : Bool) :
    Finds (arrayElements r binding) e false (partNodes .element) := by
  intro s hs
  refine Holds.repeating (fun items t => Stretch e.source false s t (items.reverse.map .element))
    (.start hs)
    fun items t ht => ?_
  have hall {u : ParseState} {items : List Element}
      (hu : Stretch e.source false s u (items.reverse.map .element)) :
      Stretch e.source false s u (partNodes .element (items.reverse, none)) := by
    rwa [partNodes, Node.maybe, Option.map_none, Option.toList_none, List.append_nil]
  refine .look fun _ => .ite (fun _ => .pure (present (hall ht))) fun _ => ?_
  refine .look fun _ => .ite (fun _ => ?_) fun _ => .look fun _ => .ite (fun _ => ?_) fun _ => ?_
  · refine ht.skip fun _ u hu => .pure ?_
    exact (hu.missing (n := .element .hole) rfl).more
  · refine ht.skip fun _ u hu =>
      hu.find (h.target e binding).patterns (fun rest v hv => ?_) fun _ => .pure absent
    exact .look fun _ => .ite (fun _ => .pure (present hv.weaken)) fun _ => .pure absent
  · refine .either (patternElement_finds h binding t ht.ready) (fun x u hu => ?_) fun _ =>
      .pure absent
    have hmore := (ht.trans hu.stretch).weaken.more
    refine .look fun _ => .ite (fun _ => .pure (present (hall hmore))) fun _ => .look fun _ =>
      .ite (fun _ => ?_)
      fun _ => ?_
    · exact hmore.skip fun _ v hv => .pure hv
    · exact .pure absent

theorem arrayPattern_finds (h : r.Charted) (binding : Bool) :
    FindsTarget (arrayPattern r binding) e := by
  refine .attempt fun s hs => (Stretch.start hs).punct fun t ht =>
    ht.find (arrayElements_finds h binding)
    (fun parts u hu => ?_) fun _ => .missed
  obtain ⟨elements, rest⟩ := parts
  refine hu.skip fun _ v hv => .span (.found ?_)
  have hnode :=
    hv.node (n := .pattern (.array ⟨s.token.start, v.previousEnd⟩ elements rest)) hs rfl rfl rfl
  exact ⟨hnode.stretch, hnode.stretch⟩

theorem bindingTarget_finds :
    FindsTarget (do return (← bindingIdentifier).map fun n => Pattern.target (.identifier n))
    e := by
  intro s hs
  refine .either (bindingIdentifier_finds s hs) (fun n t ht => .found ⟨ht.bound, ht.stretch⟩)
    fun _ => .missed

/-- A shorthand property holds its name twice, as the key and as the target, at the same
place. -/
theorem patternProperty_finds (h : r.Charted) (binding : Bool) :
    FindsWhole (patternProperty r binding) e .patternProperty := by
  intro s hs
  refine .known rfl (.look fun _ => .look fun _ => .ite (fun _ => ?_) fun _ => ?_)
  · refine .either (bindingIdentifier_finds s hs) (fun n t ht => ?_) fun _ => .missed
    exact ht.bound.gather (fallback_gathers h) fun d u hu => .span (.found (hu.node hs rfl rfl rfl))
  · refine (Stretch.start hs).find (propertyKey_finds h) (fun k t ht => ?_) fun _ => .missed
    obtain ⟨key, computed⟩ := k
    refine .look fun _ => .ite (fun _ => .missed) fun _ => ht.skip fun _ u hu => ?_
    refine hu.find (h.target e binding).patterns (fun p v hv => ?_) fun _ => .missed
    exact hv.gather (fallback_gathers h) fun d w hw => .span (.found (hw.node hs rfl rfl rfl))

theorem objectRest_finds (h : r.Charted) (binding : Bool) : FindsTarget (objectRest r binding) e :=
  fun s hs => .ite (fun _ => bindingTarget_finds s hs) fun _ => h.target e false s hs

theorem objectProperties_finds (h : r.Charted) (binding : Bool) :
    Finds (objectProperties r binding) e false (partNodes .patternProperty) := by
  intro s hs
  refine Holds.repeating (fun items t => Stretch e.source false s t
    (items.reverse.map .patternProperty)) (.start hs)
    fun items t ht => ?_
  have hall {u : ParseState} {items : List PatternProperty}
      (hu : Stretch e.source false s u (items.reverse.map .patternProperty)) :
      Stretch e.source false s u (partNodes .patternProperty (items.reverse, none)) := by
    rwa [partNodes, Node.maybe, Option.map_none, Option.toList_none, List.append_nil]
  refine .look fun _ => .ite (fun _ => .pure (present (hall ht))) fun _ => .look fun _ =>
    .ite (fun _ => ?_) fun _ => ?_
  · refine ht.skip fun _ u hu => hu.find (objectRest_finds h binding).patterns (fun rest v hv => ?_)
      fun _ => .pure absent
    exact .look fun _ => .ite (fun _ => .pure (present hv.weaken)) fun _ => .pure absent
  · refine .either (patternProperty_finds h binding t ht.ready) (fun x u hu => ?_) fun _ =>
      .pure absent
    have hmore := (ht.trans hu.stretch).weaken.more
    refine .look fun _ => .ite (fun _ => .pure (present (hall hmore))) fun _ => .look fun _ =>
      .ite (fun _ => ?_)
      fun _ => ?_
    · exact hmore.skip fun _ v hv => .pure hv
    · exact .pure absent

theorem objectPattern_finds (h : r.Charted) (binding : Bool) :
    FindsTarget (objectPattern r binding) e := by
  refine .attempt fun s hs => (Stretch.start hs).punct fun t ht =>
    ht.find (objectProperties_finds h binding)
    (fun parts u hu => ?_) fun _ => .missed
  obtain ⟨properties, rest⟩ := parts
  refine hu.skip fun _ v hv => .span (.found ?_)
  have hnode :=
    hv.node (n := .pattern (.object ⟨s.token.start, v.previousEnd⟩ properties rest)) hs rfl rfl rfl
  exact ⟨hnode.stretch, hnode.stretch⟩

/-! ## What can be assigned to -/

/-- An expression without the parentheses around it. -/
theorem withoutParens_stretch {source : Text} {taken : Bool} {s t : ParseState} {nodes : List Node}
    {x : Expr} (h : Stretch source taken s t (nodes ++ [Node.expr x]))
    (hthere : (Node.expr x.withoutParens).isMissing = false) :
    Stretch source taken s t (nodes ++ [Node.expr x.withoutParens]) := by
  -- The expression inside parentheses is there, because the one without them is.
  let Reached (y : Expr) : Prop := y.withoutParens = x.withoutParens ∧
    Stretch source taken s t (nodes ++ [Node.expr y])
  have hreached : Reached x.withoutParens := by
    refine Expr.withoutParens_of (P := Reached) (fun span inner hparen => ?_) ⟨rfl, h⟩
    obtain ⟨hinner, h⟩ := hparen
    refine ⟨hinner, h.unwrap ?_ rfl rfl rfl id⟩
    cases inner with
    | missing =>
      rw [← hinner] at hthere
      cases hthere
    | _ => rfl
  exact hreached.2

/-- What can be assigned to is the expression itself, without the parentheses around it. -/
theorem simpleTarget_stretch {source : Text} {taken : Bool} {s t : ParseState} {nodes : List Node}
    {x y : Expr} (h : Stretch source taken s t (nodes ++ [Node.expr x]))
    (hy : x.simpleTarget? = some y) :
    Stretch source taken s t (nodes ++ [Node.expr y]) ∧
    Stretch source taken s t (nodes ++ [Node.pattern (.target y)]) := by
  rw [Expr.simpleTarget?] at hy
  split at hy
  · next n heq =>
    cases hy
    have hread := heq ▸ withoutParens_stretch h (by rw [heq]; rfl)
    exact ⟨hread, hread.target rfl rfl rfl id⟩
  · next heq =>
    dsimp only at hy
    split at hy
    · cases hy
    · cases hy
      have hread := heq ▸ withoutParens_stretch h (by rw [heq]; rfl)
      exact ⟨hread, hread.target rfl rfl rfl id⟩
  · cases hy

/-- An expression that is taken for a pattern stays the same. -/
theorem asPattern_still (x : Expr) {s : ParseState} :
    Holds (asPattern x) e s fun p t => t = s ∧ p = .target x := by
  unfold asPattern
  split
  · exact .pure ⟨rfl, rfl⟩
  · exact .pure ⟨rfl, rfl⟩
  · exact .fail

/-- A simple target is read as an expression, which is then taken for a pattern,
parentheses and all. -/
theorem simpleTarget_finds (h : r.Charted) : FindsTarget (simpleTarget r) e := by
  intro s hs
  refine .look fun k => ?_
  split
  case h_4 => exact .missed
  -- whatever the word, what follows is read as one expression
  all_goals
    refine (?_ : FindsTarget _ e) s hs
    refine .attempt fun s hs => (Stretch.start hs).whole (h.leftHandSide e) fun x t ht _ => ?_
    cases htarget : x.simpleTarget? with
    | none => exact .missed
    | some y =>
      refine .bind (asPattern_still y) fun p u hp => ?_
      obtain ⟨rfl, rfl⟩ := hp
      obtain ⟨hhead, hpattern⟩ := simpleTarget_stretch ht htarget
      exact .found ⟨hpattern, hhead⟩

theorem patternTarget_finds (h : r.Charted) (binding : Bool) :
    FindsTarget (patternTarget r binding) e := by
  intro s hs
  refine .look fun k => ?_
  split
  · exact arrayPattern_finds h binding s hs
  · exact objectPattern_finds h binding s hs
  · exact .ite (fun _ => bindingTarget_finds s hs) fun _ => simpleTarget_finds h s hs

/-! ## Parameters -/

/-- The items of a parameter list, in front of its closing parenthesis. -/
theorem parameterItems_finds (h : r.Charted) (speculative : Bool) :
    Finds (parameterItems r speculative) e false (partNodes .element) := by
  intro s hs
  have hmiss {u : ParseState} :
      Holds (if speculative then Pure.pure (.done none) else unexpected) e u fun turn v =>
      Turn.Holds (fun items : List Element => Stretch e.source false s v
        (items.reverse.map .element))
        (fun o => ∀ x ∈ o, Stretch e.source false s v (partNodes .element x)) turn :=
    .ite (fun _ => .pure absent) fun _ => .unexpected
  refine Holds.repeating (fun items t => Stretch e.source false s t (items.reverse.map .element))
    (.start hs)
    fun items t ht => ?_
  have hall : Stretch e.source false s t (partNodes .element (items.reverse, none)) := by
    rwa [partNodes, Node.maybe, Option.map_none, Option.toList_none, List.append_nil]
  refine .look fun _ => .ite (fun _ => .pure (present hall)) fun _ => .look fun _ =>
    .ite (fun _ => ?_) fun _ => ?_
  · refine ht.skip fun _ u hu =>
      hu.find (h.target e true).patterns (fun rest v hv => ?_) fun _ => hmiss
    refine .look fun _ => .ite (fun _ => .pure (present hv.weaken)) fun _ =>
      .ite (fun _ => .pure absent) fun _ => .fail
  · refine .either (patternElement_finds h true t ht.ready) (fun x u hu => ?_) fun _ => hmiss
    have hmore := (ht.trans hu.stretch).weaken.more
    refine .look fun _ => .ite (fun _ => .pure hmore) fun _ => .look fun _ =>
      .ite (fun _ => ?_) fun _ => hmiss
    exact hmore.skip fun _ v hv => .pure hv

theorem parameterList_finds (h : r.Charted) (speculative : Bool) :
    FindsWhole (parameterList r speculative) e .params := by
  intro s hs
  refine .known rfl (.ite (fun hopen => .known rfl ?_) fun _ => .ite (fun _ => .missed) fun _ =>
    .unexpected)
  refine (Stretch.start hs).next (fun hend => ?_) fun t ht _ => ?_
  · rw [hend] at hopen
    cases hopen
  · refine ht.find (.within (parameterItems_finds h speculative)) (fun parts u hu => ?_) fun _ =>
      .missed
    obtain ⟨items, rest⟩ := parts
    exact hu.skip fun _ v hv => .span (.found (hv.node hs rfl rfl rfl))

theorem parameters_whole (h : r.Charted) : Whole (parameters r) e .params := by
  intro s hs
  exact .either (parameterList_finds h false s hs) (fun p t ht => .pure ht) fun _ => .unexpected

end Parse

end EcmaStack

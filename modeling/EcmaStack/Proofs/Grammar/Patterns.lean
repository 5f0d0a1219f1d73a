import EcmaStack.Proofs.Grammar.Yields
import EcmaStack.Proofs.Tree.Grammatical

/-!
# Patterns and parameters are read grammatical

The rules for names, keys, patterns and parameter lists answer grammatical trees when the goals
they ask for are answered by grammatical trees. Whether a pattern binds its names or assigns to
its targets is no concern of theirs.
-/

/-!
## Goals that are answered by grammatical trees

`Rules.Sound` is what the rules ask of whoever answers their goals: grammatical trees. Only
statements depend on the region they are read in: the labels, loops and switches around a
statement are its exits.
-/

namespace EcmaStack

/-! ### Regions -/

/-- The exits that a region opens for the statements in it. -/
def Region.exits (r : Region) : Exits
  | .forBreak =>
    {l | (l = "" ∧ (r.inIteration = true ∨ r.inSwitch = true)) ∨ ∃ x ∈ r.labels, x.name = l}
  | .forContinue =>
    {l | (l = "" ∧ r.inIteration = true) ∨ ∃ x ∈ r.labels, x.name = l ∧ x.loop = true}

namespace Region

/-- Inside a loop without labels there is one more exit of each kind. -/
theorem exits_inIteration (r : Region) :
    { r with inIteration := true }.exits = r.exits.looping [] := by
  funext kind
  ext l
  cases kind <;> simp [Region.exits, Exits.looping, Exits.more] <;> tauto

/-- Inside a switch `break` has one more exit, and `continue` none. -/
theorem exits_inSwitch (r : Region) : { r with inSwitch := true }.exits = r.exits.switching [] := by
  funext kind
  ext l
  cases kind <;> simp [Region.exits, Exits.switching, Exits.more]; tauto

/-- A label is an exit for `break`, and for `continue` if it names a loop. -/
theorem exits_label (r : Region) (name : String) (loop : Bool) :
    { r with labels := ⟨name, loop⟩ :: r.labels }.exits = r.exits.labelled name loop := by
  funext kind
  ext l
  cases kind <;> cases loop <;> simp [Region.exits, Exits.labelled, Exits.more] <;> tauto

/-- A region without loops, switches and labels has no exits. -/
theorem exits_eq_none {here : Region} (hloop : here.inIteration = false)
    (hswitch : here.inSwitch = false) (hlabels : here.labels = []) : here.exits = .none := by
  funext kind
  cases kind <;> simp [Region.exits, Exits.none, hloop, hswitch, hlabels]

/-- A label that is found is an exit for `break`, and for `continue` where it names a loop. -/
theorem mem_exits_of_label? {r : Region} {name : String} {x : Label} (h : r.label? name = some x) :
    name ∈ r.exits .forBreak ∧ (x.loop = true → name ∈ r.exits .forContinue) := by
  have hmem := List.mem_of_find?_eq_some h
  have hfound := List.find?_some h
  have hname : x.name = name := beq_iff_eq.mp hfound
  exact ⟨Or.inr ⟨x, hmem, hname⟩, fun hloop => Or.inr ⟨x, hmem, hname, hloop⟩⟩

end Region

/-- Whether a loop starts with a token of a kind. -/
def Kind.startsLoop : Kind → Bool
  | .keyword .doWord | .keyword .whileWord | .keyword .forWord => true
  | _ => false

/-- Whether a superclass's constructor may be called in the region that is read. -/
abbrev Surroundings.calls (e : Surroundings) : Bool :=
  e.region.allowSuperCall

/-- An expression that is grammatical and not a bare `super`. -/
def Expr.ReadPlain (calls : Bool) (x : Expr) : Prop :=
  x.Grammatical calls ∧ x.isSuper = false

open Parse

/-- Whoever answers goals answers them with grammatical trees, and a statement that starts like
a loop with a loop. -/
structure Rules.Sound (r : Rules) : Prop where
  expression : ∀ e, Yields r.expression e fun _ => Expr.Grammatical e.calls
  assignment : ∀ e, Yields r.assignment e fun _ => Expr.Grammatical e.calls
  binary : ∀ e least, Yields (r.binary least) e fun _ => Expr.Grammatical e.calls
  unary : ∀ e, Yields r.unary e fun _ => Expr.Grammatical e.calls
  leftHandSide : ∀ e, Yields r.leftHandSide e fun _ => Expr.Grammatical e.calls
  construct : ∀ e, Yields r.construct e fun _ => Expr.ReadPlain e.calls
  target : ∀ e binding, Yields (r.target binding) e fun _ o => ∀ p ∈ o, p.Grammatical e.calls
  statement : ∀ e, Yields r.statement e (Stmt.Grammatical e.calls e.region.exits)
  loop : ∀ e s stmt t, r.statement e s = .ok (stmt, t) → s.token.kind.startsLoop = true →
    stmt.isLoop = true
  item : ∀ e, Yields r.item e (Stmt.Grammatical e.calls e.region.exits)

end EcmaStack

/-! ## Patterns -/

namespace EcmaStack

namespace Parse

variable {r : Rules} {e : Surroundings}

/-! ### Names and keys -/

theorem identifierReference_grammatical :
    Yields identifierReference e fun _ => Expr.ReadPlain e.calls := by
  refine .skip fun t => .ite (fun _ => .unexpected) fun _ => .ite (fun _ => .fail) fun _ => ?_
  refine .skip fun _ => .ite (fun _ => .fail) fun _ => .skip fun _ => ?_
  split <;> exact .pure ⟨.atom rfl, rfl⟩

theorem memberName_grammatical : Yields memberName e fun _ => Expr.Grammatical e.calls := by
  refine .skip fun t => .ite (fun _ => ?_) fun _ => .ite (fun _ => ?_) fun _ => .unexpected
  · exact .skip fun _ => .ite (fun _ => .skip fun _ => .pure (.atom rfl)) fun _ => .fail
  · exact .skip fun _ => .pure (.atom rfl)

theorem numberLiteral_grammatical (t : Token) :
    Yields (numberLiteral t) e fun _ => Expr.ReadPlain e.calls := by
  refine .skip fun raw => .ite (fun _ => ?_) fun _ => ?_
  · split
    · exact .pure ⟨.atom rfl, rfl⟩
    · exact .failAt
  · split
    · exact .pure ⟨.atom rfl, rfl⟩
    · exact .failAt

/-- A key is a name, a literal or an expression in brackets. -/
theorem propertyKey_grammatical (h : r.Sound) :
    Yields (propertyKey r) e fun _ o => ∀ k ∈ o, k.1.Grammatical e.calls := by
  refine .skip fun t => ?_
  split
  · exact .skip fun _ => .skip fun _ => .pure (present (.atom rfl))
  · exact .skip fun _ => (numberLiteral_grammatical t).bind fun k hk => .pure (present hk.1)
  · exact .skip fun _ => (numberLiteral_grammatical t).bind fun k hk => .pure (present hk.1)
  · exact .skip fun _ => (Yields.within (h.assignment _)).bind fun k hk => .skip fun _ =>
      .pure (present hk)
  · exact .skip fun _ => .pure (present (.atom rfl))
  · refine .ite (fun _ => ?_) fun _ => .pure absent
    exact .skip fun _ => .pure (present (.atom rfl))

/-! ### Patterns and parameters -/

theorem fallback_grammatical (h : r.Sound) :
    Yields (fallback r) e fun _ o => ∀ d ∈ o, d.Grammatical e.calls := by
  refine .skip fun _ => .ite (fun _ => ?_) fun _ => .pure absent
  exact .skip fun _ => (Yields.within (h.assignment _)).bind fun d hd => .pure (present hd)

theorem patternElement_grammatical (h : r.Sound) (binding : Bool) :
    Yields (patternElement r binding) e fun _ o => ∀ x ∈ o, x.Grammatical e.calls := by
  refine .skip fun start => (h.target e binding).bind fun o ho => ?_
  cases o with
  | none => exact .pure absent
  | some p =>
    refine (fallback_grammatical h).bind fun d hd => .skip fun _ => ?_
    exact .pure (present (.bound (ho p rfl) hd))

/-- Items and perhaps a rest, all resolved. -/
private def Parts {α : Type} (calls : Bool) (P : Bool → α → Prop)
    (parts : List α × Option Pattern) : Prop :=
  (∀ a ∈ parts.1, P calls a) ∧ ∀ p ∈ parts.2, p.Grammatical calls

/-- The elements of an array pattern, and the rest if there is one. The rest stands last. -/
theorem arrayElements_grammatical (h : r.Sound) (binding : Bool) :
    Yields (arrayElements r binding) e fun _ o => ∀ x ∈ o, Parts e.calls Element.Grammatical x := by
  refine .collecting (Element.Grammatical e.calls) fun items hitems => ?_
  refine .skip fun _ => .ite (fun _ => .pure (present ⟨reversed hitems, absent⟩)) fun _ => ?_
  refine .skip fun _ => .ite (fun _ => ?_) fun _ => .skip fun _ => .ite (fun _ => ?_) fun _ => ?_
  · exact .skip fun _ => .pure (extended .hole hitems)
  · refine .skip fun _ => (h.target e binding).bind fun o ho => ?_
    cases o with
    | none => exact .pure absent
    | some rest =>
      refine .skip fun _ => .ite (fun _ => ?_) fun _ => .pure absent
      exact .pure (present ⟨reversed hitems, ho⟩)
  · refine (patternElement_grammatical h binding).bind fun o ho => ?_
    cases o with
    | none => exact .pure absent
    | some x =>
      have hmore := extended (ho x rfl) hitems
      refine .skip fun _ => .ite (fun _ => ?_) fun _ => .skip fun _ => .ite (fun _ => ?_) fun _ =>
        .pure absent
      · exact .pure (present ⟨reversed hmore, absent⟩)
      · exact .skip fun _ => .pure hmore

theorem arrayPattern_grammatical (h : r.Sound) (binding : Bool) :
    Yields (arrayPattern r binding) e fun _ o => ∀ p ∈ o, p.Grammatical e.calls := by
  refine .attempt (.skip fun start => (arrayElements_grammatical h binding).bind fun o ho => ?_)
  cases o with
  | none => exact .pure absent
  | some parts =>
    obtain ⟨elements, rest⟩ := parts
    obtain ⟨helements, hrest⟩ := ho _ rfl
    exact .skip fun _ => .skip fun _ => .pure (present (.array helements hrest))

theorem bindingTarget_grammatical :
    Yields (do return (← bindingIdentifier).map fun n => Pattern.target (.identifier n)) e
    fun _ o =>
      ∀ p ∈ o, p.Grammatical e.calls := by
  refine .skip fun o => .pure ?_
  cases o with
  | none => exact absent
  | some n => exact present (.target (.atom rfl))

/-- A property of a pattern is a key with a target, or a name that is both. -/
theorem patternProperty_grammatical (h : r.Sound) (binding : Bool) :
    Yields (patternProperty r binding) e fun _ o => ∀ p ∈ o, p.Grammatical e.calls := by
  refine .skip fun start => .skip fun _ => .skip fun _ => .ite (fun _ => ?_) fun _ => ?_
  · refine .skip fun o => ?_
    cases o with
    | none => exact .pure absent
    | some n =>
      refine (fallback_grammatical h).bind fun d hd => .skip fun _ => ?_
      exact .pure (present (.mk (.atom rfl) (.target (.atom rfl)) hd))
  · refine (propertyKey_grammatical h).bind fun o ho => ?_
    cases o with
    | none => exact .pure absent
    | some k =>
      obtain ⟨key, computed⟩ := k
      refine .skip fun _ => .ite (fun _ => .pure absent) fun _ => .skip fun _ => ?_
      refine (h.target e binding).bind fun o' ho' => ?_
      cases o' with
      | none => exact .pure absent
      | some p =>
        refine (fallback_grammatical h).bind fun d hd => .skip fun _ => ?_
        exact .pure (present (.mk (ho _ rfl) (ho' p rfl) hd))

theorem objectRest_grammatical (h : r.Sound) (binding : Bool) :
    Yields (objectRest r binding) e fun _ o => ∀ p ∈ o, p.Grammatical e.calls :=
  .ite (fun _ => bindingTarget_grammatical) fun _ => h.target e false

/-- The properties of an object pattern, in the same way. -/
theorem objectProperties_grammatical (h : r.Sound) (binding : Bool) :
    Yields (objectProperties r binding) e fun _ o =>
    ∀ x ∈ o, Parts e.calls PatternProperty.Grammatical x := by
  refine .collecting (PatternProperty.Grammatical e.calls) fun items hitems => ?_
  refine .skip fun _ => .ite (fun _ => .pure (present ⟨reversed hitems, absent⟩)) fun _ => ?_
  refine .skip fun _ => .ite (fun _ => ?_) fun _ => ?_
  · refine .skip fun _ => (objectRest_grammatical h binding).bind fun o ho => ?_
    cases o with
    | none => exact .pure absent
    | some rest =>
      refine .skip fun _ => .ite (fun _ => ?_) fun _ => .pure absent
      exact .pure (present ⟨reversed hitems, ho⟩)
  · refine (patternProperty_grammatical h binding).bind fun o ho => ?_
    cases o with
    | none => exact .pure absent
    | some p =>
      have hmore := extended (ho p rfl) hitems
      refine .skip fun _ => .ite (fun _ => ?_) fun _ => .skip fun _ => .ite (fun _ => ?_) fun _ =>
        .pure absent
      · exact .pure (present ⟨reversed hmore, absent⟩)
      · exact .skip fun _ => .pure hmore

theorem objectPattern_grammatical (h : r.Sound) (binding : Bool) :
    Yields (objectPattern r binding) e fun _ o => ∀ p ∈ o, p.Grammatical e.calls := by
  refine .attempt (.skip fun start => (objectProperties_grammatical h binding).bind fun o ho => ?_)
  cases o with
  | none => exact .pure absent
  | some parts =>
    obtain ⟨properties, rest⟩ := parts
    obtain ⟨hproperties, hrest⟩ := ho _ rfl
    exact .skip fun _ => .skip fun _ => .pure (present (.object hproperties hrest))

/-! ### What can be assigned to -/

/-- Parentheses add nothing that would have to be grammatical. -/
theorem withoutParens_grammatical {calls : Bool} {x : Expr} (hx : x.Grammatical calls) :
    x.withoutParens.Grammatical calls := by
  refine Expr.withoutParens_of (P := (Expr.Grammatical calls ·)) (fun span inner h => ?_) hx
  cases h with
  | atom hatom => cases hatom
  | paren h => exact h

/-- What can be assigned to is the expression itself, without the parentheses around it. -/
theorem simpleTarget?_grammatical {calls : Bool} {x y : Expr} (hx : x.Grammatical calls)
    (hy : x.simpleTarget? = some y) : y.Grammatical calls := by
  have h := withoutParens_grammatical hx
  rw [Expr.simpleTarget?] at hy
  split at hy
  · next heq =>
    cases hy
    exact .atom rfl
  · next heq =>
    rw [heq] at h
    dsimp only at hy
    split at hy
    · cases hy
    · cases hy
      exact h
  · cases hy

/-- An expression that is taken for a pattern stays the same. -/
theorem asPattern_grammatical {x : Expr} (hx : x.Grammatical e.calls) :
    Yields (asPattern x) e fun _ => Pattern.Grammatical e.calls := by
  unfold asPattern
  split
  · exact .pure (.target hx)
  · exact .pure (.target hx)
  · exact .fail

/-- A name or a member, also in parentheses; chains that may be left out are no targets. -/
theorem simpleTarget_grammatical (h : r.Sound) :
    Yields (simpleTarget r) e fun _ o => ∀ p ∈ o, p.Grammatical e.calls := by
  refine .skip fun k => ?_
  split
  case h_4 => exact .pure absent
  -- whatever the word, what follows is read as one expression
  all_goals
    refine .attempt ((h.leftHandSide e).bind fun x hx => ?_)
    cases htarget : x.simpleTarget? with
    | none => exact .pure absent
    | some y =>
      exact (asPattern_grammatical (simpleTarget?_grammatical hx htarget)).bind fun p hp =>
        .pure (present hp)

theorem patternTarget_grammatical (h : r.Sound) (binding : Bool) :
    Yields (patternTarget r binding) e fun _ o => ∀ p ∈ o, p.Grammatical e.calls := by
  refine .skip fun k => ?_
  split
  · exact arrayPattern_grammatical h binding
  · exact objectPattern_grammatical h binding
  · exact .ite (fun _ => bindingTarget_grammatical) fun _ => simpleTarget_grammatical h

/-! ### Parameters -/

/-- The items of a parameter list, on trial or not. -/
theorem parameterItems_grammatical (h : r.Sound) (speculative : Bool) :
    Yields (parameterItems r speculative) e fun _ o =>
    ∀ x ∈ o, Parts e.calls Element.Grammatical x := by
  have hmiss {σ : Type} {I : σ → Prop} :
      Yields (if speculative then Pure.pure (.done none) else unexpected)
      e fun _ => Turn.Holds I fun o : Option (List Element × Option Pattern) =>
        ∀ x ∈ o, Parts e.calls Element.Grammatical x :=
    .ite (fun _ => .pure absent) fun _ => .unexpected
  refine .collecting (Element.Grammatical e.calls) fun items hitems => ?_
  refine .skip fun _ => .ite (fun _ => .pure (present ⟨reversed hitems, absent⟩)) fun _ => ?_
  refine .skip fun _ => .ite (fun _ => ?_) fun _ => ?_
  · refine .skip fun _ => (h.target e true).bind fun o ho => ?_
    cases o with
    | none => exact hmiss
    | some rest =>
      refine .skip fun _ => .ite (fun _ => ?_) fun _ => .ite (fun _ => .pure absent) fun _ => .fail
      exact .pure (present ⟨reversed hitems, ho⟩)
  · refine (patternElement_grammatical h true).bind fun o ho => ?_
    cases o with
    | none => exact hmiss
    | some x =>
      have hmore := extended (ho x rfl) hitems
      refine .skip fun _ => .ite (fun _ => .pure hmore) fun _ => .skip fun _ =>
        .ite (fun _ => ?_) fun _ => hmiss
      exact .skip fun _ => .pure hmore

/-- A list of parameters up to its closing parenthesis. -/
theorem parameterList_grammatical (h : r.Sound) (speculative : Bool) :
    Yields (parameterList r speculative) e fun _ o => ∀ p ∈ o, p.Grammatical e.calls := by
  refine .skip fun _ => .ite (fun _ => ?_) fun _ => .ite (fun _ => .pure absent) fun _ =>
    .unexpected
  refine .skip fun start => .skip fun _ =>
    (Yields.within (parameterItems_grammatical h speculative)).bind fun o ho => ?_
  cases o with
  | none => exact .pure absent
  | some parts =>
    obtain ⟨items, rest⟩ := parts
    obtain ⟨hitems, hrest⟩ := ho _ rfl
    exact .skip fun _ => .skip fun _ => .pure (present (.list hitems hrest))

theorem parameters_grammatical (h : r.Sound) :
    Yields (parameters r) e fun _ => Params.Grammatical e.calls := by
  refine (parameterList_grammatical h false).bind fun o ho => ?_
  cases o with
  | none => exact .unexpected
  | some p => exact .pure (ho p rfl)

end Parse

end EcmaStack

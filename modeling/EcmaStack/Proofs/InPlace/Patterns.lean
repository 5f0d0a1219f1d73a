import EcmaStack.Proofs.InPlace.Laws

/-!
# Patterns and parameters in place

A pattern marks where it starts and rewinds at each place where it turns out to
be none: after a rest element that is not the last, after an element that is no
target, and before anything that is neither a comma nor the closing bracket. A
parameter list does the same, and it has allowed the operator `in` meanwhile,
which is undone however it ends.
-/

namespace EcmaStack.InPlace

open Parse

/-! ## Keys and defaults -/

/-- The key of an object or class member, and whether it is computed. -/
def propertyKey (r : Rules) : InPlace (Option (Expr × Bool)) := do
  let t ← token
  match t.kind with
  | .string =>
    next
    return some (.string (← stringLiteral t), false)
  | .number | .bigint =>
    next
    return some (← numberLiteral t, false)
  | .punct .leftBracket =>
    next
    let restore ← setAllowIn true
    let key ← r.assignment
    restore
    let _ ← expectPunct .rightBracket
    return some (key, true)
  | .privateName =>
    next
    return some (.privateName (nameOf t), false)
  | k =>
    if k.isIdentifierName then
      next
      return some (.identifier (nameOf t), false)
    else return none

/-- An optional default value. -/
def fallback (r : Rules) : InPlace (Option Expr) := do
  if ← atPunct .assign then
    next
    let restore ← setAllowIn true
    let value ← r.assignment
    restore
    return some value
  return none

/-- A target with an optional default. -/
def patternElement (r : Rules) (binding : Bool) : InPlace (Option Element) := do
  let start ← offset
  match ← r.target binding with
  | none => return none
  | some target =>
    let value ← fallback r
    return some (.bound (← spanFrom start) target value)

/-! ## Array patterns -/

/-- The elements of an array pattern that starts at a mark, and its rest, up to
the closing bracket. -/
def arrayElements (r : Rules) (binding : Bool) (st : Mark) :
    InPlace (Option (List Element × Option Pattern)) :=
  repeating [] fun items => do
    if ← atPunct .rightBracket then return .done (some (items.reverse, none))
    if ← atPunct .comma then
      next
      return .again (.hole :: items)
    if ← atPunct .ellipsis then
      next
      match ← r.target binding with
      | some rest =>
        if ← atPunct .rightBracket then return .done (some (items.reverse, some rest))
        rewind st
        return .done none
      | none =>
        rewind st
        return .done none
    match ← patternElement r binding with
    | none =>
      rewind st
      return .done none
    | some e =>
      if ← atPunct .rightBracket then return .done (some ((e :: items).reverse, none))
      if ← atPunct .comma then
        next
        return .again (e :: items)
      rewind st
      return .done none

/-- An array pattern. -/
def arrayPattern (r : Rules) (binding : Bool) : InPlace (Option Pattern) := do
  let st ← mark
  let start ← expectPunct .leftBracket
  match ← arrayElements r binding st with
  | none => return none
  | some (elements, rest) =>
    next
    return some (.array (← spanFrom start) elements rest)

/-! ## Object patterns -/

/-- A property of an object pattern. It may miss after reading some of it, and
leaves it to the pattern to rewind. -/
def patternProperty (r : Rules) (binding : Bool) : InPlace (Option PatternProperty) := do
  let start ← offset
  if (← isAt .identifier) && (← peek).kind != .punct .colon then
    match ← bindingIdentifier with
    | none => return none
    | some n =>
      let value ← fallback r
      return some ⟨← spanFrom start, .identifier n, false, .target (.identifier n), value, true⟩
  else
    match ← propertyKey r with
    | none => return none
    | some (key, computed) =>
      if !(← atPunct .colon) || key.isPrivateName then return none
      next
      match ← r.target binding with
      | none => return none
      | some target =>
        let value ← fallback r
        return some ⟨← spanFrom start, key, computed, target, value, false⟩

/-- What may stand after the dots in an object pattern. -/
def objectRest (r : Rules) (binding : Bool) : InPlace (Option Pattern) := do
  if binding then return (← bindingIdentifier).map fun n => .target (.identifier n)
  r.target false

/-- The properties of an object pattern that starts at a mark, and its rest, up
to the closing brace. -/
def objectProperties (r : Rules) (binding : Bool) (st : Mark) :
    InPlace (Option (List PatternProperty × Option Pattern)) :=
  repeating [] fun items => do
    if ← atPunct .rightBrace then return .done (some (items.reverse, none))
    if ← atPunct .ellipsis then
      next
      match ← objectRest r binding with
      | some rest =>
        if ← atPunct .rightBrace then return .done (some (items.reverse, some rest))
        rewind st
        return .done none
      | none =>
        rewind st
        return .done none
    match ← patternProperty r binding with
    | none =>
      rewind st
      return .done none
    | some p =>
      if ← atPunct .rightBrace then return .done (some ((p :: items).reverse, none))
      if ← atPunct .comma then
        next
        return .again (p :: items)
      rewind st
      return .done none

/-- An object pattern. -/
def objectPattern (r : Rules) (binding : Bool) : InPlace (Option Pattern) := do
  let st ← mark
  let start ← expectPunct .leftBrace
  match ← objectProperties r binding st with
  | none => return none
  | some (properties, rest) =>
    next
    return some (.object (← spanFrom start) properties rest)

/-! ## Targets -/

/-- A target that is an identifier or a member. -/
def simpleTarget (r : Rules) : InPlace (Option Pattern) := do
  match ← kind with
  | .identifier | .keyword .thisWord | .keyword .superWord =>
    let st ← mark
    let e ← r.leftHandSide
    match e.simpleTarget? with
    | some target => return some (← asPattern target)
    | none =>
      rewind st
      return none
  | _ => return none

/-- Something that receives a value. -/
def patternTarget (r : Rules) (binding : Bool) : InPlace (Option Pattern) := do
  match ← kind with
  | .punct .leftBracket => arrayPattern r binding
  | .punct .leftBrace => objectPattern r binding
  | _ =>
    if binding then return (← bindingIdentifier).map fun n => .target (.identifier n)
    simpleTarget r

/-! ## Parameters -/

/-- The parameters between parentheses and the rest parameter, up to the closing
parenthesis. A list that is not well formed is a miss when reading
speculatively, and a fault otherwise. -/
def parameterItems (r : Rules) (speculative : Bool) (st : Mark) :
    InPlace (Option (List Element × Option Pattern)) :=
  let miss {σ : Type} : InPlace (Turn σ (Option (List Element × Option Pattern))) := do
    if speculative then
      rewind st
      return .done none
    else unexpected
  repeating [] fun items => do
    if ← atPunct .rightParen then return .done (some (items.reverse, none))
    if ← atPunct .ellipsis then
      next
      match ← r.target true with
      | none => miss
      | some rest =>
        if ← atPunct .rightParen then return .done (some (items.reverse, some rest))
        if speculative then miss
        else fail .restNotLast
    else
      match ← patternElement r true with
      | none => miss
      | some e =>
        if ← atPunct .rightParen then return .again (e :: items)
        if ← atPunct .comma then
          next
          return .again (e :: items)
        miss

/-- A parameter list in parentheses. The operator `in` is allowed in it, and
after it is what it was before, also after a miss. -/
def parameterList (r : Rules) (speculative : Bool) : InPlace (Option Params) := do
  let st ← mark
  if ← atPunct .leftParen then
    let start ← offset
    next
    let restore ← setAllowIn true
    match ← parameterItems r speculative st with
    | none =>
      restore
      return none
    | some (items, rest) =>
      next
      let span ← spanFrom start
      restore
      return some (.list span items rest)
  else if speculative then
    rewind st
    return none
  else unexpected

/-- A parameter list. -/
def parameters (r : Rules) : InPlace Params := do
  match ← parameterList r false with
  | some p => return p
  | none => unexpected

namespace Follows

variable {r : InPlace.Rules} {q : EcmaStack.Rules} [h : r.Follow q]

instance propertyKey : Follows (InPlace.propertyKey r) (Parse.propertyKey q) := by
  refine andThen fun t => ?_
  generalize t.kind = k
  cases k with
  | punct p => cases p <;> infer_instance
  | _ => infer_instance

instance fallback : Follows (InPlace.fallback r) (Parse.fallback q) := by
  unfold InPlace.fallback Parse.fallback
  infer_instance

instance patternElement {binding : Bool} :
    Follows (InPlace.patternElement r binding) (Parse.patternElement q binding) := by
  refine andThen fun start => andThen fun o => ?_
  cases o <;> infer_instance

/-- The elements of an array pattern, up to a miss among them: the whole pattern is missed
with it, and the parser is back at its first bracket. -/
theorem arrayElements {binding : Bool} {st : Mark} : Follows (InPlace.arrayElements r binding st)
    (undoing Option.isNone st (Parse.arrayElements q binding)) := by
  refine undoTurns fun items => undo fun _ => undoBranch inferInstance ?_
  refine undo fun _ => undoBranch inferInstance ?_
  refine undo fun _ => undoBranch ?_ ?_
  · refine undo fun _ => undo fun o => ?_
    cases o <;> infer_instance
  · refine undo fun o => ?_
    cases o <;> infer_instance

instance arrayPattern {binding : Bool} :
    Follows (InPlace.arrayPattern r binding) (Parse.arrayPattern q binding) :=
  attempt fun _ => undo fun _ => part arrayElements rfl rfl fun _ => inferInstance

instance patternProperty {binding : Bool} :
    Follows (InPlace.patternProperty r binding) (Parse.patternProperty q binding) := by
  refine andThen fun start => andThen fun _ => andThen fun _ => branch ?_ ?_
  · refine andThen fun o => ?_
    cases o <;> infer_instance
  · refine andThen fun o => ?_
    cases o with
    | none => infer_instance
    | some x =>
      refine andThen fun _ => branch inferInstance (andThen fun _ => andThen fun o => ?_)
      cases o <;> infer_instance

instance objectRest {binding : Bool} :
    Follows (InPlace.objectRest r binding) (Parse.objectRest q binding) := by
  unfold InPlace.objectRest Parse.objectRest
  infer_instance

/-- The properties of an object pattern, in the same way. -/
theorem objectProperties {binding : Bool} {st : Mark} :
    Follows (InPlace.objectProperties r binding st)
    (undoing Option.isNone st (Parse.objectProperties q binding)) := by
  refine undoTurns fun items => undo fun _ => undoBranch inferInstance ?_
  refine undo fun _ => undoBranch ?_ ?_
  · refine undo fun _ => undo fun o => ?_
    cases o <;> infer_instance
  · refine undo fun o => ?_
    cases o <;> infer_instance

instance objectPattern {binding : Bool} :
    Follows (InPlace.objectPattern r binding) (Parse.objectPattern q binding) :=
  attempt fun _ => undo fun _ => part objectProperties rfl rfl fun _ => inferInstance

instance simpleTarget : Follows (InPlace.simpleTarget r) (Parse.simpleTarget q) := by
  refine andThen fun k => ?_
  have hread : Follows (do
      let st ← InPlace.mark
      let e ← r.leftHandSide
      match e.simpleTarget? with
      | some target => return some (← asPattern target)
      | none =>
        rewind st
        return none) (Parse.attempt do
      let e ← q.leftHandSide
      match e.simpleTarget? with
      | some target => return some (← asPattern target)
      | none => return none) := by
    refine attempt fun _ => undo fun e => ?_
    generalize e.simpleTarget? = o
    cases o <;> infer_instance
  have hother : Follows (return none : InPlace (Option Pattern)) (return none) := inferInstance
  cases k with
  | identifier => exact hread
  | keyword w => cases w <;> first | exact hread | exact hother
  | _ => exact hother

instance patternTarget {binding : Bool} :
    Follows (InPlace.patternTarget r binding) (Parse.patternTarget q binding) := by
  refine andThen fun k => ?_
  cases k with
  | punct p => cases p <;> infer_instance
  | _ => infer_instance

/-- The items of a parameter list. They rewind only where the list is read on trial;
elsewhere a miss is an error. -/
theorem parameterItems {speculative : Bool} {st : Mark} :
    Follows (InPlace.parameterItems r speculative st)
    (undoing (fun o => o.isNone && speculative) st (Parse.parameterItems q speculative)) := by
  have hmiss : Follows (if speculative then do
      rewind st
      return Turn.done none
    else unexpected : InPlace (Turn (List Element) (Option (List Element × Option Pattern))))
      (undoing (endsMissed fun o => o.isNone && speculative) st
        (if speculative then return .done none else unexpected)) := by
    cases speculative with
    | false => exact ⟨rfl⟩
    | true => exact gone rfl
  refine undoTurns fun items => undo fun _ => undoBranch (matched rfl) ?_
  refine undo fun _ => undoBranch ?_ ?_
  · refine undo fun _ => undo fun o => ?_
    cases o with
    | none => exact hmiss
    | some rest =>
      refine undo fun _ => undoBranch (matched rfl) ?_
      cases speculative with
      | false => exact ⟨rfl⟩
      | true => exact hmiss
  · refine undo fun o => ?_
    cases o with
    | none => exact hmiss
    | some e =>
      exact undo fun _ =>
        undoBranch (matched rfl) (undo fun _ => undoBranch (undo fun _ => matched rfl) hmiss)

/-- However the list ends, the flag is put back: after a miss at once, and
otherwise when the closing parenthesis has been read. -/
theorem parameterList {speculative : Bool} :
    Follows (InPlace.parameterList r speculative) fun e s =>
    undoing (fun o => o.isNone && speculative) s.mark (Parse.parameterList q speculative) e s := by
  refine marked fun st => undo fun _ => undoBranch (undo fun start => undo fun _ => ?_) ?_
  · rw [undoing_part (fun o ho => ?_) fun o ho => ?_, undoing_withIn]
    · refine Runs.follows fun c =>
        .setAllowIn (.bind (.withIn (.of_follows parameterItems)) fun o => ?_)
      cases o with
      | none => exact .changeContext .pure
      | some x => exact .bind .blind fun _ => .bind .blind fun span => .changeContext .pure
    · cases o with
      | none => exact ⟨none, ho, rfl⟩
      | some x => cases ho
    · cases o with
      | none =>
        have hcommitted : speculative = false := ho
        subst hcommitted
        rfl
      | some x =>
        simp only [undoing_bind]
        rfl
  · cases speculative with
    | false => exact ⟨rfl⟩
    | true => exact missedNone

/-- A list that may turn out to be something else. -/
instance maybeParameters : Follows (InPlace.parameterList r true) (Parse.maybeParameters q) := by
  have hlist : Follows (InPlace.parameterList r true) _ := parameterList (q := q)
  simp only [Bool.and_true] at hlist
  rw [Parse.maybeParameters, attempt_eq]
  exact hlist

instance parameters : Follows (InPlace.parameters r) (Parse.parameters q) := by
  have hlist : Follows (InPlace.parameterList r false) _ := parameterList (q := q)
  simp only [undoing_never fun _ => Bool.and_false _] at hlist
  refine @andThen _ _ _ _ _ _ hlist fun o => ?_
  cases o <;> infer_instance

end Follows

end EcmaStack.InPlace

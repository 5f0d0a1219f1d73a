import EcmaStack.Grammar.Program

/-!
# Rules that only look

A rule **looks** if it answers from wherever it is asked and changes nothing: the tests for the
token in hand and for what comes after it, and whatever is put together from them.
-/

namespace EcmaStack.Parse

/-- The rule answers, and leaves everything as it is. -/
class Looks {α : Type} (p : Parse α) : Prop where
  looks : ∀ e s, ∃ a, p e s = .ok (a, s)

namespace Looks

variable {α β : Type} {p q : Parse α} {f : α → Parse β}

/-- A rule that only looks answers in the state in which it was asked. -/
theorem same [hp : Looks p] {e : Surroundings} {s t : ParseState} {a : α} (h : p e s = .ok (a, t)) :
    t = s := by
  obtain ⟨b, hb⟩ := hp.looks e s
  rw [hb] at h
  cases h
  rfl

/-- Looking twice is looking. -/
theorem andThen [hp : Looks p] (hf : ∀ a, Looks (f a)) : Looks (p >>= f) where
  looks e s := by
    obtain ⟨a, ha⟩ := hp.looks e s
    obtain ⟨b, hb⟩ := (hf a).looks e s
    refine ⟨b, ?_⟩
    change Parse.andThen p f e s = .ok (b, s)
    rw [Parse.andThen, ha]
    exact hb

instance bind [Looks p] [hf : ∀ a, Looks (f a)] : Looks (p >>= f) :=
  andThen hf

instance pure {a : α} : Looks (Pure.pure a : Parse α) :=
  ⟨fun _ _ => ⟨a, rfl⟩⟩

instance ite {c : Prop} [Decidable c] [Looks p] [Looks q] : Looks (if c then p else q) := by
  split <;> assumption

instance get : Looks Parse.get :=
  ⟨fun _ s => ⟨s, rfl⟩⟩

instance surroundings : Looks Parse.surroundings :=
  ⟨fun e _ => ⟨e, rfl⟩⟩

instance region : Looks Parse.region := by
  unfold Parse.region
  infer_instance

/-! ## Tokens -/

instance token : Looks Parse.token := by
  unfold Parse.token
  infer_instance

instance kind : Looks Parse.kind := by
  unfold Parse.kind
  infer_instance

instance offset : Looks Parse.offset := by
  unfold Parse.offset
  infer_instance

instance peek : Looks Parse.peek := by
  unfold Parse.peek
  infer_instance

instance peekTwo : Looks Parse.peekTwo := by
  unfold Parse.peekTwo
  infer_instance

instance isAt {k : Kind} : Looks (Parse.isAt k) := by
  unfold Parse.isAt
  infer_instance

instance atPunct {p : Punct} : Looks (Parse.atPunct p) :=
  isAt

instance atWord {k : Keyword} : Looks (Parse.atWord k) :=
  isAt

instance atContextual {name : String} : Looks (Parse.atContextual name) := by
  unfold Parse.atContextual
  infer_instance

instance canEnd : Looks Parse.canEnd := by
  unfold Parse.canEnd
  infer_instance

instance spanFrom {start : Nat} : Looks (Parse.spanFrom start) := by
  unfold Parse.spanFrom
  infer_instance

/-! ## Scopes -/

instance inGenerator : Looks Parse.inGenerator := by
  unfold Parse.inGenerator
  infer_instance

instance inAsync : Looks Parse.inAsync := by
  unfold Parse.inAsync
  infer_instance

instance isReservedHere {name : String} : Looks (Parse.isReservedHere name) := by
  unfold Parse.isReservedHere
  infer_instance

/-! ## What comes next -/

instance modifierFollows {allowNewline : Bool} : Looks (Parse.modifierFollows allowNewline) := by
  refine andThen fun t => ?_
  split
  · infer_instance
  · split <;> infer_instance

instance arrowStart : Looks Parse.arrowStart := by
  unfold Parse.arrowStart
  infer_instance

instance startsUsing : Looks Parse.startsUsing := by
  unfold Parse.startsUsing
  infer_instance

instance startsDeclaration : Looks Parse.startsDeclaration := by
  refine andThen fun k => ?_
  split <;> infer_instance

instance startsAsyncFunction {sameLine : Bool} : Looks (Parse.startsAsyncFunction sameLine) := by
  unfold Parse.startsAsyncFunction
  infer_instance

instance loopWord : Looks Parse.loopWord := by
  unfold Parse.loopWord
  infer_instance

end Looks

end EcmaStack.Parse

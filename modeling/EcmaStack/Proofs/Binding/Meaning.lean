import EcmaStack.Lowering.Tree
import EcmaStack.Proofs.Evaluation.Meaning

/-!
# What patterns bind

The meaning of binding patterns by their structure, without a machine. Whatever is done with a
value is an **event**, and what an event answers is left open: a **host** answers by everything
that was done before, or throws. Defaults and computed keys are events too, so any expression
may stand there.

Elements are pulled and properties read in order of the source, a default is evaluated just
where a value is undefined, and every name is stored once for each place it stands at, in the
order of `Pattern.boundNames` (`Pattern.receive_stores`).
-/

namespace EcmaStack

/-- What is done when a value is bound. -/
inductive Event (V : Type) where
  | iterator (iterable : V)
  | next (iterator : V)
  | rest (iterator : V)
  | getField (object key : V)
  | restObject (object : V) (keys : List V)
  | evaluate (e : Expr) (use : Use)
  | store (name : List UInt8) (v : V)

/-- Which value is a constant, which is undefined, what an event answers when it is the last of
all that was done, and whether an iterator is done. An event without an answer throws. -/
structure Host (V : Type) where
  constant : Constant → V
  isUndefined : V → Bool
  answer : List (Event V) → Option V
  finished : List (Event V) → V

/-- Something that is tried, which adds to what was done before. -/
abbrev Attempt (V α : Type) := OptionT (StateM (List (Event V))) α

section

variable {V : Type} (h : Host V)

namespace Host

/-- Do something and take the answer. -/
def ask (event : Event V) : Attempt V V := fun trace =>
  (h.answer (trace ++ [event]), trace ++ [event])

/-- Whether the iterator that was asked last is done. -/
def isDone : Attempt V V := fun trace =>
  (some (h.finished trace), trace)

end Host

/-- The value of a key that is not computed. -/
def Expr.keyConstant : Expr → Constant
  | .number _ _ value => .ofNumber value
  | .bigint _ _ value => .text (utf8Bytes (integerText value))
  | e => .text (e.keyText?.getD []).encode

/-- The key of a property. -/
def Expr.askKey (e : Expr) (computed : Bool) : Attempt V V :=
  if computed then h.ask (.evaluate e .value) else return h.constant e.keyConstant

/-- A value, or the default if it is undefined. -/
def Expr.supply (use : Use) (fallback : Option Expr) (v : V) : Attempt V V :=
  match fallback with
  | some e => if h.isUndefined v then h.ask (.evaluate e use) else return v
  | none => return v

end

mutual

/-- Whether names are all that a pattern stores to. -/
def Pattern.isBinding : Pattern → Bool
  | .target (.identifier _) => true
  | .target _ => false
  | .array _ elements rest => Element.allBinding elements && Pattern.optionBinding rest
  | .object _ properties rest => PatternProperty.allBinding properties && Pattern.optionBinding rest

/-- Whether a pattern that may be missing stores to names alone. -/
def Pattern.optionBinding : Option Pattern → Bool
  | none => true
  | some p => p.isBinding

/-- Whether elements store to names alone. -/
def Element.allBinding : List Element → Bool
  | [] => true
  | .hole :: rest => Element.allBinding rest
  | .bound _ target _ :: rest => target.isBinding && Element.allBinding rest

/-- Whether properties store to names alone. -/
def PatternProperty.allBinding : List PatternProperty → Bool
  | [] => true
  | ⟨_, _, _, value, _, _⟩ :: rest => value.isBinding && PatternProperty.allBinding rest

end

mutual

/-- Bind a value to a pattern. -/
def Pattern.receive {V : Type} (h : Host V) : Pattern → V → Attempt V PUnit
  | .target (.identifier n), v => do
    let _ ← h.ask (.store (utf8Bytes n.text) v)
  | .target _, _ => return
  | .array _ elements rest, v => do
    let iterator ← h.ask (.iterator v)
    Element.receiveList h elements iterator
    Pattern.receiveRest h rest (h.ask (.rest iterator))
  | .object _ properties rest, v => do
    let keys ← PatternProperty.receiveList h properties v
    Pattern.receiveRest h rest (h.ask (.restObject v keys))

/-- Bind what is left to a pattern, if there is one for it. -/
def Pattern.receiveRest {V : Type} (h : Host V) : Option Pattern → Attempt V V → Attempt V PUnit
  | none, _ => return
  | some p, left => do
    let v ← left
    p.receive h v

/-- Bind the next values of an iterator. -/
def Element.receiveList {V : Type} (h : Host V) : List Element → V → Attempt V PUnit
  | [], _ => return
  | .hole :: rest, iterator => do
    let _ ← h.ask (.next iterator)
    Element.receiveList h rest iterator
  | .bound _ target fallback :: rest, iterator => do
    let v ← h.ask (.next iterator)
    let v ← Expr.supply h target.use fallback v
    target.receive h v
    Element.receiveList h rest iterator

/-- Bind properties of an object; what is answered are their keys. -/
def PatternProperty.receiveList {V : Type} (h : Host V) :
    List PatternProperty → V → Attempt V (List V)
  | [], _ => return []
  | ⟨_, key, computed, value, fallback, _⟩ :: rest, object => do
    let key ← key.askKey h computed
    let v ← h.ask (.getField object key)
    let v ← Expr.supply h value.use fallback v
    value.receive h v
    let keys ← PatternProperty.receiveList h rest object
    return key :: keys

end

namespace Attempt

variable {V α β : Type} {act : Attempt V α} {f : α → Attempt V β} {trace t : List (Event V)}

/-- An act that ends hands on its answer, -/
theorem bind_some {a : α} (hrun : act trace = (some a, t)) : (act >>= f) trace = f a t := by
  simp only [bind, OptionT.bind, OptionT.mk, StateT.bind]
  rw [hrun]

/-- and one that breaks off breaks off what follows. -/
theorem bind_none (hrun : act trace = (none, t)) : (act >>= f) trace = (none, t) := by
  simp only [bind, OptionT.bind, OptionT.mk, StateT.bind]
  rw [hrun]
  rfl

end Attempt

/-! ## What is stored -/

/-- The name that an event stores to. -/
def Event.stored? {V : Type} : Event V → Option (List UInt8)
  | .store name _ => some name
  | _ => none

/-- The names are stored to, one after the other, unless something throws on the way. -/
def Attempt.Stores {V α : Type} (names : List (List UInt8)) (act : Attempt V α) : Prop :=
  ∀ trace, ∃ events, (act trace).2 = trace ++ events ∧
    match (act trace).1 with
    | some _ => events.filterMap Event.stored? = names
    | none => events.filterMap Event.stored? <+: names

namespace Attempt.Stores

variable {V α β : Type} {h : Host V} {names more : List (List UInt8)} {act : Attempt V α}
    {f : α → Attempt V β}

/-- An act that does nothing stores nothing, -/
theorem pure (a : α) : Stores (V := V) [] (Pure.pure a) :=
  fun trace => ⟨[], (List.append_nil trace).symm, rfl⟩

/-- and acts in a row store one after the other. -/
theorem bind (hact : Stores names act) (hf : ∀ a, Stores more (f a)) :
    Stores (names ++ more) (act >>= f) := by
  intro trace
  obtain ⟨events, htrace, hevents⟩ := hact trace
  rcases hrun : act trace with ⟨_ | a, t⟩
  · rw [hrun] at htrace hevents
    rw [bind_none hrun]
    exact ⟨events, htrace, hevents.trans (List.prefix_append _ _)⟩
  · rw [hrun] at htrace hevents
    rw [bind_some hrun]
    obtain ⟨others, hmore, hothers⟩ := hf a t
    refine ⟨events ++ others, ?_, ?_⟩
    · rw [hmore, show t = trace ++ events from htrace, List.append_assoc]
    · rw [List.filterMap_append, show events.filterMap Event.stored? = names from hevents]
      split at hothers
      · exact congrArg (names ++ ·) hothers
      · exact (List.prefix_append_right_inj names).mpr hothers

/-- What stores nothing, before what stores the names. -/
theorem after (hact : Stores [] act) (hf : ∀ a, Stores names (f a)) : Stores names (act >>= f) :=
  hact.bind hf

/-- An event that is no store stores nothing. -/
theorem ask {event : Event V} (hevent : event.stored? = none) : Stores [] (h.ask event) := by
  refine fun trace => ⟨[event], rfl, ?_⟩
  rw [List.filterMap_cons_none hevent]
  split
  · rfl
  · exact List.prefix_rfl

/-- A store stores its name. -/
theorem store {name : List UInt8} {v : V} : Stores [name] (h.ask (.store name v)) := by
  refine fun trace => ⟨[.store name v], rfl, ?_⟩
  split
  · rfl
  · exact List.prefix_rfl

theorem askKey {e : Expr} {computed : Bool} : Stores [] (e.askKey h computed) := by
  cases computed with
  | true => exact .ask rfl
  | false => exact .pure _

theorem supply {use : Use} {fallback : Option Expr} {v : V} :
    Stores [] (Expr.supply h use fallback v) := by
  cases fallback with
  | none => exact .pure v
  | some e =>
    rw [Expr.supply]
    split
    · exact .ask rfl
    · exact .pure v

end Attempt.Stores

/-- The names of a pattern as they are stored. -/
def storedNames (names : List Name) : List (List UInt8) :=
  names.map fun n => utf8Bytes n.text

/-- Two parts of a pattern, one after the other. -/
theorem Attempt.Stores.parts {V α β : Type} {names more : List Name} {act : Attempt V α}
    {f : α → Attempt V β} (hact : act.Stores (storedNames names))
    (hf : ∀ a, (f a).Stores (storedNames more)) :
    (act >>= f).Stores (storedNames (names ++ more)) := by
  rw [storedNames, List.map_append]
  exact hact.bind hf

section

variable {V : Type} (h : Host V)

-- The induction is on the tree: elements and properties store what their targets store, one
-- after the other.

mutual

/-- Binding a value stores to the names of the pattern, each as often as it stands there, in
their order. -/
theorem Pattern.receive_stores (p : Pattern) (hp : p.isBinding = true) (v : V) :
    (p.receive h v).Stores (storedNames p.boundNames) := by
  cases p with
  | target e =>
    cases e with
    | identifier n => exact Attempt.Stores.store.bind fun _ => .pure _
    | _ => cases hp
  | array span elements rest =>
    obtain ⟨helements, hrest⟩ := Bool.and_eq_true_iff.mp hp
    refine .after (.ask rfl) fun iterator => ?_
    exact (Element.receiveList_stores elements helements iterator).parts fun _ =>
      Pattern.receiveRest_stores rest hrest (.ask rfl)
  | object span properties rest =>
    obtain ⟨hproperties, hrest⟩ := Bool.and_eq_true_iff.mp hp
    exact (PatternProperty.receiveList_stores properties hproperties v).parts fun keys =>
      Pattern.receiveRest_stores rest hrest (.ask rfl)

/-- What a pattern stores are the names that it binds, in their order: of the rest of a
list, -/
theorem Pattern.receiveRest_stores (rest : Option Pattern)
    (hrest : Pattern.optionBinding rest = true) {left : Attempt V V} (hleft : left.Stores []) :
    (Pattern.receiveRest h rest left).Stores (storedNames (Pattern.boundNamesOption rest)) := by
  cases rest with
  | none => exact .pure _
  | some p => exact hleft.after fun v => Pattern.receive_stores p hrest v

/-- of the elements one by one, -/
theorem Element.receiveList_stores (elements : List Element)
    (helements : Element.allBinding elements = true) (iterator : V) :
    (Element.receiveList h elements iterator).Stores
    (storedNames (Element.boundNames elements)) := by
  cases elements with
  | nil => exact .pure _
  | cons element rest =>
    cases element with
    | hole => exact .after (.ask rfl) fun _ => Element.receiveList_stores rest helements iterator
    | bound span target fallback =>
      obtain ⟨htarget, hrest⟩ := Bool.and_eq_true_iff.mp helements
      refine .after (.ask rfl) fun _ => .after .supply fun v => ?_
      exact (Pattern.receive_stores target htarget v).parts fun _ =>
        Element.receiveList_stores rest hrest iterator

/-- and of the properties one by one. -/
theorem PatternProperty.receiveList_stores (properties : List PatternProperty)
    (hproperties : PatternProperty.allBinding properties = true) (object : V) :
    (PatternProperty.receiveList h properties object).Stores
    (storedNames (PatternProperty.boundNames properties)) := by
  cases properties with
  | nil => exact .pure _
  | cons property rest =>
    obtain ⟨span, key, computed, value, fallback, shorthand⟩ := property
    obtain ⟨hvalue, hrest⟩ := Bool.and_eq_true_iff.mp hproperties
    refine .after .askKey fun key => .after (.ask rfl) fun _ => .after .supply fun v => ?_
    refine (Pattern.receive_stores value hvalue v).parts fun _ => ?_
    have hkeys := (PatternProperty.receiveList_stores rest hrest object).bind fun keys =>
      .pure (key :: keys)
    rwa [List.append_nil] at hkeys

end

end

end EcmaStack

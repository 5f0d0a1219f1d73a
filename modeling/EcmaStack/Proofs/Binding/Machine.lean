import EcmaStack.Lowering.Tree
import EcmaStack.Proofs.Binding.Meaning
import EcmaStack.Proofs.Evaluation.Machine
import EcmaStack.Proofs.Machine.Moves
import EcmaStack.Proofs.Machine.Runs

/-!
# The machine that binds

The machine as far as patterns need it. Code is cut into single instructions, which it executes,
and the code of whole expressions, for which it asks the host. Besides values the stack holds
the lists of keys that the code makes for itself: these are shared by reference, so that what is
appended to a list on top of the stack is in the list below as well.

A fragment of cut code **performs** an attempt from some stack on if the machine that runs
through it asks what the attempt asks and no more: where the attempt comes to an answer the
machine comes to the end of the fragment, holding what is said, and where something throws the
machine has thrown, after the same events. Fragments are put together by `Performs.bind`.
-/

namespace EcmaStack

/-- What stands on the stack: a value of the host, or one of the lists of keys. -/
inductive Entry (V : Type) where
  | value (v : V)
  | keys (n : Nat)

/-- The stack, its top first, and the lists of keys made so far. -/
structure Holding (V : Type) where
  stack : List (Entry V)
  lists : List (List V)

/-- The machine runs, or something was thrown. -/
inductive Binder (V : Type) where
  | running (pc : Nat) (x : Holding V) (trace : List (Event V))
  | thrown (trace : List (Event V))

/-- The machine after an attempt to get to a place. -/
def Binder.of {V : Type} : Option (Nat × Holding V) × List (Event V) → Binder V
  | (some (pc, x), trace) => .running pc x trace
  | (none, trace) => .thrown trace

/-- What is evaluated in one piece: an expression, for a use of its value. -/
structure Evaluand where
  expr : Expr
  use : Use

/-- The code of what is evaluated. -/
def Evaluand.lower (s : CodeSite) (x : Evaluand) : Lowering :=
  x.expr.lower s x.use

/-- Code that is cut into instructions and the code of expressions. -/
abbrev Parts := Segments Evaluand

/-- Every expression has its own code. -/
abbrev Parts.Faithful (s : CodeSite) (f : Parts) : Prop :=
  Segments.Faithful (Evaluand.lower s) f

/-- An expression stands for the code that it is lowered to. -/
theorem Parts.Faithful.whole {s : CodeSite} {e : Expr} {use : Use} {c : Code}
    (hc : e.lower s use = .ok c) (present : c ≠ []) :
    Parts.Faithful s [.whole ⟨e, use⟩ c present] :=
  Segments.Faithful.whole (x := Evaluand.mk e use) hc present

section

variable {V : Type} (h : Host V)

/-- Execute an instruction: where the machine goes, and what it asks on the way. -/
def Instr.handle (i : Instr Nat) (pc : Nat) (x : Holding V) :
    Option (Attempt V (Nat × Holding V)) :=
  let next (stack : List (Entry V)) : Attempt V (Nat × Holding V) :=
    return (pc + i.size, { x with stack })
  match i.op, i.operands, x.stack with
  | .pop, [], _ :: below => some (next below)
  | .pushValue, [.integer n], stack =>
    (if 1 ≤ n.toInt then stack[n.toInt.toNat - 1]? else none).map fun e => next (e :: stack)
  | .jumpNotUndefined, [.address a], .value v :: _ =>
    some (return (if h.isUndefined v then pc + i.size else a, x))
  | .pushArray, [], stack =>
    some (return (pc + i.size, ⟨.keys x.lists.length :: stack, x.lists ++ [[]]⟩))
  | .append, [], .value v :: .keys n :: below =>
    some (return (pc + i.size, ⟨.keys n :: below, x.lists.modify n (· ++ [v])⟩))
  | .iterator, [], .value v :: below => some do
    let iterator ← h.ask (.iterator v)
    next (.value iterator :: below)
  | .next, [], .value iterator :: below => some do
    let v ← h.ask (.next iterator)
    let done ← h.isDone
    next (.value done :: .value v :: .value iterator :: below)
  | .rest, [], .value iterator :: below => some do
    let left ← h.ask (.rest iterator)
    next (.value left :: .value iterator :: below)
  | .getField, [], .value key :: .value object :: below => some do
    let v ← h.ask (.getField object key)
    next (.value v :: below)
  | .restObject, [], .keys n :: .value object :: below =>
    x.lists[n]?.map fun keys => do
      let left ← h.ask (.restObject object keys)
      next (.value left :: .keys n :: .value object :: below)
  | .store, [.text name], .value v :: below => some do
    let _ ← h.ask (.store name v)
    next (.value v :: below)
  | op, operands, stack =>
    (op.constant? operands).map fun c => next (.value (h.constant c) :: stack)

namespace Binder

/-- One step in cut code; `none` behind it, once something was thrown, or where the machine goes
wrong. -/
def step (f : Parts) : Binder V → Option (Binder V)
  | .running pc x trace =>
    match Run.itemAt pc f with
    | some (.instr i) => ((i.settle id pc).handle h pc x).map fun act => .of (act trace)
    | some (.whole ⟨e, use⟩ c _) =>
      let act : Attempt V (Nat × Holding V) := do
        let v ← h.ask (.evaluate e use)
        return (pc + c.size, { x with stack := .value v :: x.stack })
      some (.of (act trace))
    | none => none
  | .thrown _ => none

/-- The machine gets from one state to another. -/
abbrev Reaches (f : Parts) (m m' : Binder V) : Prop :=
  Run.Reaches (step h f) m m'

end Binder

end

/-! ## Fragments of cut code -/

section

variable {V α β : Type} {h : Host V}

/-- Running through the fragment, wherever it stands, takes the machine from one holding to
another and asks nothing. -/
def Parts.Carries (h : Host V) (f : Parts) (x y : Holding V) : Prop :=
  ∀ trace : List (Event V), Run.Passes (Binder.step h) (fun pc x => .running pc x trace) f x y

/-- Running through the fragment, wherever it stands, performs the attempt. -/
def Parts.Performs (h : Host V) (f : Parts) (x : Holding V) (act : Attempt V α)
    (post : α → Holding V → Prop) : Prop :=
  ∀ (before after : Parts) (trace : List (Event V)),
    match act trace with
    | (some a, t) =>
      ∃ y, post a y ∧ Binder.Reaches h (before ++ f ++ after) (.running before.size x trace)
        (.running (before.size + f.size) y t)
    | (none, t) =>
      Binder.Reaches h (before ++ f ++ after) (.running before.size x trace) (.thrown t)

namespace Parts

open Segments

variable {f g : Parts} {x y z : Holding V} {act : Attempt V α} {next : α → Attempt V β}
    {post post' : α → Holding V → Prop}
  {last : β → Holding V → Prop} {a : α}

/-! ## Fragments after one another -/

namespace Carries

/-- One part carries the machine on to where the next takes over. -/
theorem append (hf : Carries h f x y) (hg : Carries h g y z) : Carries h (f ++ g) x z :=
  fun trace => (hf trace).append (hg trace)

/-- The same, in the bytes of the code. -/
theorem iff_reaches : Carries h f x y ↔ ∀ (before after : Parts) (trace : List (Event V)),
    Binder.Reaches h (before ++ f ++ after) (.running before.size x trace)
      (.running (before.size + f.size) y trace) := by
  simp only [Carries, Run.Passes, extent_eq]
  exact ⟨fun hrun before after trace => hrun trace before after,
    fun hrun trace before after => hrun before after trace⟩

/-- What only carries the machine on performs nothing. -/
theorem performs (hf : Carries h f x y) (hy : post a y) : Performs h f x (pure a) post :=
  fun before after trace => ⟨y, hy, iff_reaches.mp hf before after trace⟩

end Carries

namespace Performs

/-- No part performs nothing, -/
theorem nil (hx : post a x) : Performs h [] x (pure a) post :=
  fun before _ trace => ⟨x, hx, .refl (Binder.running before.size x trace)⟩

/-- less may be asked of the end, -/
theorem mono (hf : Performs h f x act post) (hpost : ∀ a y, post a y → post' a y) :
    Performs h f x act post' := by
  intro before after trace
  have hrun := hf before after trace
  split at hrun
  · obtain ⟨y, hy, hreaches⟩ := hrun
    exact ⟨y, hpost _ y hy, hreaches⟩
  · exact hrun

/-- and parts in a row perform one act after the other. -/
theorem bind (hf : Performs h f x act post) (hg : ∀ a y, post a y → Performs h g y (next a) last) :
    Performs h (f ++ g) x (act >>= next) last := by
  intro before after trace
  have hfirst := hf before (g ++ after) trace
  rw [← List.append_assoc] at hfirst
  rw [← List.append_assoc]
  rcases hrun : act trace with ⟨_ | a, t⟩
  · rw [hrun] at hfirst
    rw [Attempt.bind_none hrun]
    exact hfirst
  · rw [hrun] at hfirst
    obtain ⟨y, hy, hreaches⟩ := hfirst
    have hsecond := hg a y hy (before ++ f) after t
    rw [size_append] at hsecond
    rw [Attempt.bind_some hrun, size_append, ← Nat.add_assoc]
    split at hsecond
    · obtain ⟨z, hz, hreaches'⟩ := hsecond
      exact ⟨z, hz, hreaches.trans hreaches'⟩
    · exact hreaches.trans hsecond

/-- A fragment before which others run that ask nothing. -/
theorem before (hg : Performs h g y act post) (hf : Carries h f x y) :
    Performs h (f ++ g) x act post := by
  have hfirst : Performs h f x (pure PUnit.unit) fun _ z => z = y := hf.performs rfl
  have hboth : Performs h (f ++ g) x (pure PUnit.unit >>= fun _ => act) post :=
    hfirst.bind fun _ z hz => by rwa [hz]
  rwa [pure_bind] at hboth

/-- A fragment after which others run that ask nothing. -/
theorem after (hf : Performs h f x act post)
    (hg : ∀ a y, post a y → ∃ z, post' a z ∧ Carries h g y z) :
    Performs h (f ++ g) x act post' := by
  have hboth : Performs h (f ++ g) x (act >>= pure) post' := hf.bind fun a y hy => by
    obtain ⟨z, hz, hcarries⟩ := hg a y hy
    exact hcarries.performs hz
  rwa [bind_pure] at hboth

/-- An act may be followed by a change to its answer alone. -/
theorem map {m : α → β} (hf : Performs h f x act post) (hm : ∀ a y, post a y → last (m a) y) :
    Performs h f x (act >>= fun a => pure (m a)) last := by
  have hboth : Performs h (f ++ []) x (act >>= fun a => pure (m a)) last :=
    hf.bind fun a y hy => nil (hm a y hy)
  rwa [List.append_nil] at hboth

end Performs

/-! ## Single pieces -/

/-- A piece that takes one step. -/
theorem Performs.step {s : Segment Evaluand} {held : α → Holding V}
    (hs : ∀ (before after : Parts) (trace : List (Event V)),
      Binder.step h (before ++ s :: after) (.running before.size x trace) =
        some
        (.of ((do let a ← act; return (before.size + s.size, held a) : Attempt V (Nat × Holding V))
          trace))) :
    Performs h [s] x act fun a y => y = held a := by
  intro before after trace
  have hstep := hs before after trace
  rw [List.append_assoc, List.singleton_append, size_singleton]
  rcases hrun : act trace with ⟨_ | a, t⟩
  · rw [Attempt.bind_none hrun] at hstep
    exact .of_step hstep
  · rw [Attempt.bind_some hrun] at hstep
    exact ⟨held a, rfl, .of_step hstep⟩

/-- The code of an expression. -/
theorem Performs.whole {e : Expr} {use : Use} {c : Code} {present : c ≠ []} :
    Performs h [.whole ⟨e, use⟩ c present] x (h.ask (.evaluate e use)) fun v y => y =
      { x with stack := .value v :: x.stack } := by
  refine step fun before after trace => ?_
  rw [Binder.step, itemAt_size]
  rfl

/-- An instruction. -/
theorem step_instr (before after : Parts) (i : Instr Reach) (x : Holding V)
    (trace : List (Event V)) :
    Binder.step h (before ++ .instr i :: after) (.running before.size x trace) =
      ((i.settle id before.size).handle h before.size x).map fun act => .of (act trace) := by
  rw [Binder.step, itemAt_size]

/-- An instruction that goes on to the next. -/
theorem Performs.instr {i : Instr Reach} {held : α → Holding V}
    (hi : ∀ start, (i.settle id start).handle h start x = some do
      let a ← act
      return (start + (i.settle id start).size, held a)) :
    Performs h [.instr i] x act fun a y => y = held a := by
  refine step fun before after trace => ?_
  rw [step_instr, hi, Instr.settle, Instr.size_map]
  rfl

/-- An instruction that goes on to the next and asks nothing. -/
theorem Carries.instr {i : Instr Reach}
    (hi : ∀ start, (i.settle id start).handle h start x =
      some (return (start + (i.settle id start).size, y))) :
    Carries h [.instr i] x y := by
  refine fun trace => .one fun before after => ?_
  rw [extent_eq, step_instr, hi, Instr.settle, Instr.size_map]
  rfl

end Parts

end

end EcmaStack

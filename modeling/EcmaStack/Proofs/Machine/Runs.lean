import EcmaStack.Lowering.CodeSite
import EcmaStack.Proofs.Machine.Fragment

/-!
# Machines that run code

The machines that say what code means differ in what they hold and in what they
ask of the outside, but not in how they run: a machine takes one step after
another, and what it does next is decided by what stands at its place in the code.
That much is common ground, and it is laid here once for all of them.

* `Run.advance` takes so many steps, and `Run.Reaches` is that some number of steps leads
  from one state to another.
* `Run.itemAt` is what stands at a place. Code is a list of things that take up room
  (`Sized`), and a place is the room taken by all that comes before it.
* `Run.Passes` is that a fragment takes a machine from one holding to another, wherever
  the fragment stands. Fragments are put together by `Run.Passes.append`.
* `Segment` is code that is cut into single instructions and the code of larger
  things, which a machine does not look into.
-/

namespace EcmaStack

namespace Run

/-! ## Steps -/

section Steps

variable {σ : Type} {step : σ → Option σ} {x y z : σ}

/-- So many steps; `none` where the machine stops before it has taken them. -/
def advance (step : σ → Option σ) : Nat → σ → Option σ
  | 0, x => some x
  | k + 1, x => (step x).bind (advance step k)

theorem advance_one (x : σ) : advance step 1 x = step x :=
  Option.bind_fun_some (step x)

/-- A number of steps and then another. -/
theorem advance_add (j k : Nat) (x : σ) :
    advance step (j + k) x = (advance step j x).bind (advance step k) := by
  induction j generalizing x with
  | zero =>
    rw [Nat.zero_add]
    rfl
  | succ j ih =>
    rw [Nat.succ_add, advance, advance]
    cases step x with
    | none => rfl
    | some y => exact ih y

/-- Behind the end there is nothing. -/
theorem le_of_stops {j k : Nat} (hy : advance step j x = some y) (hstops : step y = none)
    (hz : advance step k x = some z) : k ≤ j := by
  by_contra hlt
  obtain ⟨i, rfl⟩ := Nat.exists_eq_add_of_lt (Nat.lt_of_not_le hlt)
  rw [Nat.add_assoc, advance_add, hy, Option.bind_some, advance, hstops] at hz
  cases hz

/-- The machine gets from one state to another. -/
def Reaches (step : σ → Option σ) (x y : σ) : Prop :=
  ∃ k, advance step k x = some y

namespace Reaches

/-- Every state reaches itself, -/
theorem refl (x : σ) : Reaches step x x :=
  ⟨0, rfl⟩

/-- the one that a step leads to, -/
theorem of_step (h : step x = some y) : Reaches step x y :=
  ⟨1, (advance_one x).trans h⟩

/-- and whatever those reach. -/
theorem trans (hxy : Reaches step x y) (hyz : Reaches step y z) : Reaches step x z := by
  obtain ⟨j, hj⟩ := hxy
  obtain ⟨k, hk⟩ := hyz
  exact ⟨j + k, by rw [advance_add, hj]; exact hk⟩

end Reaches

end Steps

/-! ## Places -/

/-- Things that take up room in code. -/
class Sized (α : Type) where
  size : α → Nat
  size_pos : ∀ a, 0 < size a

instance : Sized (Instr Reach) :=
  ⟨Instr.size, Instr.size_pos⟩

section Places

variable {α : Type} [Sized α] {a : α} {f g : List α}

/-- How much room a fragment takes. -/
def extent (f : List α) : Nat :=
  f.foldr (fun a n => Sized.size a + n) 0

@[simp] theorem extent_nil : extent ([] : List α) = 0 :=
  rfl

@[simp] theorem extent_cons : extent (a :: f) = Sized.size a + extent f :=
  rfl

@[simp] theorem extent_append (f g : List α) : extent (f ++ g) = extent f + extent g := by
  induction f with
  | nil => rw [List.nil_append, extent_nil, Nat.zero_add]
  | cons a f ih => rw [List.cons_append, extent_cons, extent_cons, ih, Nat.add_assoc]

/-- What stands at a place, if it is where something begins. -/
def itemAt : Nat → List α → Option α
  | _, [] => none
  | 0, a :: _ => some a
  | n + 1, a :: rest => if Sized.size a ≤ n + 1 then itemAt (n + 1 - Sized.size a) rest else none

/-- Places are counted from behind what comes first. -/
theorem itemAt_cons (n : Nat) : itemAt (Sized.size a + n) (a :: f) = itemAt n f := by
  have hpos := Sized.size_pos a
  obtain ⟨k, hk⟩ : ∃ k, Sized.size a + n = k + 1 := ⟨Sized.size a + n - 1, by omega⟩
  rw [hk, itemAt, if_pos (by omega), ← hk, Nat.add_sub_cancel_left]

/-- The item behind a number of others starts where they end. -/
theorem itemAt_extent (before : List α) (a : α) (after : List α) :
    itemAt (extent before) (before ++ a :: after) = some a := by
  induction before with
  | nil => rfl
  | cons b before ih => rwa [extent_cons, List.cons_append, itemAt_cons]

/-- Behind all that there is, nothing stands. -/
theorem itemAt_behind (f : List α) : itemAt (extent f) f = none := by
  induction f with
  | nil => rfl
  | cons a f ih => rwa [extent_cons, itemAt_cons]

end Places

/-! ## Fragments that are passed -/

/-- Running through the fragment, wherever it stands, takes the machine from one
holding to another. What it is to be at a place and hold something is left to the
machine. -/
def Passes {α σ μ : Type} [Sized α] (step : List α → σ → Option σ) (state : Nat → μ → σ)
    (f : List α) (x y : μ) : Prop :=
  ∀ before after : List α, Reaches (step (before ++ f ++ after)) (state (extent before) x)
    (state (extent before + extent f) y)

namespace Passes

variable {α σ μ : Type} [Sized α] {step : List α → σ → Option σ} {state : Nat → μ → σ}
    {f g : List α} {x y z : μ}

theorem nil : Passes step state [] x x :=
  fun before _ => .refl (state (extent before) x)

theorem append (hf : Passes step state f x y) (hg : Passes step state g y z) :
    Passes step state (f ++ g) x z := by
  intro before after
  have hfirst := hf before (g ++ after)
  have hsecond := hg (before ++ f) after
  rw [extent_append] at hsecond
  rw [← List.append_assoc] at hfirst
  rw [extent_append, ← Nat.add_assoc, ← List.append_assoc]
  exact hfirst.trans hsecond

/-- A single thing that takes one step. -/
theorem one {a : α} (h : ∀ before after, step (before ++ a :: after) (state (extent before) x) =
    some (state (extent before + Sized.size a) y)) : Passes step state [a] x y := by
  intro before after
  rw [List.append_assoc, List.singleton_append]
  exact .of_step (h before after)

end Passes

end Run

/-! ## Cut code -/

/-- A piece of cut code: one instruction, or the code of something larger, which is
not empty. -/
inductive Segment (ι : Type) where
  | instr (i : Instr Reach)
  | whole (x : ι) (c : Code) (present : c ≠ [])

namespace Segment

variable {ι : Type}

/-- The code of a piece. -/
def code : Segment ι → Code
  | instr i => [i]
  | whole _ c _ => c

/-- How many bytes a piece takes. -/
def size (s : Segment ι) : Nat :=
  s.code.size

/-- No segment is empty, so each is found at one place only. -/
theorem size_pos (s : Segment ι) : 0 < s.size := by
  cases s with
  | instr i => exact Nat.lt_of_lt_of_le i.size_pos (Nat.le_add_right _ _)
  | whole x c present =>
    cases c with
    | nil => exact absurd rfl present
    | cons i rest => exact Nat.lt_of_lt_of_le i.size_pos (Nat.le_add_right _ _)

instance : Run.Sized (Segment ι) :=
  ⟨size, size_pos⟩

end Segment

/-- Code that is cut into pieces. -/
abbrev Segments (ι : Type) := List (Segment ι)

namespace Segments

open Run

variable {ι : Type} {lower : ι → Lowering} {f g : Segments ι} {x : Segment ι}

/-- The code as it was before it was cut. -/
def code (f : Segments ι) : Code :=
  f.flatMap Segment.code

/-- How many bytes the code takes. -/
def size (f : Segments ι) : Nat :=
  f.code.size

@[simp] theorem code_nil : code ([] : Segments ι) = [] :=
  rfl

@[simp] theorem code_cons (x : Segment ι) (f : Segments ι) : code (x :: f) = x.code ++ f.code :=
  rfl

@[simp] theorem code_append (f g : Segments ι) : code (f ++ g) = f.code ++ g.code :=
  List.flatMap_append

@[simp] theorem size_nil : size ([] : Segments ι) = 0 :=
  rfl

@[simp] theorem size_cons (x : Segment ι) (f : Segments ι) : size (x :: f) = x.size + f.size :=
  Code.size_append x.code f.code

@[simp] theorem size_append (f g : Segments ι) : size (f ++ g) = f.size + g.size := by
  rw [size, code_append, Code.size_append]
  rfl

theorem size_singleton : size [x] = x.size := by
  rw [size_cons, size_nil, Nat.add_zero]

/-- The bytes of cut code are the room that its pieces take. -/
theorem extent_eq (f : Segments ι) : extent f = f.size := by
  induction f with
  | nil => rfl
  | cons x f ih =>
    rw [extent_cons, size_cons, ih]
    rfl

/-- The segment behind others starts where they end, -/
theorem itemAt_size (before : Segments ι) (x : Segment ι) (after : Segments ι) :
    itemAt before.size (before ++ x :: after) = some x := by
  rw [← extent_eq]
  exact itemAt_extent before x after

/-- and there is none behind the last. -/
theorem itemAt_behind (f : Segments ι) : itemAt f.size f = none := by
  rw [← extent_eq]
  exact Run.itemAt_behind f

/-- Code that is cut into its instructions. -/
def ofCode (c : Code) : Segments ι :=
  c.map .instr

@[simp] theorem code_ofCode (c : Code) : code (ofCode c : Segments ι) = c := by
  induction c with
  | nil => rfl
  | cons i rest ih => exact congrArg (i :: ·) ih

/-- Plain code may be taken apart anywhere. -/
theorem ofCode_append (c d : Code) : (ofCode (c ++ d) : Segments ι) = ofCode c ++ ofCode d :=
  List.map_append

theorem size_ofCode (c : Code) : size (ofCode c : Segments ι) = c.size := by
  rw [size, code_ofCode]

@[simp] theorem size_op (o : Opcode) : size (ofCode (Code.op o) : Segments ι) = 2 :=
  rfl

@[simp] theorem size_branch (o : Opcode) (r : Reach) :
    size (ofCode (Code.branch o r) : Segments ι) = Code.jumpSize :=
  rfl

/-! ### Whose code it is -/

/-- Whatever is not looked into has its own code. -/
def Faithful (lower : ι → Lowering) (f : Segments ι) : Prop :=
  ∀ x c present, Segment.whole x c present ∈ f → lower x = .ok c

namespace Faithful

theorem nil : Faithful lower [] :=
  fun _ _ _ h => nomatch h

theorem append (hf : f.Faithful lower) (hg : g.Faithful lower) : (f ++ g).Faithful lower :=
  fun x c present h => (List.mem_append.mp h).elim (hf x c present) (hg x c present)

/-- plain code always is, -/
theorem ofCode (c : Code) : Faithful lower (ofCode c) := by
  intro x d present h
  obtain ⟨i, -, hi⟩ := List.mem_map.mp h
  cases hi

/-- and the code of a whole is if it is what the whole is lowered to. -/
theorem whole {x : ι} {c : Code} (hx : lower x = .ok c) (present : c ≠ []) :
    Faithful lower [.whole x c present] := by
  intro y d hd h
  cases List.mem_singleton.mp h
  exact hx

end Faithful

end Segments

end EcmaStack

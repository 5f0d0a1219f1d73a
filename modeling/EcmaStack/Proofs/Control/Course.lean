import EcmaStack.Proofs.Control.Meaning

/-!
# Fragments that take a course

A fragment of code **performs** a course when the machine, from wherever the fragment starts,
evaluates what the course evaluates and then is where its completion says: behind the fragment
with everything as it was, at the frame that a `break` or `continue` leads to, or returned
(`Config.Takes`). Of a course that is exhausted the machine has taken at least as many steps as
there were turns.

The laws below are about single steps, about what may surround a part, and about frames.
-/

namespace EcmaStack

/-- Labels are compared as bytes, and different labels have different bytes. -/
theorem utf8Bytes_injective {a b : String} (h : utf8Bytes a = utf8Bytes b) : a = b := by
  have hencode (s : String) : utf8Bytes s = s.toList.flatMap String.utf8EncodeChar := by
    rw [utf8Bytes, Text.encode, Text.ofString, List.flatMap_map]
    rfl
  rw [hencode, hencode] at h
  have hbytes : a.toList.utf8Encode = b.toList.utf8Encode := congrArg List.toByteArray h
  rw [String.utf8Encode_toList, String.utf8Encode_toList] at hbytes
  exact String.toByteArray_inj.mp hbytes

/-! ## Places -/

namespace Skeleton

open Segments

/-- Whether a fragment stands at an offset of the code. -/
def Holds (sk f : Skeleton) (start : Nat) : Prop :=
  ∃ before after, sk = before ++ f ++ after ∧ start = size before

namespace Holds

variable {sk f g : Skeleton} {i : Segment Site} {start : Nat}

/-- A skeleton lies in itself from the start, -/
theorem whole (sk : Skeleton) : sk.Holds sk 0 :=
  ⟨[], [], (List.append_nil sk).symm, rfl⟩

/-- and with a skeleton its parts lie there, one behind the other. -/
theorem left (h : sk.Holds (f ++ g) start) : sk.Holds f start := by
  obtain ⟨before, after, rfl, rfl⟩ := h
  exact ⟨before, g ++ after, by simp only [List.append_assoc], rfl⟩

theorem right (h : sk.Holds (f ++ g) start) : sk.Holds g (start + f.size) := by
  obtain ⟨before, after, rfl, rfl⟩ := h
  exact ⟨before ++ f, after, by simp only [List.append_assoc], (size_append before f).symm⟩

theorem tail (h : sk.Holds (i :: f) start) : sk.Holds f (start + i.size) := by
  obtain ⟨before, after, rfl, rfl⟩ := h
  refine ⟨before ++
    [i], after, by simp only [List.append_assoc, List.cons_append, List.nil_append], ?_⟩
  rw [size_append, size_cons, size_nil, Nat.add_zero]

/-- The same fragment at an offset that is given in another form. -/
theorem at_eq {n : Nat} (h : sk.Holds f start) (hstart : start = n) : sk.Holds f n :=
  hstart ▸ h

/-- What lies at a place is what the machine finds there. -/
theorem item (h : sk.Holds (i :: f) start) : Run.itemAt start sk = some i := by
  obtain ⟨before, after, rfl, rfl⟩ := h
  rw [List.append_assoc]
  exact itemAt_size before i (f ++ after)

end Holds

end Skeleton

/-! ## Steps -/

section

variable {V : Type} {o : Oracle V} {sk f g : Skeleton}

/-- The machine gets from one configuration to another in so many steps. -/
def Config.Goes (o : Oracle V) (sk : Skeleton) (m : Config V) (k : Nat) (x : State V) : Prop :=
  Run.advance (State.step o sk) k (.running m) = some x

namespace Config.Goes

variable {m m' : Config V} {x : State V} {j k : Nat}

/-- A run of no steps, -/
theorem refl (m : Config V) : m.Goes o sk 0 (.running m) :=
  rfl

/-- and one run after another. -/
theorem trans (h : m.Goes o sk j (.running m')) (h' : m'.Goes o sk k x) :
    m.Goes o sk (j + k) x := by
  rw [Goes, Run.advance_add, h]
  exact h'

/-- The same way with the offset where it ends given in another form. -/
theorem stop_eq {n : Nat} (h : m.Goes o sk k (.running m')) (hpc : m'.pc = n) :
    m.Goes o sk k (.running { m' with pc := n }) :=
  hpc ▸ h

/-- One instruction of the control flow. -/
theorem control {i : Instr Reach} (hholds : sk.Holds (.instr i :: f) m.pc)
    (h : (i.settle id m.pc).execute o m = some x) : m.Goes o sk 1 x := by
  have hstep : (State.running m).step o sk = some x := by
    rw [State.step, hholds.item]
    exact h
  exact (Run.advance_one _).trans hstep

/-- One evaluation. -/
theorem site {s : Site} {c : Code} {present : c ≠ []}
    (hholds : sk.Holds (.whole s c present :: f) m.pc) :
    m.Goes o sk 1 (.running (m.evaluate o s c.size)) := by
  have hstep : (State.running m).step o sk = some (.running (m.evaluate o s c.size)) := by
    rw [State.step, hholds.item]
  exact (Run.advance_one _).trans hstep

end Config.Goes

/-! ## Courses -/

/-- From a configuration the machine takes a course, and ends at an offset if the course
completes normally. -/
def Config.Takes (o : Oracle V) (sk : Skeleton) (m : Config V) (stop fuel : Nat) : Course V → Prop
  | (trace, .normal) => ∃ k, m.Goes o sk k (.running { m with pc := stop, trace })
  | (trace, .leave kind label) =>
    ∀ f outer, StackShape.caught kind (utf8Bytes label) m.frames = some (f, outer) →
      f.depth ≤ m.stack.length → f.scopes ≤ m.scopes →
      ∃ k, m.Goes o sk k (.running ⟨f.address, m.stack.drop (m.stack.length - f.depth), f.scopes,
        f :: outer, trace⟩)
  | (trace, .giveBack v) => ∃ k, m.Goes o sk k (.returned v trace)
  | (trace, .exhausted) => ∃ k x, fuel ≤ k ∧ m.Goes o sk k x ∧ x.trace = trace

/-- Wherever the fragment stands, the machine takes the course in it. -/
def Skeleton.Performs (o : Oracle V) (f : Skeleton) (course : Nat → List Site → Course V) : Prop :=
  ∀ (sk : Skeleton) (m : Config V), sk.Holds f m.pc →
    ∀ fuel, m.Takes o sk (m.pc + f.size) fuel (course fuel m.trace)

namespace Config.Takes

variable {m m' : Config V} {stop middle fuel fuel' k : Nat} {c : Course V}

/-- A part that runs with more on the stack or in more scopes, after some steps, and before some
that undo this. -/
theorem around {extra : List (Slot V)} (hbefore : m.Goes o sk k (.running m'))
    (hstack : m'.stack = extra ++ m.stack) (hscopes : m.scopes ≤ m'.scopes)
    (hframes : m'.frames = m.frames) (hfuel : fuel ≤ k + fuel') (h : m'.Takes o sk middle fuel' c)
    (hafter : ∀ trace, ∃ j, Config.Goes o sk { m' with pc := middle, trace } j
      (.running { m with pc := stop, trace })) :
    m.Takes o sk stop fuel c := by
  obtain ⟨trace, completion⟩ := c
  cases completion with
  | normal =>
    obtain ⟨i, hi⟩ := h
    obtain ⟨j, hj⟩ := hafter trace
    exact ⟨_, (hbefore.trans hi).trans hj⟩
  | leave kind label =>
    intro f outer hcaught hdepth hscope
    have hlength : m'.stack.length = extra.length + m.stack.length :=
      by rw [hstack, List.length_append]
    rw [← hframes] at hcaught
    obtain ⟨i, hi⟩ := h f outer hcaught (by omega) (by omega)
    have hdrop : m'.stack.drop (m'.stack.length - f.depth) =
        m.stack.drop (m.stack.length - f.depth) := by
      have hsplit : m'.stack.length - f.depth = extra.length + (m.stack.length - f.depth) :=
        by omega
      rw [hsplit, hstack, List.drop_length_add_append]
    rw [hdrop] at hi
    exact ⟨_, hbefore.trans hi⟩
  | giveBack v =>
    obtain ⟨i, hi⟩ := h
    exact ⟨_, hbefore.trans hi⟩
  | exhausted =>
    obtain ⟨i, x, hle, hi, hx⟩ := h
    exact ⟨_, x, by omega, hbefore.trans hi, hx⟩

/-- A course after some steps that leave the machine as it was. -/
theorem after (hbefore : m.Goes o sk k (.running m')) (hstack : m'.stack = m.stack)
    (hscopes : m'.scopes = m.scopes) (hframes : m'.frames = m.frames) (hfuel : fuel ≤ k + fuel')
    (h : m'.Takes o sk stop fuel' c) :
    m.Takes o sk stop fuel c := by
  have hextra : m'.stack = [] ++ m.stack := hstack
  refine h.around hbefore hextra (Nat.le_of_eq hscopes.symm) hframes hfuel fun trace => ⟨0, ?_⟩
  obtain ⟨pc, stack, scopes, frames, trace'⟩ := m'
  cases hstack
  cases hscopes
  cases hframes
  exact .refl _

/-- A course and what comes after it. -/
theorem andThen {next : List Site → Course V} (h : m.Takes o sk middle fuel c)
    (hnext : ∀ trace, Config.Takes o sk { m with pc := middle, trace } stop fuel (next trace)) :
    m.Takes o sk stop fuel (c.andThen next) := by
  obtain ⟨trace, completion⟩ := c
  cases completion with
  | normal =>
    obtain ⟨i, hi⟩ := h
    exact (hnext trace).after hi rfl rfl rfl (Nat.le_add_left fuel i)
  | leave kind label => exact h
  | giveBack v => exact h
  | exhausted => exact h

/-- A part inside a frame that was just opened and is closed behind it. Leaving through that
frame is a normal end. -/
theorem framed {kind : FrameKind} {label : String} (hbefore : m.Goes o sk k (.running m'))
    (hopen : m' = { m.openFrame kind (utf8Bytes label) middle with pc := m'.pc })
    (hfuel : fuel ≤ k + fuel') (h : m'.Takes o sk middle fuel' c)
    (hafter : ∀ trace, ∃ j, Config.Goes o sk { m' with pc := middle, trace } j
      (.running { m with pc := stop, trace })) :
    m.Takes o sk stop fuel (c.catching kind [label]) := by
  have hstack : m'.stack = m.stack := by rw [hopen]; rfl
  have hscopes : m'.scopes = m.scopes := by rw [hopen]; rfl
  have hframes : m'.frames =
      ⟨kind, utf8Bytes label, middle, m.stack.length, m.scopes⟩ :: m.frames := by rw [hopen]; rfl
  obtain ⟨trace, completion⟩ := c
  cases completion with
  | normal =>
    obtain ⟨i, hi⟩ := h
    obtain ⟨j, hj⟩ := hafter trace
    exact ⟨_, (hbefore.trans hi).trans hj⟩
  -- A course that leaves by the frame's own kind and label is caught here and goes on behind it;
  -- any other goes past to the frames around.
  | leave k' label' =>
    rw [Course.catching]
    split
    · next hcaught =>
      obtain ⟨rfl, hlabel⟩ := hcaught
      cases List.mem_singleton.mp hlabel
      have hfirst : StackShape.caught k' (utf8Bytes label) m'.frames =
          some (⟨k', utf8Bytes label, middle, m.stack.length, m.scopes⟩, m.frames) := by
        rw [hframes, StackShape.caught, if_pos ⟨rfl, rfl⟩]
      have hdepth : m.stack.length ≤ m'.stack.length :=
        Nat.le_of_eq (congrArg List.length hstack.symm)
      obtain ⟨i, hi⟩ := h _ _ hfirst hdepth (Nat.le_of_eq hscopes.symm)
      obtain ⟨j, hj⟩ := hafter trace
      -- Unwinding cuts the stack to the frame's height, which is what it is already.
      have hsame : (⟨middle, m'.stack.drop (m'.stack.length - m.stack.length), m.scopes,
          ⟨k', utf8Bytes label, middle, m.stack.length, m.scopes⟩ :: m.frames, trace⟩ : Config V) =
          { m' with pc := middle, trace } := by
        rw [← hframes, ← hscopes, hstack, Nat.sub_self, List.drop_zero]
      dsimp only at hi
      rw [hsame] at hi
      exact ⟨_, (hbefore.trans hi).trans hj⟩
    · next hother =>
      intro f outer hcaught hdepth hscope
      have hpast : StackShape.caught k' (utf8Bytes label') m'.frames = some (f, outer) := by
        rw [hframes, StackShape.caught, if_neg]
        · exact hcaught
        · rintro ⟨rfl, hlabel⟩
          exact hother ⟨rfl, List.mem_singleton.mpr (utf8Bytes_injective hlabel.symm)⟩
      obtain ⟨i, hi⟩ :=
        h f outer hpast (by rw [hstack]; exact hdepth) (by rw [hscopes]; exact hscope)
      rw [hstack] at hi
      exact ⟨_, hbefore.trans hi⟩
  | giveBack v =>
    obtain ⟨i, hi⟩ := h
    exact ⟨_, hbefore.trans hi⟩
  -- A course without an end only gets longer.
  | exhausted =>
    obtain ⟨i, x, hle, hi, hx⟩ := h
    exact ⟨_, x, by omega, hbefore.trans hi, hx⟩

end Config.Takes

end

end EcmaStack

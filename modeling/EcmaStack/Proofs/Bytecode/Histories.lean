import EcmaStack.Bytecode.Buffer
import Mathlib.Data.List.Induction
import Mathlib.Data.List.Pairwise

/-!
# Histories of code buffers

The calls on a code buffer may come in any order: code and operands are appended, addresses are
reserved, and reserved slots are patched. A history is the calls that were made on a new buffer,
each with the buffer it was made on and with its answer (`BufferHistory`); a patch may be
refused in it, and ends nothing.

What a buffer records of its slots is what the calls say of them: which were reserved, and which
of these were patched (`BufferHistory.Tracked`). From this follows what every history keeps
(`buffer_keeps`): which patches are refused, which slots are open, and where each byte of the
code comes from.
-/

namespace EcmaStack

namespace CodeBuffer

/-- Overwrite a slot in place, given what is recorded of it: its bytes are written, then it is
marked. -/
def overwriteSlot (slot : Int) : Option (Nat × Bool) → ExceptT PatchFault (StateM CodeBuffer) Unit
  | none => throw (.unreserved slot)
  | some (_, true) => throw (.twice slot)
  | some (n, false) => do
    modify fun b => { b with code := overwrite b.code n (wordBytes 8 b.length) }
    modify fun b => { b with slots := b.slots.map fun s => if s.1 == n then (n, true) else s }

/-- Write the length of the code into a reserved slot, in place. -/
def patchInPlace (slot : Int) : ExceptT PatchFault (StateM CodeBuffer) Unit := do
  let b ← get
  overwriteSlot slot (b.slots.find? fun s => (s.1 : Int) == slot)

/-- Overwriting changes the bytes in its range and no others, -/
theorem getElem?_overwrite {code bytes : List UInt8} {n : Nat} (h : n + bytes.length ≤ code.length)
    (k : Nat) :
    (overwrite code n bytes)[k]? = if n ≤ k ∧ k < n + bytes.length then bytes[k - n]?
    else code[k]? := by
  have htake : (code.take n).length = n := by rw [List.length_take]; omega
  rw [overwrite, List.append_assoc]
  by_cases hlow : k < n
  · rw [List.getElem?_append_left (by omega), List.getElem?_take_of_lt hlow, if_neg (by omega)]
  · rw [List.getElem?_append_right (by omega), htake]
    by_cases hhigh : k < n + bytes.length
    · rw [List.getElem?_append_left (by omega), if_pos (by omega)]
    · rw [List.getElem?_append_right (by omega), List.getElem?_drop, if_neg (by omega)]
      congr 1
      omega

/-- and keeps the length. -/
theorem length_overwrite {code bytes : List UInt8} {n : Nat} (h : n + bytes.length ≤ code.length) :
    (overwrite code n bytes).length = code.length := by
  rw [overwrite, List.length_append, List.length_append, List.length_take, List.length_drop]
  omega

/-- A patch in place does what a patch does, and one that is refused leaves the buffer as it is. -/
theorem patchInPlace_run (b : CodeBuffer) (slot : Int) : (patchInPlace slot).run.run b =
    match b.patch slot with
    | .ok after => (.ok (), after)
    | .error fault => (.error fault, b) := by
  have hget : (patchInPlace slot).run.run b =
      (overwriteSlot slot (b.slots.find? fun s => (s.1 : Int) == slot)).run.run b := rfl
  rw [hget, patch]
  cases b.slots.find? fun s => (s.1 : Int) == slot with
  | none => rfl
  | some s =>
    obtain ⟨n, patched⟩ := s
    cases patched <;> rfl

end CodeBuffer

/-! ## Calls -/

/-- A call on a code buffer. -/
inductive BufferCall where
  | code (number : Nat)
  | operand (o : Operand UInt64)
  | boolean (value : Bool)
  | reserve
  | patch (slot : Int)

namespace BufferCall

/-- The bytes that a call appends. -/
def bytes : BufferCall → List UInt8
  | .code number => wordBytes 2 number
  | .operand o => o.encode
  | .boolean value => [if value then 1 else 0]
  | .reserve => wordBytes 8 0
  | .patch _ => []

/-- Make a call. Only a reservation has an answer, which is its slot. -/
def perform : BufferCall → ExceptT PatchFault (StateM CodeBuffer) (Option Nat)
  | .code number => do modify (·.addCode number); return none
  | .operand o => do modify (·.addOperand o); return none
  | .boolean value => do modify (·.addBoolean value); return none
  | .reserve => modifyGet fun b => (some b.reserve.1, b.reserve.2)
  | .patch slot => do CodeBuffer.patchInPlace slot; return none

end BufferCall

/-- A call that was made, with the buffer it was made on and its answer. -/
structure BufferEvent where
  before : CodeBuffer
  call : BufferCall
  answer : Except PatchFault (Option Nat)

namespace BufferEvent

/-- The slot that was reserved. -/
def reserved? (e : BufferEvent) : Option Nat :=
  match e.answer with
  | .ok slot => slot
  | .error _ => none

/-- The slot that was patched. -/
def patched? (e : BufferEvent) : Option Nat :=
  match e.answer, e.call with
  | .ok _, .patch (.ofNat slot) => some slot
  | _, _ => none

/-- A slot was patched, and the byte at an offset is in it. -/
def Overwrites (e : BufferEvent) (slot k : Nat) : Prop :=
  e.patched? = some slot ∧ slot ≤ k ∧ k < slot + 8

end BufferEvent

/-- The calls that were made on a buffer, and what has become of it. -/
structure BufferHistory where
  past : List BufferEvent := []
  buffer : CodeBuffer

namespace BufferHistory

/-- One call more, whether or not it is refused. -/
def make (h : BufferHistory) (call : BufferCall) : BufferHistory :=
  let (answer, after) := call.perform.run.run h.buffer
  ⟨h.past ++ [⟨h.buffer, call, answer⟩], after⟩

/-- The history of calls on a new buffer. -/
def of (name : String) (calls : List BufferCall) : BufferHistory :=
  calls.foldl make { buffer := { name } }

/-- The slots that were reserved, in order. -/
def reserved (h : BufferHistory) : List Nat :=
  h.past.filterMap (·.reserved?)

/-- The slots that were patched, in order. -/
def patched (h : BufferHistory) : List Nat :=
  h.past.filterMap (·.patched?)

/-- All bytes that were appended. -/
def appended (h : BufferHistory) : List UInt8 :=
  h.past.flatMap (·.call.bytes)

variable {h : BufferHistory} {n : Nat} {slot : Int} {call : BufferCall}

/-! ## Slots -/

/-- What a buffer records of its slots is what the calls say of them, and the slots lie apart in
its code. -/
structure Tracked (h : BufferHistory) : Prop where
  slots : h.buffer.slots = h.reserved.map fun n => (n, decide (n ∈ h.patched))
  known : ∀ n ∈ h.patched, n ∈ h.reserved
  apart : h.reserved.Pairwise fun n m => n + 8 ≤ m
  inside : ∀ n ∈ h.reserved, n + 8 ≤ h.buffer.length

namespace Tracked

/-- A patch finds an open slot, or it is refused: the slot was not reserved, or it was patched
before. -/
theorem patch_cases (ht : h.Tracked) (slot : Int) :
    (slot ∉ h.reserved.map Int.ofNat ∧ h.buffer.patch slot = .error (.unreserved slot)) ∨
    ∃ n ∈ h.reserved, slot = Int.ofNat n ∧
      ((n ∈ h.patched ∧ h.buffer.patch slot = .error (.twice slot)) ∨
        (n ∉ h.patched ∧ h.buffer.patch slot = .ok { h.buffer with
          code := CodeBuffer.overwrite h.buffer.code n (wordBytes 8 h.buffer.length)
          slots := h.buffer.slots.map fun s => if s.1 == n then (n, true) else s })) := by
  have hfind : (h.buffer.slots.find? fun s => (s.1 : Int) == slot) =
      (h.reserved.find? fun n : Nat => (n : Int) == slot).map fun n =>
        (n, decide (n ∈ h.patched)) := by
    rw [ht.slots, List.find?_map]
    rfl
  rw [CodeBuffer.patch, hfind]
  cases hfound : h.reserved.find? fun n : Nat => (n : Int) == slot with
  | none =>
    refine .inl ⟨fun hmem => ?_, rfl⟩
    obtain ⟨n, hn, rfl⟩ := List.mem_map.mp hmem
    exact List.find?_eq_none.mp hfound n hn (beq_self_eq_true _)
  | some n =>
    refine .inr ⟨n, List.mem_of_find?_eq_some hfound, ?_, ?_⟩
    · exact (beq_iff_eq.mp (List.find?_some (p := fun n : Nat => (n : Int) == slot) hfound)).symm
    by_cases hpatched : n ∈ h.patched
    · exact .inl ⟨hpatched, by rw [Option.map_some, decide_eq_true hpatched]⟩
    · exact .inr ⟨hpatched, by rw [Option.map_some, decide_eq_false hpatched]⟩

/-- A patch is refused if the slot was not reserved, or was patched before. -/
theorem refused_iff (ht : h.Tracked) (slot : Int) : (∃ fault, h.buffer.patch slot = .error fault) ↔
    slot ∉ h.reserved.map Int.ofNat ∨ slot ∈ h.patched.map Int.ofNat := by
  rcases ht.patch_cases slot with ⟨hunreserved, hpatch⟩ | ⟨n, hn, rfl,
    ⟨hpatched, hpatch⟩ | ⟨hopen, hpatch⟩⟩ <;> rw [hpatch]
  · exact ⟨fun _ => .inl hunreserved, fun _ => ⟨_, rfl⟩⟩
  · exact ⟨fun _ => .inr (List.mem_map_of_mem hpatched), fun _ => ⟨_, rfl⟩⟩
  · refine ⟨nofun, ?_⟩
    rintro (hunreserved | hpatched)
    · exact absurd (List.mem_map_of_mem hn) hunreserved
    · obtain ⟨m, hm, hmn⟩ := List.mem_map.mp hpatched
      cases hmn
      exact absurd hm hopen

/-- What is not patched is what was reserved and not patched yet. -/
theorem unpatched (ht : h.Tracked) :
    h.buffer.unpatched = h.reserved.filter fun n => n ∉ h.patched := by
  rw [CodeBuffer.unpatched, ht.slots, List.filter_map, List.map_map]
  simp [Function.comp_def]

end Tracked

/-! ## One call more -/

/-- What a call does to a history: it appends its bytes and records the slot that it reserves,
or it overwrites a slot that was reserved and not patched before, or it is refused and changes
nothing. -/
inductive Step (h : BufferHistory) : BufferCall → BufferHistory → Prop where
  | appends {call : BufferCall} {answer : Option Nat} {after : CodeBuffer} :
    (∀ slot, call ≠ .patch slot) →
      after.code = h.buffer.code ++ call.bytes →
      after.slots = h.buffer.slots ++ answer.toList.map (·, false) →
      (∀ n ∈ answer, n = h.buffer.length ∧ call.bytes.length = 8) →
      Step h call ⟨h.past ++ [⟨h.buffer, call, .ok answer⟩], after⟩
  | overwrites {n : Nat} : n ∈ h.reserved → n ∉ h.patched →
      Step h (.patch (.ofNat n)) ⟨h.past ++ [⟨h.buffer, .patch (.ofNat n), .ok none⟩],
        { h.buffer with
        code := CodeBuffer.overwrite h.buffer.code n (wordBytes 8 h.buffer.length)
        slots := h.buffer.slots.map fun s => if s.1 == n then (n, true) else s }⟩
  | refuses {slot : Int} {fault : PatchFault} : h.buffer.patch slot = .error fault →
      Step h (.patch slot) ⟨h.past ++ [⟨h.buffer, .patch slot, .error fault⟩], h.buffer⟩

/-- A patch either succeeds or leaves the buffer as it was. -/
theorem make_patch (slot : Int) : h.make (.patch slot) =
    match h.buffer.patch slot with
    | .ok after => ⟨h.past ++ [⟨h.buffer, .patch slot, .ok none⟩], after⟩
    | .error fault => ⟨h.past ++ [⟨h.buffer, .patch slot, .error fault⟩], h.buffer⟩ := by
  have hrun : (BufferCall.patch slot).perform.run.run h.buffer =
      ((CodeBuffer.patchInPlace slot).run.run h.buffer).map (·.map fun _ => none) id := by
    show StateT.run (ExceptT.run (CodeBuffer.patchInPlace slot >>= fun _ => pure none)) h.buffer = _
    rw [ExceptT.run_bind, StateT.run_bind]
    rcases (CodeBuffer.patchInPlace slot).run.run h.buffer with ⟨⟨⟩, after⟩ <;> rfl
  rw [make, hrun, CodeBuffer.patchInPlace_run]
  cases h.buffer.patch slot <;> rfl

/-- Every call is one of the steps. -/
theorem Tracked.step (ht : h.Tracked) (call : BufferCall) : h.Step call (h.make call) := by
  cases call with
  | patch slot =>
    rw [make_patch]
    rcases ht.patch_cases slot with ⟨-, hpatch⟩ | ⟨n, hn, rfl, ⟨-, hpatch⟩ | ⟨hopen, hpatch⟩⟩ <;>
      rw [hpatch]
    · exact .refuses hpatch
    · exact .refuses hpatch
    · exact .overwrites hn hopen
  | reserve => exact .appends nofun rfl rfl fun n hn => ⟨(Option.some.inj hn).symm, rfl⟩
  | code | operand | boolean => exact .appends nofun rfl (List.append_nil _).symm nofun

section

variable {e : BufferEvent} {past : List BufferEvent} {b : CodeBuffer}

/-- What a history reserved, patched and appended, with one more call. -/
theorem reserved_snoc : reserved ⟨past ++ [e], b⟩ = reserved ⟨past, b⟩ ++ e.reserved?.toList := by
  cases hslot : e.reserved? <;> simp [reserved, hslot]

theorem patched_snoc : patched ⟨past ++ [e], b⟩ = patched ⟨past, b⟩ ++ e.patched?.toList := by
  cases hslot : e.patched? <;> simp [patched, hslot]

theorem appended_snoc : appended ⟨past ++ [e], b⟩ = appended ⟨past, b⟩ ++ e.call.bytes := by
  simp [appended]

/-- No slot is patched by a call that is no patch. -/
theorem patched?_eq_none {call : BufferCall} {answer : Except PatchFault (Option Nat)}
    (hcall : ∀ slot, call ≠ .patch slot) : BufferEvent.patched? ⟨b, call, answer⟩ = none := by
  cases answer with
  | error => rfl
  | ok =>
    cases call with
    | patch slot => exact absurd rfl (hcall slot)
    | _ => rfl

end

section

variable {n : Nat} {answer : Option Nat} {b : CodeBuffer}

/-- A call that is no patch is made. -/
theorem Tracked.appends (ht : h.Tracked) (hcall : ∀ slot, call ≠ .patch slot)
    (hcode : b.code = h.buffer.code ++ call.bytes)
    (hslots : b.slots = h.buffer.slots ++ answer.toList.map (·, false))
    (hanswer : ∀ n ∈ answer, n = h.buffer.length ∧ call.bytes.length = 8) :
    Tracked ⟨h.past ++ [⟨h.buffer, call, .ok answer⟩], b⟩ := by
  have hpatched : patched ⟨h.past ++ [⟨h.buffer, call, .ok answer⟩], b⟩ = h.patched := by
    rw [patched_snoc, patched?_eq_none hcall]
    exact List.append_nil _
  have hreserved : reserved ⟨h.past ++ [⟨h.buffer, call, .ok answer⟩], b⟩ =
      h.reserved ++ answer.toList := reserved_snoc
  have hlength : b.length = h.buffer.length + call.bytes.length := by
    rw [CodeBuffer.length, hcode, List.length_append, CodeBuffer.length]
  have hnew : ∀ n ∈ answer.toList, n = h.buffer.length ∧ call.bytes.length = 8 :=
    fun n hn => hanswer n (Option.mem_toList.mp hn)
  refine ⟨?_, ?_, ?_, ?_⟩
  · show b.slots = _
    rw [hslots, hreserved, hpatched, ht.slots, List.map_append]
    refine congrArg (_ ++ ·) (List.map_congr_left fun n hn => ?_)
    have hopen : n ∉ h.patched := fun hmem => by
      have hinside := ht.inside n (ht.known n hmem)
      have := (hnew n hn).1
      omega
    rw [decide_eq_false hopen]
  · rw [hpatched, hreserved]
    exact fun n hn => List.mem_append_left _ (ht.known n hn)
  · rw [hreserved]
    refine List.pairwise_append.mpr ⟨ht.apart, by cases answer <;> simp, fun n hn m hm => ?_⟩
    rw [(hnew m hm).1]
    exact ht.inside n hn
  · rw [hreserved]
    intro n hn
    show n + 8 ≤ b.length
    rcases List.mem_append.mp hn with hn | hn
    · exact Nat.le_trans (ht.inside n hn) (by omega)
    · obtain ⟨rfl, hwide⟩ := hnew n hn
      omega

/-- An open slot is patched. -/
theorem Tracked.overwrites (ht : h.Tracked) (hn : n ∈ h.reserved)
    (hcode : b.code = CodeBuffer.overwrite h.buffer.code n (wordBytes 8 h.buffer.length))
    (hslots : b.slots = h.buffer.slots.map fun s => if s.1 == n then (n, true) else s) :
    Tracked ⟨h.past ++ [⟨h.buffer, .patch (.ofNat n), .ok none⟩], b⟩ := by
  have hpatched : patched ⟨h.past ++ [⟨h.buffer, .patch (.ofNat n), .ok none⟩], b⟩ =
      h.patched ++ [n] := patched_snoc
  have hreserved : reserved ⟨h.past ++ [⟨h.buffer, .patch (.ofNat n), .ok none⟩], b⟩ =
      h.reserved := by
    rw [reserved_snoc]
    exact List.append_nil _
  refine ⟨?_, ?_, ?_, ?_⟩
  · rw [hreserved, hpatched]
    show b.slots = _
    rw [hslots, ht.slots, List.map_map]
    refine List.map_congr_left fun m _ => ?_
    by_cases hm : m = n
    · simp [hm]
    · simp [hm]
  · rw [hreserved, hpatched]
    intro m hm
    rcases List.mem_append.mp hm with hm | hm
    · exact ht.known m hm
    · rwa [List.mem_singleton.mp hm]
  · rw [hreserved]
    exact ht.apart
  · rw [hreserved]
    intro m hm
    show m + 8 ≤ b.code.length
    rw [hcode, CodeBuffer.length_overwrite]
    · exact ht.inside m hm
    · rw [length_wordBytes]
      exact ht.inside n hn

/-- A patch is refused. -/
theorem Tracked.refuses (ht : h.Tracked) (slot : Int) (fault : PatchFault) :
    Tracked ⟨h.past ++ [⟨h.buffer, .patch slot, .error fault⟩], h.buffer⟩ := by
  have hpatched : patched ⟨h.past ++ [⟨h.buffer, .patch slot, .error fault⟩], h.buffer⟩ =
      h.patched := by
    rw [patched_snoc]
    exact List.append_nil _
  have hreserved : reserved ⟨h.past ++ [⟨h.buffer, .patch slot, .error fault⟩], h.buffer⟩ =
      h.reserved := by
    rw [reserved_snoc]
    exact List.append_nil _
  refine ⟨?_, ?_, ?_, ?_⟩ <;> rw [hreserved]
  · rw [hpatched]
    exact ht.slots
  · rw [hpatched]
    exact ht.known
  · exact ht.apart
  · exact ht.inside

end

namespace Step

variable {after : BufferHistory}

/-- A step keeps the buffer and its history in agreement. -/
theorem tracked (ht : h.Tracked) (hs : h.Step call after) : after.Tracked := by
  cases hs with
  | appends hcall hcode hslots hanswer => exact ht.appends hcall hcode hslots hanswer
  | overwrites hn _ => exact ht.overwrites hn rfl rfl
  | refuses _ => exact ht.refuses _ _

/-- The code never shrinks. -/
theorem length_le (ht : h.Tracked) (hs : h.Step call after) :
    h.buffer.length ≤ after.buffer.length := by
  cases hs with
  | appends _ hcode =>
    show h.buffer.code.length ≤ _
    rw [CodeBuffer.length, hcode, List.length_append]
    exact Nat.le_add_right _ _
  | overwrites hn =>
    refine Nat.le_of_eq (CodeBuffer.length_overwrite ?_).symm
    rw [length_wordBytes]
    exact ht.inside _ hn
  | refuses => exact Nat.le_refl _

/-- A byte changes only if a slot is patched that it is in. -/
theorem getElem?_code (ht : h.Tracked) (hs : h.Step call after) {k : Nat} (hk : k < h.buffer.length)
    (hfree : ∀ e, after.past = h.past ++ [e] → ∀ slot, ¬e.Overwrites slot k) :
    after.buffer.code[k]? = h.buffer.code[k]? := by
  cases hs with
  | appends _ hcode =>
    show _ = h.buffer.code[k]?
    rw [hcode]
    exact List.getElem?_append_left hk
  | @overwrites n hn _ =>
    have hout := hfree _ rfl n
    rw [CodeBuffer.getElem?_overwrite, length_wordBytes, if_neg fun hin => hout ⟨rfl, hin⟩]
    rw [length_wordBytes]
    exact ht.inside n hn
  | refuses => rfl

end Step

/-! ## Where the bytes come from -/

/-- A byte of the code is one that was appended, unless a slot was patched that it is in: then
it is a byte of the length that the code had at that moment. -/
structure Written (h : BufferHistory) : Prop where
  length : h.buffer.length = h.appended.length
  appended : ∀ k, (∀ e ∈ h.past, ∀ slot, ¬e.Overwrites slot k) → h.buffer.code[k]? = h.appended[k]?
  overwritten : ∀ e ∈ h.past, ∀ slot k, e.Overwrites slot k → h.buffer.code[k]? =
    (wordBytes 8 e.before.length)[k - slot]?

/-- Only slots that were reserved are overwritten. -/
theorem Tracked.overwritten (ht : h.Tracked) {e : BufferEvent} (he : e ∈ h.past) {slot k : Nat}
    (hover : e.Overwrites slot k) :
    slot ∈ h.patched ∧ k < h.buffer.length := by
  have hslot : slot ∈ h.patched := List.mem_filterMap.mpr ⟨e, he, hover.1⟩
  have hinside := ht.inside slot (ht.known slot hslot)
  have hk := hover.2.2
  exact ⟨hslot, by omega⟩

section

variable {n : Nat} {answer : Option Nat} {b : CodeBuffer}

/-- A call that appends leaves what was written before where it was, -/
theorem Written.appends (ht : h.Tracked) (hw : h.Written) (hcall : ∀ slot, call ≠ .patch slot)
    (hcode : b.code = h.buffer.code ++ call.bytes) :
    Written ⟨h.past ++ [⟨h.buffer, call, .ok answer⟩], b⟩ := by
  have happended : BufferHistory.appended ⟨h.past ++ [⟨h.buffer, call, .ok answer⟩], b⟩ =
      h.appended ++ call.bytes := appended_snoc
  refine ⟨?_, fun k hfree => ?_, fun e he slot k hover => ?_⟩
  · show b.code.length = _
    rw [hcode, happended, List.length_append, List.length_append, ← hw.length, CodeBuffer.length]
  · show b.code[k]? = _
    rw [hcode, happended]
    by_cases hk : k < h.buffer.length
    · rw [List.getElem?_append_left hk, List.getElem?_append_left (hw.length ▸ hk)]
      exact hw.appended k fun e he => hfree e (List.mem_append_left _ he)
    · have hk := Nat.le_of_not_lt hk
      rw [List.getElem?_append_right hk, List.getElem?_append_right (hw.length ▸ hk), ← hw.length,
        CodeBuffer.length]
  · show b.code[k]? = _
    rcases List.mem_append.mp he with he | he
    · rw [hcode, List.getElem?_append_left (ht.overwritten he hover).2]
      exact hw.overwritten e he slot k hover
    · cases List.mem_singleton.mp he
      have hpatched := hover.1
      rw [patched?_eq_none hcall] at hpatched
      cases hpatched

/-- a patch replaces the word of its slot, -/
theorem Written.overwrites (ht : h.Tracked) (hw : h.Written) (hn : n ∈ h.reserved)
    (hopen : n ∉ h.patched) (hcode : b.code = CodeBuffer.overwrite h.buffer.code n
      (wordBytes 8 h.buffer.length)) :
    Written ⟨h.past ++ [⟨h.buffer, .patch (.ofNat n), .ok none⟩], b⟩ := by
  have hbound : n + (wordBytes 8 h.buffer.length).length ≤ h.buffer.code.length := by
    rw [length_wordBytes]
    exact ht.inside n hn
  have happended : BufferHistory.appended ⟨h.past ++ [⟨h.buffer, .patch (.ofNat n), .ok none⟩], b⟩ =
      h.appended :=
    appended_snoc.trans (List.append_nil _)
  -- The length stays; free bytes lie outside the slot; and the word of every slot that was patched
  -- is still there.
  refine ⟨?_, fun k hfree => ?_, fun e he slot k hover => ?_⟩
  · rw [happended, CodeBuffer.length, hcode]
    exact (CodeBuffer.length_overwrite hbound).trans hw.length
  · have hout := hfree _ (List.mem_append_right _ List.mem_cons_self) n
    rw [hcode, CodeBuffer.getElem?_overwrite hbound, length_wordBytes,
      if_neg fun hin => hout ⟨rfl, hin⟩, happended]
    exact hw.appended k fun e he => hfree e (List.mem_append_left _ he)
  · rw [hcode, CodeBuffer.getElem?_overwrite hbound, length_wordBytes]
    rcases List.mem_append.mp he with he | he
    · -- The slot lies apart from the one that is overwritten now.
      obtain ⟨hslot, -⟩ := ht.overwritten he hover
      have hne : slot ≠ n := fun heq => hopen (heq ▸ hslot)
      have hsymm : Std.Symm fun a b : Nat => a + 8 ≤ b ∨ b + 8 ≤ a := ⟨fun _ _ => Or.symm⟩
      have hpairs : h.reserved.Pairwise fun a b => a + 8 ≤ b ∨ b + 8 ≤ a := ht.apart.imp Or.inl
      have hapart := hpairs.forall (ht.known slot hslot) hn hne
      have hk := hover.2
      rw [if_neg (by omega)]
      exact hw.overwritten e he slot k hover
    · cases List.mem_singleton.mp he
      obtain ⟨hslot, hin⟩ := hover
      cases hslot
      rw [if_pos hin]

/-- and a refused one replaces nothing. -/
theorem Written.refuses (hw : h.Written) (slot : Int) (fault : PatchFault) :
    Written ⟨h.past ++ [⟨h.buffer, .patch slot, .error fault⟩], h.buffer⟩ := by
  have happended : BufferHistory.appended ⟨h.past ++ [⟨h.buffer, .patch slot, .error fault⟩],
      h.buffer⟩ = h.appended :=
    appended_snoc.trans (List.append_nil _)
  refine ⟨happended ▸ hw.length, fun k hfree => ?_, fun e he slot k hover => ?_⟩
  · rw [happended]
    exact hw.appended k fun e he => hfree e (List.mem_append_left _ he)
  · rcases List.mem_append.mp he with he | he
    · exact hw.overwritten e he slot k hover
    · cases List.mem_singleton.mp he
      cases hover.1

end

/-- So a step keeps the account of what is written. -/
theorem Step.written {after : BufferHistory} (ht : h.Tracked) (hw : h.Written)
    (hs : h.Step call after) : after.Written := by
  cases hs with
  | appends hcall hcode _ _ => exact hw.appends ht hcall hcode
  | overwrites hn hopen => exact hw.overwrites ht hn hopen rfl
  | refuses _ => exact hw.refuses _ _

/-! ## What every history keeps -/

/-- The code at some moment is still there later, but for the slots that were patched since. -/
structure Stays (h : BufferHistory) : Prop where
  length : ∀ e ∈ h.past, e.before.length ≤ h.buffer.length
  code : ∀ earlier e later, h.past = earlier ++ e :: later → ∀ k < e.before.length,
    (∀ x ∈ e :: later, ∀ slot, ¬x.Overwrites slot k) → h.buffer.code[k]? = e.before.code[k]?

/-- A step adds one event, made at the buffer as it was. -/
theorem Step.past_eq {after : BufferHistory} (hs : h.Step call after) :
    ∃ e, e.before = h.buffer ∧ after.past = h.past ++ [e] := by
  cases hs <;> exact ⟨_, rfl, rfl⟩

/-- Bytes that were written stay, other than the words of open slots. -/
theorem Step.stays {after : BufferHistory} (ht : h.Tracked) (hstays : h.Stays)
    (hs : h.Step call after) : after.Stays := by
  obtain ⟨new, hnew, hpast⟩ := hs.past_eq
  have hgrows := hs.length_le ht
  refine ⟨fun e he => ?_, fun earlier e later hsplit k hk hfree => ?_⟩
  · rw [hpast] at he
    rcases List.mem_append.mp he with he | he
    · exact Nat.le_trans (hstays.length e he) hgrows
    · rw [List.mem_singleton.mp he, hnew]
      exact hgrows
  · rw [hpast] at hsplit
    rcases List.eq_nil_or_concat later with rfl | ⟨later, last, rfl⟩
    · obtain ⟨-, hlast⟩ := List.append_inj' hsplit rfl
      cases hlast
      rw [hnew] at hk ⊢
      refine hs.getElem?_code ht hk fun x hx => ?_
      have hx : x = new := by simpa [hpast] using hx.symm
      exact hx ▸ hfree new List.mem_cons_self
    · rw [List.concat_eq_append] at hsplit hfree
      rw [← List.cons_append, ← List.append_assoc] at hsplit
      obtain ⟨hsplit, hlast⟩ := List.append_inj' hsplit rfl
      have hbefore : e.before.length ≤ h.buffer.length :=
        hstays.length e (hsplit ▸ List.mem_append_right earlier List.mem_cons_self)
      rw [hs.getElem?_code ht (Nat.lt_of_lt_of_le hk hbefore) fun x hx => ?_]
      · exact hstays.code earlier e later hsplit k hk fun x hx =>
          hfree x (List.mem_append_left [last] hx)
      · have hx : x = last := by simpa [hpast, hlast] using hx.symm
        exact hx ▸ hfree last (List.mem_append_right (e :: later) List.mem_cons_self)

/-- What holds at the end of a history, and for one call more.
- A call that is no patch appends its bytes, and a reservation answers where they stand.
- A patch is refused if and only if its slot was never reserved, or was patched already, and then
  it changes nothing.
- Otherwise it puts the length of the code into the eight bytes of the slot.
- The open slots are those that were reserved and not patched, and ascend; without any the code
  is finished.
- The code never shrinks, and a byte of it stays as it is but for patches. Each byte of it is
  one that was appended, or one of the length that the code had when its slot was patched. -/
structure Kept (h : BufferHistory) : Prop where
  appends : ∀ call, (∀ slot, call ≠ .patch slot) → (h.make call).buffer.code =
    h.buffer.code ++ call.bytes
  reserves : (h.make .reserve).reserved = h.reserved ++ [h.buffer.length]
  refused : ∀ slot, (∃ fault, h.buffer.patch slot = .error fault) ↔
    slot ∉ h.reserved.map Int.ofNat ∨ slot ∈ h.patched.map Int.ofNat
  unchanged : ∀ slot fault, h.buffer.patch slot = .error fault → (h.make (.patch slot)).buffer =
    h.buffer
  overwrites : ∀ (slot : Nat) after, h.buffer.patch slot = .ok after →
    (h.make (.patch slot)).buffer = after ∧
    after.length = h.buffer.length ∧ ∀ k : Nat, after.code[k]? =
      if slot ≤ k ∧ k < slot + 8 then (wordBytes 8 h.buffer.length)[k - slot]?
      else h.buffer.code[k]?
  unpatched : h.buffer.unpatched = h.reserved.filter fun n => n ∉ h.patched
  ascending : h.buffer.unpatched.Pairwise (· < ·)
  finished : ∀ code, h.buffer.bytes = .ok code ↔ h.buffer.unpatched = [] ∧ code = h.buffer.code
  stays : h.Stays
  written : h.Written

/-- The four parts together. -/
theorem Tracked.kept (ht : h.Tracked) (hstays : h.Stays) (hwritten : h.Written) : h.Kept where
  appends call hcall := by
    have hs := ht.step call
    generalize h.make call = after at hs
    cases hs with
    | appends _ hcode => exact hcode
    | overwrites | refuses => exact absurd rfl (hcall _)
  reserves := reserved_snoc
  refused := ht.refused_iff
  unchanged slot fault hpatch := by rw [make_patch, hpatch]
  overwrites slot after hpatch := by
    have hmake := make_patch (h := h) slot
    rw [hpatch] at hmake
    -- A patch that succeeds is one of a slot that is reserved and still open.
    rcases ht.patch_cases slot with ⟨-, hrefused⟩ | ⟨n, hn, hslot, ⟨-, hrefused⟩ | ⟨-, hopen⟩⟩
    · rw [hpatch] at hrefused
      cases hrefused
    · rw [hpatch] at hrefused
      cases hrefused
    · cases hslot
      rw [hpatch] at hopen
      cases hopen
      have hbound : slot + (wordBytes 8 h.buffer.length).length ≤ h.buffer.code.length := by
        rw [length_wordBytes]
        exact ht.inside slot hn
      refine ⟨by rw [hmake], CodeBuffer.length_overwrite hbound, fun k => ?_⟩
      rw [CodeBuffer.getElem?_overwrite hbound, length_wordBytes]
  unpatched := ht.unpatched
  ascending := by
    rw [ht.unpatched]
    exact (ht.apart.imp fun hlt => by omega).filter _
  finished code := by
    rw [CodeBuffer.bytes]
    cases h.buffer.unpatched with
    | nil => simp [eq_comm]
    | cons => simp
  stays := hstays
  written := hwritten

/-- A history of calls and one more. -/
theorem of_concat (name : String) (calls : List BufferCall) (call : BufferCall) :
    of name (calls ++ [call]) = (of name calls).make call := by
  rw [of, List.foldl_append]
  rfl

/-- Every history keeps them, by induction on its calls from the last one on. -/
theorem of_tracked (name : String) (calls : List BufferCall) :
    (of name calls).Tracked ∧ (of name calls).Stays ∧ (of name calls).Written := by
  induction calls using List.reverseRecOn with
  | nil =>
    exact ⟨⟨rfl, nofun, .nil, nofun⟩, ⟨nofun, fun earlier e later hsplit => by simp [of] at hsplit⟩,
      ⟨rfl, fun _ _ => rfl, nofun⟩⟩
  | append_singleton calls call ih =>
    obtain ⟨ht, hstays, hwritten⟩ := ih
    have hs := ht.step call
    rw [of_concat]
    exact ⟨hs.tracked ht, hs.stays ht hstays, hs.written ht hwritten⟩

end BufferHistory

/-- Whatever calls are made on a new buffer, each does what it should, and the code is what the
calls have written. -/
theorem buffer_keeps (name : String) (calls : List BufferCall) :
    (BufferHistory.of name calls).Kept :=
  have ⟨ht, hstays, hwritten⟩ := BufferHistory.of_tracked name calls
  ht.kept hstays hwritten

/-- A slot between two operations, patched once: the second patch is refused. -/
example :
    let h :=
  BufferHistory.of "a" [.code 7, .reserve, .code 1, .patch 2, .patch 2, .patch 3, .boolean true]
    h.buffer.code = [7, 0, 12, 0, 0, 0, 0, 0, 0, 0, 1, 0, 1] ∧ h.reserved = [2] ∧ h.patched = [2] ∧
      h.buffer.unpatched = [] := by
  decide

end EcmaStack

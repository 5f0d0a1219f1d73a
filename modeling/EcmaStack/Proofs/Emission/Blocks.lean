import EcmaStack.Proofs.Bytecode.Chains
import EcmaStack.Proofs.Emission.Growth

/-!
# What writers add to a program

A writer is described by the fragment of code that it adds to whatever program it
is given, and by the report that it makes. `Answers m a c f` says that `m` adds
`c`, reports `f`, answers `a`, and patches each slot that it reserves; no patch of
it is refused, and no slot of it stays open. A link of a chain may leave slots
open, and answers them behind those it was given (`Prolongs`).

Descriptions are put together along `++`, so that the layers above speak of
fragments only. What reserves a slot and patches it later is described here, one
law for each way in which slots are used: a part that is passed over, one part out
of two, a loop, a frame, the body of a function and a chain.
-/

namespace EcmaStack

open Code Writing

variable {α β : Type} {a : α} {c d e : Code} {f g : Option WriteReport} {w : Writer}

/-! ## Fragments without open slots -/

namespace Code

/-- Whether a fragment has no addresses. -/
def isStraight (c : Code) : Bool :=
  c.all fun i => i.operands.all fun o => o.kind != .address

/-- Straight code stays straight when more of it is put behind it. -/
theorem isStraight_append (hc : c.isStraight = true) (hd : d.isStraight = true) :
    (c ++ d).isStraight = true := by
  rw [isStraight, List.all_append, ← isStraight, ← isStraight, hc, hd]
  rfl

/-- So does straight code for each of some values. -/
theorem isStraight_flatMap (code : α → Code) (h : ∀ x, (code x).isStraight = true) (list : List α) :
    isStraight (list.flatMap code) = true := by
  rw [isStraight, List.all_flatMap]
  exact List.all_eq_true.mpr fun x _ => h x

/-- A closed fragment has no open slots, wherever it stands. -/
theorem Closed.exits (h : c.Closed) (start : Nat) : c.exits start = [] := by
  have hoperands {os : List (Operand Reach)} (hos : (os.all fun o => !o.isOpen) = true)
      (offset : Nat) :
      (Instr.slots offset os).filter (fun s => !s.2) = [] := by
    induction os generalizing offset with
    | nil => rfl
    | cons o rest ih =>
      rw [List.all_cons, Bool.and_eq_true] at hos
      rw [Instr.slots, List.filter_append, ih hos.2, List.append_nil]
      cases o with
      | address r =>
        cases r with
        | exit => cases hos.1
        | absent | ahead | back => rfl
      | integer | number | text => rfl
  induction c generalizing start with
  | nil => rfl
  | cons i rest ih =>
    obtain ⟨hfirst, hrest⟩ := closed_cons.mp h
    rw [Code.exits, slots, List.filter_append, hoperands hfirst]
    exact ih hrest _

/-- Operands that are no addresses reserve no slot. -/
private theorem slots_of_straight {os : List (Operand Reach)}
    (h : os.all (fun o => o.kind != .address) = true) (offset : Nat) :
    Instr.slots offset os = [] := by
  induction os generalizing offset with
  | nil => rfl
  | cons o rest ih =>
    rw [List.all_cons, Bool.and_eq_true] at h
    rw [Instr.slots, ih h.2, List.append_nil]
    cases o with
    | address r => cases h.1
    | integer | number | text => rfl

/-- Straight code has no slots, and its bytes are those of its instructions,
whatever stands for an address. -/
theorem slots_bytes_of_isStraight (h : c.isStraight = true) (start : Nat) :
    c.slots start = [] ∧ c.bytes start = (c.map (Instr.map fun _ => 0)).flatMap Instr.encode := by
  induction c generalizing start with
  | nil => exact ⟨rfl, rfl⟩
  | cons i rest ih =>
    rw [isStraight, List.all_cons, Bool.and_eq_true] at h
    obtain ⟨hslots, hbytes⟩ := ih h.2 (start + i.size)
    refine ⟨?_, ?_⟩
    · rw [slots, hslots, slots_of_straight h.1, List.append_nil]
    · have hoperands : Instr.bytes start (start + i.size) i.operands =
          (i.operands.map (Operand.map fun _ => (0 : UInt64))).flatMap Operand.encode := by
        rw [Instr.bytes, List.flatMap_map]
        refine congrArg List.flatten (List.map_congr_left fun o ho => ?_)
        have hkind := List.all_eq_true.mp h.1 o ho
        cases o with
        | address r => cases hkind
        | integer | number | text => rfl
      rw [bytes, hbytes, hoperands, List.map_cons, List.flatMap_cons]
      rfl

/-- Straight code leads nowhere, so nothing of it is open. -/
theorem closed_of_isStraight (h : c.isStraight = true) : c.Closed := by
  refine List.all_eq_true.mpr fun i hi => List.all_eq_true.mpr fun o ho => ?_
  have hkind := List.all_eq_true.mp (List.all_eq_true.mp h i hi) o ho
  cases o with
  | address r => cases hkind
  | integer | number | text => rfl

end Code

/-- The bytes of a closed fragment are those of its instructions once their addresses
are fixed. -/
theorem Code.Closed.bytes (h : c.Closed) (start : Nat) :
    c.bytes start = (c.resolve start).flatMap Instr.encode := by
  have hword {start stop : Nat} {r : Reach} (hr : r ≠ .exit) :
      r.word start stop = UInt64.ofNat (r.offset start stop) := by
    cases r with
    | exit => exact absurd rfl hr
    | absent | ahead | back => rfl
  induction c generalizing start with
  | nil => rfl
  | cons i rest ih =>
    obtain ⟨hfirst, hrest⟩ := closed_cons.mp h
    have hoperands : Instr.bytes start (start + i.size) i.operands =
        (i.operands.map (Operand.map fun r => UInt64.ofNat
          (r.offset start (start + i.size)))).flatMap
          Operand.encode := by
      rw [Instr.bytes, List.flatMap_map]
      refine congrArg List.flatten (List.map_congr_left fun o ho => ?_)
      have hknown := List.all_eq_true.mp hfirst o ho
      cases o with
      | address r =>
        have hr : r ≠ .exit := by
          rintro rfl
          cases hknown
        change Operand.encode (.address (r.word _ _)) = _
        rw [hword hr]
        rfl
      | integer | number | text => rfl
    rw [Code.bytes, ih hrest, hoperands]
    rfl

/-- A closed fragment leaves no slot open. -/
theorem CodeBuffer.unpatched_grow (h : c.Closed) (b : CodeBuffer) :
    (b.grow c).unpatched = b.unpatched := by
  have hnone := h.exits b.length
  rw [Code.exits, List.map_eq_nil_iff] at hnone
  rw [unpatched, unpatched, grow, List.filter_append, hnone, List.append_nil]

/-! ## The descriptions -/

/-- A writer whose program has grown by a fragment, with a report that counts if it
is the first. -/
def Writer.grow (w : Writer) (c : Code) (f : Option WriteReport) : Writer :=
  { out := w.out.grow c, fault := w.fault.or f }

/-- What is written in two pieces is written in one. The first report is the one that is
kept. -/
theorem Writer.grow_grow (w : Writer) (c d : Code) (f g : Option WriteReport) :
    (w.grow c f).grow d g = w.grow (c ++ d) (f.or g) := by
  rw [grow, grow, grow, CodeBuffer.grow_grow, Option.or_assoc]

/-- The next offset is as far ahead as the code is long. -/
theorem Writer.length_grow (w : Writer) (c : Code) (f : Option WriteReport) :
    (w.grow c f).out.length = w.out.length + c.size :=
  CodeBuffer.length_grow w.out c

/-- Writing nothing leaves the writer as it is. -/
theorem Writer.grow_nil (w : Writer) : w.grow [] none = w := by
  rw [grow, CodeBuffer.grow_nil, Option.or_none]

/-- What is written adds a fragment in which no slot is open, makes a report and
answers a value. -/
structure Answers (m : Writing α) (a : α) (c : Code) (f : Option WriteReport) : Prop where
  closed : c.Closed
  run : ∀ w : Writer, w.out.Inside → m.run w = .ok (a, w.grow c f)

/-- What is written adds a fragment in which no slot is open, and makes a
report. -/
abbrev Writes (m : Writing Unit) (c : Code) (f : Option WriteReport) : Prop :=
  Answers m () c f

/-- A link adds a fragment and a report, and answers the slots of the jumps that
leave the chain in it behind those it was given. -/
def Prolongs (link : Link) (c : Code) (f : Option WriteReport) : Prop :=
  ∀ (jumps : List Int) (w : Writer), w.out.Inside →
    (link jumps).run w = .ok (jumps ++ c.exits w.out.length, w.grow c f)

/-! ## Single instructions -/

/-- One more operand of the last instruction, behind operands whose bytes do not
depend on where the instruction ends. -/
theorem CodeBuffer.grow_operand (b : CodeBuffer) (o : Opcode) (xs : List (Operand Reach))
    (x : Operand Reach) (hxs : ∀ start stop stop', Instr.bytes start stop xs =
      Instr.bytes start stop' xs) :
    b.grow [⟨o, xs ++ [x]⟩] = { b.grow [⟨o, xs⟩] with
      code := (b.grow [⟨o, xs⟩]).code ++
        Instr.bytes b.length (b.length + (2 + (Instr.widths xs + x.width))) [x]
      slots := (b.grow [⟨o, xs⟩]).slots ++ x.slots (b.length + 2 + Instr.widths xs) } := by
  have hsize : (⟨o, xs ++ [x]⟩ : Instr Reach).size = 2 + (Instr.widths xs + x.width) := by
    rw [Code.size_instr, Instr.widths_append]
    rfl
  have hone (os : List (Operand Reach)) : Code.bytes b.length [⟨o, os⟩] =
      wordBytes 2 o.number ++ Instr.bytes b.length (b.length + (⟨o, os⟩ : Instr Reach).size) os :=
    List.append_nil _
  have hcode : Code.bytes b.length [⟨o, xs ++ [x]⟩] = Code.bytes b.length [⟨o, xs⟩] ++
      Instr.bytes b.length (b.length + (2 + (Instr.widths xs + x.width))) [x] := by
    rw [hone, hone, hsize, Instr.bytes_append, hxs _ (b.length + Instr.size _), List.append_assoc]
  have hslots : Code.slots b.length [⟨o, xs ++ [x]⟩] = Code.slots b.length [⟨o, xs⟩] ++
      x.slots (b.length + 2 + Instr.widths xs) := by
    change Instr.slots _ _ ++ [] = (Instr.slots _ _ ++ []) ++ _
    rw [Instr.slots_append, List.append_nil, List.append_nil]
    exact congrArg (_ ++ ·) (List.append_nil _)
  rw [grow, grow, hcode, hslots, List.append_assoc, List.append_assoc]

/-- An address behind such operands can be left open. -/
theorem CodeBuffer.reserve_grow (b : CodeBuffer) (o : Opcode) (xs : List (Operand Reach))
    (hxs : ∀ start stop stop', Instr.bytes start stop xs = Instr.bytes start stop' xs) :
    (b.grow [⟨o, xs⟩]).reserve =
      (b.length + 2 + Instr.widths xs, b.grow [⟨o, xs ++ [.address .exit]⟩]) := by
  have hlength : (b.grow [⟨o, xs⟩]).length = b.length + 2 + Instr.widths xs := by
    rw [length_grow, Nat.add_assoc]
    rfl
  rw [reserve, hlength, grow_operand _ _ _ _ hxs]
  rfl

namespace Writing

/-- A step that has run may be taken off the front of what is run. -/
theorem bind_run {m : Writing α} {k : α → Writing β} {w' : Writer} (h : m.run w = .ok (a, w')) :
    (m >>= k).run w = (k a).run w' := by
  rw [StateT.run_bind, h]
  rfl

/-- Straight code is put down as it stands: it has no address that waits for a slot. -/
theorem put_run (h : c.isStraight = true) (w : Writer) :
    (put c).run w = .ok ((), w.grow c none) := by
  obtain ⟨hslots, hbytes⟩ := slots_bytes_of_isStraight h w.out.length
  have hout : w.out.addInstructions (c.map (Instr.map fun _ => 0)) = w.out.grow c := by
    rw [CodeBuffer.addInstructions, CodeBuffer.append, CodeBuffer.grow, hslots, hbytes,
      List.append_nil]
  have hrun : (put c).run w =
      .ok ((), { w with out := w.out.addInstructions (c.map (Instr.map fun _ => 0)) }) := rfl
  rw [hrun, hout, Writer.grow, Option.or_none]

/-- An instruction whose last operand is an address that is left open. -/
theorem reserve_run (o : Opcode) (xs : List (Operand Reach))
    (hxs : ∀ start stop stop', Instr.bytes start stop xs = Instr.bytes start stop' xs)
    (w : Writer) :
    reserve.run (w.grow [⟨o, xs⟩] f) = .ok (((w.out.length + 2 + Instr.widths xs : Nat) : Int),
      w.grow [⟨o, xs ++ [.address .exit]⟩] f) := by
  have hrun : reserve.run (w.grow [⟨o, xs⟩] f) =
      .ok ((((w.out.grow [⟨o, xs⟩]).reserve.1 : Nat) : Int),
      { out := (w.out.grow [⟨o, xs⟩]).reserve.2, fault := w.fault.or f }) := rfl
  rw [hrun, CodeBuffer.reserve_grow _ _ _ hxs]
  rfl

/-- An instruction whose last operand is an address that is known. -/
theorem address_run (o : Opcode) (xs : List (Operand Reach)) (r : Reach) (place : Nat)
    (hxs : ∀ start stop stop', Instr.bytes start stop xs = Instr.bytes start stop' xs)
    (hslots : ∀ offset, (Operand.address r).slots offset = []) (w : Writer)
    (hword : ∀ stop, UInt64.ofNat place = r.word w.out.length stop) :
    (address place).run (w.grow [⟨o, xs⟩] f) = .ok ((), w.grow [⟨o, xs ++ [.address r]⟩] f) := by
  have hrun : (address place).run (w.grow [⟨o, xs⟩] f) = .ok ((), { w.grow [⟨o, xs⟩] f with
      out := (w.out.grow [⟨o, xs⟩]).addOperand (.address (UInt64.ofNat place)) }) := rfl
  have hout : (w.out.grow [⟨o, xs⟩]).addOperand (.address (UInt64.ofNat place)) =
      w.out.grow [⟨o, xs ++ [.address r]⟩] := by
    rw [CodeBuffer.grow_operand _ _ _ _ hxs, hslots, List.append_nil, hword, CodeBuffer.addOperand]
    rfl
  rw [hrun, hout]
  rfl

/-- A jump answers the slot of its address, which lies behind the two bytes of the
operation, and leaves it open. -/
theorem jump_run (o : Opcode) (w : Writer) :
    (jump o).run w = .ok (((w.out.length + 2 : Nat) : Int), w.grow (branch o .exit) none) := by
  rw [jump, op, bind_run (put_run (c := Code.op o) rfl w)]
  exact reserve_run o [] (fun _ _ _ => rfl) w

/-- A jump back to a place that many bytes before it. -/
theorem jumpTo_run (o : Opcode) {place n : Nat} (h : w.out.length = place + n) :
    (jumpTo o place).run w = .ok ((), w.grow (branch o (.back n)) none) := by
  rw [jumpTo, op, bind_run (put_run (c := Code.op o) rfl w)]
  refine address_run o [] (.back n) place (fun _ _ _ => rfl) (fun _ => rfl) w fun stop => ?_
  rw [Reach.word, Reach.offset, h, Nat.add_sub_cancel]
  exact Reach.noConfusion

/-- A slot that was left open is patched to lead to the end, whatever was written
before and after it. -/
theorem patch_run {b : CodeBuffer} (hb : b.Inside) (fault : Option WriteReport) (before : Code)
    (o : Opcode) (xs ys : List (Operand Reach)) (c : Code) :
    (patch ((b.length + before.size + 2 + Instr.widths xs : Nat) : Int)).run
        ⟨b.grow (before ++ ⟨o, xs ++ .address .exit :: ys⟩ :: c), fault⟩ =
      .ok ((), ⟨b.grow (before ++ ⟨o, xs ++ .address (.ahead c.size) :: ys⟩ :: c), fault⟩) := by
  have hpatch := CodeBuffer.patch_grow (hb.grow before) o xs ys c
  rw [CodeBuffer.length_grow, CodeBuffer.grow_grow, CodeBuffer.grow_grow] at hpatch
  have hrun (out : CodeBuffer) (slot : Int) : (patch slot).run ⟨out, fault⟩ =
      (out.patch slot).map fun out => ((), ⟨out, fault⟩) := by
    rw [patch]
    cases hout : out.patch slot with
    | error e => simp [StateT.run_bind, hout]; rfl
    | ok b' => simp [StateT.run_bind, hout]; rfl
  rw [hrun, hpatch]
  rfl

end Writing

/-- What `put` writes is what it was given, wherever it stands. -/
theorem put_writes (h : c.isStraight = true) : Writes (put c) c none where
  closed := closed_of_isStraight h
  run w _ := put_run h w

theorem op_writes (o : Opcode) : Writes (op o) (Code.op o) none :=
  put_writes rfl

theorem text_writes (o : Opcode) (s : Text) : Writes (text o s) (Code.text o s) none :=
  put_writes rfl

theorem string_writes (s : Text) : Writes (Writing.string s) (Code.string s) none :=
  put_writes rfl

theorem pick_writes (n : Nat) : Writes (pick n) (Code.pick n) none :=
  put_writes rfl

theorem sink_writes (n : Nat) : Writes (sink n) (Code.sink n) none :=
  put_writes rfl

/-- A report writes no code. It is kept if it is the first. -/
theorem report_writes (span : Span) (cause : WriteCause) :
    Writes (report span cause) [] (some ⟨span.offset, cause⟩) where
  closed := closed_nil
  run w _ := by
    have hrun : (report span cause).run w =
        .ok ((), { w with fault := w.fault.or (some ⟨span.offset, cause⟩) }) := rfl
    rw [hrun, Writer.grow, CodeBuffer.grow_nil]

/-! ## Parts one after the other -/

namespace Answers

variable {b : β} {m : Writing α} {n : Writing β} {k : α → Writing β}

/-- What two steps write stands one behind the other, and the first fault of either is the
fault of both. -/
theorem bind (hm : Answers m a c f) (hk : Answers (k a) b d g) :
    Answers (m >>= k) b (c ++ d) (f.or g) where
  closed := hm.closed.append hk.closed
  run w hw := by
    rw [bind_run (hm.run w hw), hk.run _ (hw.grow c), Writer.grow_grow]

/-- An answer writes nothing. -/
theorem pure (a : α) : Answers (return a) a [] none where
  closed := closed_nil
  run w _ := by
    rw [Writer.grow_nil]
    rfl

/-- What follows makes no report. -/
theorem bind_ending (hm : Answers m a c f) (hk : Answers (k a) b d none) :
    Answers (m >>= k) b (c ++ d) f := by
  have h := hm.bind hk
  rwa [Option.or_none] at h

/-- Nothing but an answer follows. -/
theorem answering (hm : Answers m a c f) (b : β) : Answers (m >>= fun _ => return b) b c f := by
  have h := hm.bind_ending (k := fun _ => return b) (.pure b)
  rwa [List.append_nil] at h

section

variable {m : Writing Unit}

/-- The same for a step that answers nothing. -/
theorem seq (hm : Writes m c f) (hn : Answers n b d g) :
    Answers (do
      m
      n) b (c ++ d) (f.or g) :=
  hm.bind hn

/-- What stands before makes no report. -/
theorem before (hm : Writes m c none) (hn : Answers n b d g) :
    Answers (do
      m
      n) b (c ++ d) g :=
  hm.bind hn

/-- What follows makes no report. -/
theorem ending (hm : Writes m c f) (hn : Answers n b d none) :
    Answers (do
      m
      n) b (c ++ d) f :=
  hm.bind_ending hn

end

/-- The code may be named in another way. -/
theorem map_code (hm : Answers m a c f) (h : d = c) : Answers m a d f :=
  h ▸ hm

end Answers

/-- A step that is taken under a condition writes its code under that condition. -/
theorem when_writes {m : Writing Unit} (condition : Bool) (h : condition = true → Writes m c f) :
    Writes (when condition m) (if condition then c else []) (if condition then f else none) := by
  cases condition with
  | true => exact h rfl
  | false => exact .pure ()

/-- Straight code written only under a condition. -/
theorem when_put_writes {m : Writing Unit} (condition : Bool) (h : Writes m c none) :
    Writes (when condition m) (if condition then c else []) none := by
  have hwhen := when_writes condition fun _ => h
  rwa [ite_self] at hwhen

/-- Straight code for each member of a list. -/
theorem forM_writes {γ : Type} {m : γ → Writing Unit} {code : γ → Code}
    (h : ∀ x, Writes (m x) (code x) none) (list : List γ) :
    Writes (list.forM m) (list.flatMap code) none := by
  induction list with
  | nil => exact .pure ()
  | cons x rest ih =>
    rw [List.forM_eq_forM, List.forM_cons, List.flatMap_cons]
    exact (h x).ending ih

/-! ## Parts that are passed over -/

/-- A jump around some code is patched right behind it, so the code has no open slot of
its own. -/
theorem Answers.bypassed {m : Writing Unit} (o : Opcode) (h : Writes m c f) :
    Writes (do
      let slot ← jump o
      m
      patch slot) (bypassed o c) f where
  closed := h.closed.bypassed o
  run w hw := by
    rw [bind_run (jump_run o w), bind_run (h.run _ (hw.grow _)), Writer.grow_grow]
    exact patch_run hw _ [] o [] [] c

/-- One part or the other: the first ends with a jump over the second. -/
theorem Answers.either {m n : Writing Unit} (o : Opcode) (hm : Writes m c f) (hn : Writes n d g) :
    Writes (do
      let other ← jump o
      m
      let stop ← jump .jump
      patch other
      n
      patch stop) (Code.bypassed o (c ++ branch .jump (.ahead d.size)) ++ d) (f.or g) where
  closed := ((hm.closed.append (closed_branch .jump Reach.noConfusion)).bypassed o).append hn.closed
  run w hw := by
    let jumps (r : Reach) : Code := c ++ branch .jump r
    let passed : Code := branch o (.ahead (jumps .exit).size) ++ c
    have hother : (patch ((w.out.length + 2 : Nat) : Int)).run
        (w.grow (branch o .exit ++ jumps .exit) f) =
        .ok ((), w.grow (passed ++ branch .jump .exit) f) := by
      rw [List.append_assoc]
      exact patch_run hw _ [] o [] [] (jumps .exit)
    have hstop : (patch ((w.out.length + passed.size + 2 : Nat) : Int)).run
        (w.grow (passed ++ (branch .jump .exit ++ d)) (f.or g)) =
          .ok ((), w.grow (passed ++ (branch .jump (.ahead d.size) ++ d)) (f.or g)) :=
      patch_run hw _ passed .jump [] [] d
    rw [bind_run (jump_run o w), bind_run (hm.run _ (hw.grow _)), Writer.grow_grow,
      bind_run (jump_run .jump _), Writer.grow_grow, List.append_assoc, Option.or_none,
      Option.none_or, bind_run hother, bind_run (hn.run _ (hw.grow _)), Writer.grow_grow,
      List.append_assoc, Writer.length_grow]
    have hsize : (passed ++ (branch .jump (.ahead d.size) ++ d)) =
        Code.bypassed o (c ++ branch .jump (.ahead d.size)) ++ d := by
      simp only [passed, jumps, Code.bypassed, size_append, List.append_assoc]
      rfl
    rw [← hsize]
    exact hstop

/-! ## Loops -/

/-- A jump back leads to an offset that is known when the jump is written. -/
theorem Answers.forever {m : Writing Unit} (h : Writes m c f) :
    Writes (do
      let start ← here
      m
      jumpTo .jump start) (Code.forever c) f where
  closed := h.closed.append (closed_branch .jump Reach.noConfusion)
  run w hw := by
    have hhere : here.run w = .ok (w.out.length, w) := rfl
    have hback := jumpTo_run (w := w.grow c f) .jump (Writer.length_grow w c f)
    rw [bind_run hhere, bind_run (h.run w hw), hback, Writer.grow_grow, Option.or_none]
    rfl

/-- A loop that is left by a conditional jump between two parts. -/
theorem Answers.repeated {m n : Writing Unit} (leave : Opcode) (hm : Writes m c f)
    (hn : Writes n d g) :
    Writes (do
      let start ← here
      m
      let exit ← jump leave
      n
      jumpTo .jump start
      patch exit) (Code.forever (c ++ branch leave (.ahead (d.size + jumpSize)) ++ d))
      (f.or g) where
  closed := ((hm.closed.append (closed_branch leave Reach.noConfusion)).append hn.closed).append
    (closed_branch .jump Reach.noConfusion)
  run w hw := by
    let body (r : Reach) : Code := c ++ branch leave r ++ d
    let back : Code := branch .jump (.back (body .exit).size)
    have hback := jumpTo_run (w := w.grow (body .exit) (f.or g)) .jump (Writer.length_grow w _ _)
    have hopen : body .exit ++ back = c ++ (branch leave .exit ++ (d ++ back)) := by
      simp only [body, List.append_assoc]
    have hexit : (patch ((w.out.length + c.size + 2 : Nat) : Int)).run
        (w.grow (c ++ (branch leave .exit ++ (d ++ back))) (f.or g)) =
          .ok ((), w.grow (c ++ (branch leave (.ahead (d ++ back).size) ++ (d ++ back)))
            (f.or g)) :=
      patch_run hw _ c leave [] [] _
    have hcode : c ++ (branch leave (.ahead (d ++ back).size) ++ (d ++ back)) =
        Code.forever (c ++ branch leave (.ahead (d.size + jumpSize)) ++ d) := by
      simp only [Code.forever, back, body, size_append, List.append_assoc]
      rfl
    have hhere : here.run w = .ok (w.out.length, w) := rfl
    rw [bind_run hhere, bind_run (hm.run w hw), bind_run (jump_run leave _), Writer.grow_grow,
      Writer.length_grow, bind_run (hn.run _ (hw.grow _)), Writer.grow_grow, Option.or_none,
      bind_run hback, Writer.grow_grow, Option.or_none, ← hcode]
    change (patch _).run (w.grow (body .exit ++ back) _) = _
    rw [hopen]
    exact hexit

/-! ## Frames -/

/-- One frame around what is written inside it. -/
private theorem frame_writes {m : Writing Unit} (o : Opcode) (label : String) (h : Writes m c f) :
    Writes (do
      text o label
      let slot ← reserve
      m
      patch slot
      op .popLabel) (Code.framed o [label] c) f where
  closed := by
    have hframe : Closed [⟨o, [.text (utf8Bytes label), .address (.ahead c.size)]⟩] := rfl
    exact (hframe.append h.closed).append (op_writes .popLabel).closed
  run w hw := by
    have hreserve := reserve_run (f := none) o [.text (utf8Bytes label)] (fun _ _ _ => rfl) w
    have hpatch := patch_run hw (w.fault.or f) [] o [.text (utf8Bytes label)] [] c
    rw [bind_run ((text_writes o label).run w hw)]
    refine (bind_run hreserve).trans ?_
    rw [bind_run (h.run _ (hw.grow _)), Writer.grow_grow]
    refine (bind_run hpatch).trans ?_
    let frame : Code := ⟨o, [.text (utf8Bytes label), .address (.ahead c.size)]⟩ :: c
    have hpop := (op_writes .popLabel).run (w.grow frame f) (hw.grow _)
    rw [Writer.grow_grow, Option.or_none] at hpop
    exact hpop

/-- One frame for each label. The slots of all of them lead to the same place, and they
are patched one after the other when the body is written. -/
private theorem labelled_writes {m : Writing Unit} (o : Opcode) (labels : List String)
    (h : Writes m c f) :
    Writes (do
      let slots ← openLabels o labels
      m
      closeFrames slots) (framed o labels c) f := by
  induction labels with
  | nil =>
    have hnone := h.ending (.pure ())
    rwa [List.append_nil] at hnone
  | cons label rest ih =>
    have hframe : Writes _ (framed o (label :: rest) c) f := frame_writes o label ih
    simpa only [openLabels, closeFrames, List.reverse_cons, List.forM_eq_forM, List.forM_append,
      List.forM_cons, List.forM_nil, bind_assoc, pure_bind, bind_pure_unit] using hframe

/-- What is written inside the frames of a statement. -/
theorem Answers.framed {m : Writing Unit} (o : Opcode) (labels : List String) (unlabelled : Bool)
    (h : Writes m c f) :
    Writes (do
      let slots ← openFrames o labels unlabelled
      m
      closeFrames slots) (framed o (if unlabelled then labels ++ [""] else labels) c) f :=
  labelled_writes o _ h

/-! ## Functions -/

/-- The body of a function, which is passed over, and what makes the function
object; the address of the body comes last. -/
theorem Answers.enclosed {m n : Writing Unit} (hm : Writes m c f) (hn : Writes n d g) :
    Writes (do
      let skip ← jump .jump
      let start ← here
      m
      patch skip
      n
      jumpTo .setAddress start) (enclosed c d) (f.or g) where
  closed :=
    ((hm.closed.bypassed .jump).append hn.closed).append
      (closed_branch .setAddress Reach.noConfusion)
  run w hw := by
    have hhere (w : Writer) : here.run w = .ok (w.out.length, w) := rfl
    have hskip : (patch ((w.out.length + 2 : Nat) : Int)).run (w.grow (branch .jump .exit ++ c) f) =
        .ok ((), w.grow (Code.bypassed .jump c) f) :=
      patch_run hw _ [] .jump [] [] c
    have hlength : (w.grow (Code.bypassed .jump c ++ d) (f.or g)).out.length =
        (w.grow (branch .jump .exit) none).out.length + (c.size + d.size) := by
      rw [Writer.length_grow, Writer.length_grow, Code.bypassed, size_append, size_append,
        Nat.add_assoc, Nat.add_assoc]
      rfl
    rw [bind_run (jump_run .jump w), bind_run (hhere _), bind_run (hm.run _ (hw.grow _)),
      Writer.grow_grow, Option.none_or, bind_run hskip, bind_run (hn.run _ (hw.grow _)),
      Writer.grow_grow, jumpTo_run .setAddress hlength, Writer.grow_grow, Option.or_none]
    rfl

/-! ## Chains -/

/-- The open slots of operands that start at an offset. -/
private def openSlots (offset : Nat) (os : List (Operand Reach)) : List Int :=
  ((Instr.slots offset os).filter fun s => !s.2).map fun s => (s.1 : Int)

/-- The open slots of an instruction come before those of what follows it. -/
private theorem exits_cons (start : Nat) (i : Instr Reach) (c : Code) :
    Code.exits start (i :: c) = openSlots (start + 2) i.operands ++ c.exits (start + i.size) := by
  rw [exits, slots, List.filter_append, List.map_append]
  rfl

/-- The open slots of one instruction are patched, the first of them first. -/
private theorem close_run {b : CodeBuffer} (hb : b.Inside) (fault : Option WriteReport) (o : Opcode)
    (xs os : List (Operand Reach)) (c : Code) :
    ((openSlots (b.length + 2 + Instr.widths xs) os).forM patch).run ⟨b.grow (⟨o, xs ++ os⟩ :: c),
      fault⟩ =
      .ok ((), ⟨b.grow (⟨o, xs ++ os.map (Operand.map (Reach.close fun _ => c.size))⟩ :: c),
        fault⟩) := by
  induction os generalizing xs with
  | nil => rfl
  -- By induction on the operands: an open one is patched where it lies, and the others start
  -- behind it.
  | cons x os ih =>
    let x' := x.map (Reach.close fun _ => c.size)
    have hrest := ih (xs ++ [x'])
    have hoffset : b.length + 2 + Instr.widths (xs ++ [x']) =
        b.length + 2 + Instr.widths xs + x.width := by
      rw [Instr.widths_append, ← Nat.add_assoc]
      exact congrArg _ (Operand.width_map _ x)
    rw [hoffset, List.append_assoc, List.append_assoc] at hrest
    by_cases hx : x = .address .exit
    · subst hx
      exact (bind_run (patch_run hb fault [] o xs os c)).trans hrest
    · have hsame : x' = x := by
        cases x with
        | address r =>
          cases r with
          | exit => exact absurd rfl hx
          | absent | ahead | back => rfl
        | integer | number | text => rfl
      have hnone : openSlots (b.length + 2 + Instr.widths xs) (x :: os) =
          openSlots (b.length + 2 + Instr.widths xs + x.width) os := by
        cases x with
        | address r =>
          cases r with
          | exit => exact absurd rfl hx
          | absent | ahead | back => rfl
        | integer | number | text => rfl
      have hmap : xs ++ (x :: os).map (Operand.map (Reach.close fun _ => c.size)) =
          xs ++ ([x'] ++ os.map (Operand.map (Reach.close fun _ => c.size))) := rfl
      rw [hnone, hmap, hsame]
      rw [hsame] at hrest
      exact hrest

/-- Once all open slots of a fragment are patched, it is sealed. -/
private theorem seal_run {b : CodeBuffer} (hb : b.Inside) (fault : Option WriteReport) (c : Code) :
    ((c.exits b.length).forM patch).run ⟨b.grow c, fault⟩ = .ok ((), ⟨b.grow c.sealed, fault⟩) := by
  induction c generalizing b with
  | nil => rfl
  | cons i rest ih =>
    let i' := i.map (Reach.close fun _ => size rest)
    have hfirst : ((openSlots (b.length + 2) i.operands).forM patch).run ⟨b.grow (i :: rest),
        fault⟩ =
        .ok ((), ⟨b.grow (i' :: rest), fault⟩) := close_run hb fault i.op [] i.operands rest
    have hlength : (b.grow [i']).length = b.length + i.size := by
      rw [CodeBuffer.length_grow, size_cons, Instr.size_map]
      rfl
    have hrest := ih (hb.grow [i'])
    rw [hlength, CodeBuffer.grow_grow, CodeBuffer.grow_grow] at hrest
    rw [exits_cons, List.forM_eq_forM, List.forM_append]
    exact (bind_run hfirst).trans hrest

/-- A chain is closed by patching all the slots it has collected to the offset behind it. -/
theorem Prolongs.writes {link : Link} (h : Prolongs link c f) : Writes (chain link) c.sealed f where
  closed := c.closed_sealed
  run w hw := by
    rw [chain, bind_run (h [] w hw)]
    exact seal_run hw _ c

namespace Prolongs

variable {link link' : Link} {m : Writing Unit}

/-- A link that writes nothing hands the slots on. -/
theorem stay : Prolongs (fun jumps => return jumps) [] none := by
  intro jumps w _
  rw [Writer.grow_nil]
  exact congrArg (fun all => Except.ok (all, w)) (List.append_nil jumps).symm

/-- Two links, the second of which gets the slots of the first. -/
theorem next (h : Prolongs link c f) (hnext : Prolongs link' d g) :
    Prolongs (fun jumps => do
      let jumps ← link jumps
      link' jumps) (c ++ d) (f.or g) := by
  intro jumps w hw
  rw [bind_run (h jumps w hw), hnext _ _ (hw.grow c), Writer.grow_grow, Writer.length_grow,
    exits_append, List.append_assoc]

/-- Code that leaves no slot open may stand before a link. -/
theorem after (hm : Writes m c f) (hnext : Prolongs link' d g) :
    Prolongs (fun jumps => do
      m
      link' jumps) (c ++ d) (f.or g) := by
  intro jumps w hw
  rw [bind_run (hm.run w hw), hnext _ _ (hw.grow c), Writer.grow_grow, Writer.length_grow,
    exits_append, hm.closed.exits, List.nil_append]

/-- Code that leaves no slot open is a link by itself. -/
theorem of_writes (hm : Writes m c f) :
    Prolongs (fun jumps => do
      m
      return jumps) c f := by
  intro jumps w hw
  rw [bind_run (hm.run w hw), hm.closed.exits, List.append_nil]
  rfl

end Prolongs

end EcmaStack

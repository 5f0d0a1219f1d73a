import EcmaStack.Lowering.Program
import EcmaStack.Proofs.Emission.Resolved
import EcmaStack.Proofs.Grammar.Statements
import EcmaStack.Proofs.Lowering.Sound
import EcmaStack.Proofs.Machine.Consistent

/-!
# The code of programs

A program that is read has no jump without a target, so its code leaves the machine as it found
it up to the last instruction, which halts. What is written for it is therefore consistent
(`write_consistent`).
-/

namespace EcmaStack

open Code

/-- The fragment is a whole program: it leaves the machine as it found it and then halts. -/
def Code.Halts (code : Code) : Prop :=
  ∃ c, code = c ++ op .halt ∧ Moves c 0 0

/-- The code of a program halts at its end with an empty stack, by what holds of its
statements. -/
theorem Program.lower_lowers {p : Program} (h : ∀ b ∈ p.body, b.Resolved .none) {s : CodeSite}
    (hs : s.Sound) :
    Lowers Halts (p.lower s) := by
  have hsound : ∀ b ∈ p.body, b.Sound .none := fun b hb => (h b hb).sound
  have hdirectives : Moves (p.directives.flatMap Directive.lower) 0 0 :=
    .flatMap fun _ _ => moves_of_height? rfl
  refine (openScope_lowers p.scope (Stmt.hoistedList_sound hs hsound)).bind fun opening hopening =>
    ?_
  refine (Stmt.lowerList_lowers hs hsound).bind fun body hbody => .ok ⟨_, rfl, fun σ => ?_⟩
  exact ((hopening.append hdirectives).append hbody.moves σ).append .popScope

/-- Where the code of a whole program is lowered. -/
def CodeSite.ofFile (file : SourceFile) (omitSource : Bool) : CodeSite :=
  { file, lineStarts := file.lineStarts, omitSource }

/-- Where the code of a whole program is written. -/
def WriteSite.ofFile (file : SourceFile) (omitSource : Bool) : WriteSite :=
  { file, lineStarts := file.lineStarts, omitSource }

/-- Nothing has been written for a file. -/
def Writer.ofFile (file : SourceFile) : Writer :=
  { out := { name := file.name } }

/-- Where a program starts there is no class around it, hence nothing to initialize. -/
theorem CodeSite.ofFile_sound (file : SourceFile) (omitSource : Bool) :
    (CodeSite.ofFile file omitSource).Sound :=
  fun _ hfields => nomatch hfields

/-- The writer starts at the same site as the lowering. -/
theorem WriteSite.ofFile_agrees (file : SourceFile) (omitSource : Bool) :
    (WriteSite.ofFile file omitSource).Agrees (.ofFile file omitSource) where
  code := rfl
  fields := .none

/-- What is written for a program is what it is lowered to. -/
theorem Program.emit_emits {p : Program} (h : ∀ b ∈ p.body, b.Resolved .none) {E : WriteSite}
    {s : CodeSite} (hs : E.Agrees s) : Emits (p.lower s) (p.emit E) := by
  have hwritten : ∀ b ∈ p.body, b.Written := fun b hb => (h b hb).written
  obtain ⟨c, f, hm, hl⟩ := (Stmt.hoistedWriters_agree hs hwritten).prologue_emits p.scope
  obtain ⟨d, g, hm', hl'⟩ := Stmt.writeList_emits hs hwritten
  have hdirectives :=
    put_writes (Code.isStraight_flatMap Directive.lower (fun _ => rfl) p.directives)
  have hend := (op_writes .popScope).ending (op_writes .halt)
  refine ⟨_, _, ?_, hl.bind (hl'.map _)⟩
  simpa only [Program.emit, List.append_assoc] using hm.seq (hdirectives.before (hm'.ending hend))

section

variable {file : SourceFile} {module omitSource : Bool} {compiler : PatternCompiler} {p : Program}
    {b : CodeBuffer} {code : Code}

/-- Writing a program that was read never comes to a patch that is refused, and leaves no slot
open, whether the program is reported or not. -/
theorem Program.emit_run (hparse : parseFile file module compiler = .ok p) (omitSource : Bool) :
    ∃ c f, LowersTo (p.lower (.ofFile file omitSource)) c f ∧
    Writes (p.emit (.ofFile file omitSource)) c f ∧
      (p.emit (.ofFile file omitSource)).run (.ofFile file) =
        .ok ((), (Writer.ofFile file).grow c f) ∧
      ((Writer.ofFile file).grow c f).out.unpatched = [] := by
  obtain ⟨c, f, hm, hl⟩ :=
    Program.emit_emits (parseFile_resolved hparse) (WriteSite.ofFile_agrees file omitSource)
  have hnew : (Writer.ofFile file).out.Inside := nofun
  exact ⟨c, f, hl, hm, hm.run _ hnew, CodeBuffer.unpatched_grow hm.closed _⟩

/-- The buffer of a program, once its code is known. -/
def CodeBuffer.ofCode (name : String) (code : Code) : CodeBuffer :=
  { name, code := (code.resolve 0).flatMap Instr.encode, slots := code.slots 0 }

/-- Code that leaves nothing open fills an empty buffer with its resolved bytes. -/
theorem CodeBuffer.grow_ofFile (h : code.Closed) (file : SourceFile) :
    (Writer.ofFile file).out.grow code = .ofCode file.name code := by
  change (⟨file.name, code.bytes 0, code.slots 0⟩ : CodeBuffer) = _
  rw [h.bytes]
  rfl

/-- No slot of it is still waiting, -/
theorem CodeBuffer.unpatched_ofCode (h : code.Closed) (file : SourceFile) :
    (CodeBuffer.ofCode file.name code).unpatched = [] := by
  rw [← CodeBuffer.grow_ofFile h]
  exact CodeBuffer.unpatched_grow h _

/-- so the writer is done without a fault of its own. -/
theorem Writer.finish_grow (h : code.Closed) (file : SourceFile) :
    ((Writer.ofFile file).grow code none).finish file = .ok (.ofCode file.name code) := by
  have hclosed := CodeBuffer.unpatched_ofCode h file
  have hbytes : (CodeBuffer.ofCode file.name code).bytes =
      .ok (CodeBuffer.ofCode file.name code).code := by
    rw [CodeBuffer.bytes, hclosed]
  change Writer.finish ⟨(Writer.ofFile file).out.grow code, none⟩ file = _
  rw [CodeBuffer.grow_ofFile h, finish, hbytes]

/-- Code is written for a program that was read if it is lowered to code, and then that is
written. -/
theorem Program.write_of_lower (hparse : parseFile file module compiler = .ok p)
    (h : p.lower (.ofFile file omitSource) = .ok code) :
    Writes (p.emit (.ofFile file omitSource)) code none ∧ p.write file omitSource =
      .ok (.ofCode file.name code) := by
  obtain ⟨c, f, hl, hm, hrun, -⟩ := Program.emit_run hparse omitSource
  obtain ⟨rfl, rfl⟩ := hl.of_ok h
  refine ⟨hm, ?_⟩
  rw [← Writer.finish_grow hm.closed]
  unfold Program.write
  unfold WriteSite.ofFile Writer.ofFile at hrun
  rw [hrun]
  rfl

/-- A program that was read is reported where its lowering stops. -/
theorem Program.write_of_refused (hparse : parseFile file module compiler = .ok p)
    {fault : WriteFault} (h : p.lower (.ofFile file omitSource) = .error fault) :
    ∃ r : WriteReport, fault = r.fault ∧
      p.write file omitSource = .error (.fault (file.position r.offset) r.cause) := by
  obtain ⟨c, f, hl, hm, hrun, -⟩ := Program.emit_run hparse omitSource
  obtain ⟨r, rfl, rfl⟩ := hl.of_error h
  refine ⟨r, rfl, ?_⟩
  unfold Program.write
  unfold WriteSite.ofFile Writer.ofFile at hrun
  rw [hrun]
  rfl

/-- A program that was read is never refused for a slot. -/
theorem Program.write_ne_patch (hparse : parseFile file module compiler = .ok p)
    (slot : SlotFault) :
    p.write file omitSource ≠ .error (.patch slot) := by
  intro h
  cases hcode : p.lower (.ofFile file omitSource) with
  | ok code => cases h.symm.trans (Program.write_of_lower hparse hcode).2
  | error fault =>
    obtain ⟨r, -, hwrite⟩ := Program.write_of_refused hparse hcode
    cases h.symm.trans hwrite

/-- What is written for a program is the code it is lowered to. -/
theorem Program.code_of_write (hparse : parseFile file module compiler = .ok p)
    (h : p.write file omitSource = .ok b) :
    ∃ code, p.lower (.ofFile file omitSource) = .ok code ∧
    Writes (p.emit (.ofFile file omitSource)) code none ∧
      b = .ofCode file.name code := by
  cases hcode : p.lower (.ofFile file omitSource) with
  | ok code =>
    obtain ⟨hm, hwrite⟩ := Program.write_of_lower hparse hcode
    exact ⟨code, rfl, hm, Except.ok.inj (h.symm.trans hwrite)⟩
  | error fault =>
    obtain ⟨r, -, hwrite⟩ := Program.write_of_refused hparse hcode
    cases h.symm.trans hwrite

/-- A source that compiles is read, and code is written for it. -/
theorem write_of_compile (h : compile file module omitSource compiler = .ok b) :
    ∃ p, parseFile file module compiler = .ok p ∧ p.write file omitSource = .ok b := by
  unfold compile at h
  cases hparse : parseFile file module compiler with
  | error e =>
    rw [hparse] at h
    cases h
  | ok p =>
    rw [hparse] at h
    change (p.write file omitSource).mapError CompileError.write = .ok b at h
    cases hwrite : p.write file omitSource with
    | error e =>
      rw [hwrite] at h
      cases h
    | ok b' =>
      rw [hwrite] at h
      cases h
      exact ⟨p, rfl, hwrite⟩

/-- The code of a program that was read is consistent. -/
theorem lower_consistent (hparse : parseFile file module compiler = .ok p)
    (hcode : p.lower (.ofFile file omitSource) = .ok code) :
    ∃ shape, Consistent (code.settled 0) shape := by
  have hlowers :=
    Program.lower_lowers (parseFile_resolved hparse) (CodeSite.ofFile_sound file omitSource)
  rw [hcode] at hlowers
  cases hlowers with
  | ok h =>
    obtain ⟨c, rfl, hc⟩ := h
    exact consistent_of_carries (hc {} id ∅ 0 (Set.Subset.refl ∅))

/-- The code that is written for a program that was read assigns one shape of the machine to
every instruction, with which each instruction can run and all ways through the program agree.
-/
theorem write_consistent (hparse : parseFile file module compiler = .ok p)
    (hwrite : p.write file omitSource = .ok b) :
    ∃ code, p.lower (.ofFile file omitSource) = .ok code ∧ b.code =
      (code.settled 0).flatMap Settled.encode ∧
      ∃ shape, Consistent (code.settled 0) shape := by
  obtain ⟨code, hcode, -, rfl⟩ := Program.code_of_write hparse hwrite
  exact ⟨code, hcode, encode_resolve code 0, lower_consistent hparse hcode⟩

/-- A loop that is left and carried on from inside. -/
def labelledLoop : SourceFile :=
  .ofString "loop.js" "x: while (a) { if (b) continue x; break; }"

theorem write_consistent_labelledLoop :
    ∃ p b, parseFile labelledLoop false = .ok p ∧ p.write labelledLoop false = .ok b ∧
      ∃ code, p.lower (.ofFile labelledLoop false) = .ok code ∧ b.code =
        (code.settled 0).flatMap Settled.encode ∧
        ∃ shape, Consistent (code.settled 0) shape := by
  have hcompiles : (compile labelledLoop false false).toBool = true := by decide +kernel
  cases hcompile : compile labelledLoop false false with
  | error e =>
    rw [hcompile] at hcompiles
    cases hcompiles
  | ok b =>
    obtain ⟨p, hparse, hwrite⟩ := write_of_compile hcompile
    exact ⟨p, b, hparse, hwrite, write_consistent hparse hwrite⟩

/-- Every address of a stream is the offset of one of its instructions, except for the zero of a
handler or a finalizer that is not there. -/
def AddressesLand (stream : List Located) : Prop :=
  ∀ l ∈ stream, ∀ a, .address a ∈ l.instr.operands →
    (∃ next ∈ stream, a = UInt64.ofNat next.offset) ∨ (l.instr.op = .tryBegin ∧ a = 0)

/-- In consistent code every address is where an instruction starts, or the end. -/
theorem addressesLand_of_consistent {shape : Nat → StackShape}
    (h : Consistent (code.settled 0) shape) :
    AddressesLand (locate 0 (code.resolve 0)) := by
  rw [locate_resolve]
  intro l hl a ha
  obtain ⟨s, hs, rfl⟩ := List.mem_map.mp hl
  obtain ⟨o, ho, ha⟩ := List.mem_map.mp ha
  cases o with
  | address n =>
    cases ha
    rcases h.address hs ho with ⟨next, hnext, rfl⟩ | ⟨hop, rfl⟩
    · exact Or.inl ⟨next.located, List.mem_map_of_mem hnext, rfl⟩
    · exact Or.inr ⟨hop, rfl⟩
  | integer n => cases ha
  | number x => cases ha
  | text bytes => cases ha

/-- Consistent code with short texts reads back from its bytes. -/
theorem decode_of_consistent {shape : Nat → StackShape} (h : Consistent (code.settled 0) shape)
    (hshort : ∀ i ∈ code, i.Short) :
    decode ((code.resolve 0).flatMap Instr.encode) = ⟨locate 0 (code.resolve 0), none⟩ := by
  refine decode_encode (fun i hi => ?_) fun i hi => ?_
  · rw [resolve_eq_settled] at hi
    obtain ⟨s, hs, rfl⟩ := List.mem_map.mp hi
    have hkinds := h.wellFormed hs
    change List.map _ (List.map _ _) = _
    rw [List.map_map]
    exact (List.map_congr_left fun o _ => Operand.kind_map _ o).trans hkinds
  · rw [resolve_eq_settled] at hi
    obtain ⟨s, hs, rfl⟩ := List.mem_map.mp hi
    obtain ⟨before, j, after, rfl, rfl⟩ := mem_settled.mp hs
    exact ((hshort j (List.mem_append_right before List.mem_cons_self)).map _).map _

/-- Writing a program that was read patches every slot that it reserves, and none of them twice,
also where the program is reported in the end. If there is code, it decodes into exactly the
instructions that were written, whose addresses lead to instructions. -/
theorem write_decodes (hparse : parseFile file module compiler = .ok p)
    (hshort : ∀ code, p.lower (.ofFile file omitSource) = .ok code → ∀ i ∈ code, i.Short) :
    (∃ w, (p.emit (.ofFile file omitSource)).run (.ofFile file) = .ok ((), w) ∧
      w.out.unpatched = []) ∧
    (∀ slot, p.write file omitSource ≠ .error (.patch slot)) ∧
    ∀ b, p.write file omitSource = .ok b → ∃ code, p.lower (.ofFile file omitSource) = .ok code ∧
      Writes (p.emit (.ofFile file omitSource)) code none ∧ b = (Writer.ofFile file).out.grow code ∧
      b.unpatched = [] ∧ b.bytes = .ok b.code ∧
      decode b.code = ⟨locate 0 (code.resolve 0), none⟩ ∧
      AddressesLand (locate 0 (code.resolve 0)) := by
  obtain ⟨c, f, -, -, hrun, hunpatched⟩ := Program.emit_run hparse omitSource
  refine ⟨⟨_, hrun, hunpatched⟩, Program.write_ne_patch hparse, fun b hwrite => ?_⟩
  obtain ⟨code, hcode, hm, rfl⟩ := Program.code_of_write hparse hwrite
  obtain ⟨shape, hshape⟩ := lower_consistent hparse hcode
  have hclosed := CodeBuffer.unpatched_ofCode hm.closed file
  refine ⟨code, hcode, hm, (CodeBuffer.grow_ofFile hm.closed file).symm, hclosed, ?_,
    decode_of_consistent hshape (hshort code hcode),
    addressesLand_of_consistent hshape⟩
  rw [CodeBuffer.bytes, hclosed]

end

theorem write_decodes_labelledLoop :
    ∃ p, parseFile labelledLoop false = .ok p ∧
      (∀ code, p.lower (.ofFile labelledLoop false) = .ok code → ∀ i ∈ code, i.Short) ∧
      (∃ w, (p.emit (.ofFile labelledLoop false)).run (.ofFile labelledLoop) = .ok ((), w) ∧
        w.out.unpatched = []) ∧
      ∃ b, p.write labelledLoop false = .ok b ∧ b.slots.length = 7 ∧ (decode b.code).fault =
        none := by
  have hcheck : ((parseFile labelledLoop false).toOption.bind fun p =>
      (p.lower (.ofFile labelledLoop false)).toOption.map fun code =>
        decide ((∀ i ∈ code, i.Short) ∧ (code.slots 0).length = 7)) = some true := by
    decide +kernel
  cases hparse : parseFile labelledLoop false with
  | error e =>
    rw [hparse] at hcheck
    cases hcheck
  | ok p =>
    rw [hparse] at hcheck
    change (p.lower (.ofFile labelledLoop false)).toOption.map (fun code => decide _) = _ at hcheck
    cases hlower : p.lower (.ofFile labelledLoop false) with
    | error e =>
      rw [hlower] at hcheck
      cases hcheck
    | ok code =>
      rw [hlower] at hcheck
      obtain ⟨hshort, hslots⟩ := of_decide_eq_true (Option.some.inj hcheck)
      have hall : ∀ code', p.lower (.ofFile labelledLoop false) = .ok code' →
          ∀ i ∈ code', i.Short := by
        intro code' hcode'
        cases hlower.symm.trans hcode'
        exact hshort
      obtain ⟨-, hwrite⟩ := Program.write_of_lower hparse hlower
      obtain ⟨hrun, -, hdecodes⟩ := write_decodes hparse hall
      obtain ⟨_, _, _, _, _, _, hdecode, _⟩ := hdecodes _ hwrite
      exact ⟨p, rfl, hall, hrun, _, hwrite, hslots, by rw [hdecode]⟩

end EcmaStack

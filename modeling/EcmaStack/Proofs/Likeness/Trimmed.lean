import EcmaStack.Proofs.Likeness.Laws
import EcmaStack.Proofs.Machine.Jumps

/-!
# Code without source texts

Leaving out the instructions that give functions their source texts moves what stands behind
them, so every address has to follow. A map of offsets **tracks** a fragment when it moves over
every instruction that is kept by as much as that takes, and over none that is left out. A
fragment is **trimmed** to another one when the other has the instructions that are kept, with
reaches that lead to the images of where they led. All of this is relative to a set of places
that no reach may leave, among them the starts of all instructions that are kept.

Every way to put code together keeps the relation (`Likeness.trimming`): reaches lead to the
boundaries of fragments, and no fragment starts with a source text.
-/

namespace EcmaStack

open Code

/-- A map of offsets moves over the instructions that are kept, which start at places. -/
def Code.Tracks (φ : Nat → Nat) (place : Nat → Prop) : Nat → Code → Prop
  | _, [] => True
  | a, i :: rest =>
    (if i.op = .setSource then φ (a + i.size) = φ a else place a ∧ φ (a + i.size) = φ a + i.size) ∧
      Tracks φ place (a + i.size) rest

/-- A reach leads to a place, and the other reach to its image. -/
inductive Reach.Follows (φ : Nat → Nat) (place : Nat → Prop) (start stop : Nat) :
    Reach → Reach → Prop where
  | absent : Follows φ place start stop .absent .absent
  | exit : place stop → Follows φ place start stop .exit .exit
  | ahead {n n' : Nat} : place (stop + n) → φ (stop + n) = φ stop + n' →
    Follows φ place start stop (.ahead n) (.ahead n')
  | back {n n' : Nat} : n ≤ start → place (start - n) → φ start = φ (start - n) + n' →
      Follows φ place start stop (.back n) (.back n')

/-- The same operand, or an address that follows. -/
inductive Operand.Follows (φ : Nat → Nat) (place : Nat → Prop) (start stop : Nat) :
    Operand Reach → Operand Reach → Prop where
  | address {r r' : Reach} : r.Follows φ place start stop r' →
    Follows φ place start stop (.address r) (.address r')
  | same {o : Operand Reach} : o.kind ≠ .address → Follows φ place start stop o o

/-- The instructions of a fragment that are kept, with addresses that follow. -/
inductive Code.TrimmedAt (φ : Nat → Nat) (place : Nat → Prop) : Nat → Code → Code → Prop where
  | nil {a : Nat} : TrimmedAt φ place a [] []
  | source {a : Nat} {i : Instr Reach} {c c' : Code} : i.op = .setSource →
    TrimmedAt φ place (a + i.size) c c' →
      TrimmedAt φ place a (i :: c) c'
  | kept {a : Nat} {i : Instr Reach} {os : List (Operand Reach)} {c c' : Code} : i.op ≠ .setSource →
      List.Forall₂ (Operand.Follows φ place a (a + i.size)) i.operands os →
        TrimmedAt φ place (a + i.size) c c' →
      TrimmedAt φ place a (i :: c) (⟨i.op, os⟩ :: c')

/-- A fragment that starts with no source text is trimmed wherever it stands and its end is a
place. -/
structure Code.Trimmed (c c' : Code) : Prop where
  head : ∀ i ∈ c.head?, i.op ≠ .setSource
  trims : ∀ {φ place a}, c.Tracks φ place a → place (a + c.size) → c.TrimmedAt φ place a c'

variable {φ : Nat → Nat} {place : Nat → Prop} {a : Nat} {c c' d d' : Code}

/-! ## Offsets -/

theorem Operand.Follows.width_eq {start stop : Nat} {o o' : Operand Reach}
    (h : o.Follows φ place start stop o') :
    o'.width = o.width := by
  cases h <;> rfl

/-- Addresses that follow take as many bytes as before. -/
theorem Operand.Follows.size_eq {start stop : Nat} {o : Opcode} {os os' : List (Operand Reach)}
    (h : List.Forall₂ (Operand.Follows φ place start stop) os os') :
    (Instr.mk o os').size = (Instr.mk o os).size := by
  unfold Instr.size
  congr 1
  dsimp only
  induction h with
  | nil => rfl
  | cons ho _ ih => rw [List.foldr_cons, List.foldr_cons, ho.width_eq, ih]

namespace Code

theorem tracks_append :
    (c ++ d).Tracks φ place a ↔ c.Tracks φ place a ∧ d.Tracks φ place (a + c.size) := by
  induction c generalizing a with
  | nil => simp [Tracks]
  | cons i rest ih => simp only [List.cons_append, Tracks, ih, size_cons, Nat.add_assoc, and_assoc]

theorem tracks_singleton {i : Instr Reach} (hi : i.op ≠ .setSource) :
    Tracks φ place a [i] ↔ place a ∧ φ (a + i.size) = φ a + i.size := by
  simp [Tracks, hi]

/-- A fragment that starts with no source text starts at a place, if only at its end. -/
theorem Tracks.place_start (h : c.Tracks φ place a) (hhead : ∀ i ∈ c.head?, i.op ≠ .setSource)
    (hstop : place (a + c.size)) : place a := by
  cases c with
  | nil => exact hstop
  | cons i rest =>
    have hi := hhead i rfl
    rw [Tracks, if_neg hi] at h
    exact h.1.1

namespace TrimmedAt

theorem append (hc : c.TrimmedAt φ place a c') (hd : d.TrimmedAt φ place (a + c.size) d') :
    (c ++ d).TrimmedAt φ place a (c' ++ d') := by
  induction hc with
  | nil => exact hd
  | @source a i _ _ hi _ ih =>
    rw [size_cons, ← Nat.add_assoc] at hd
    exact .source hi (ih hd)
  | @kept a i _ _ _ hi hos _ ih =>
    rw [size_cons, ← Nat.add_assoc] at hd
    exact .kept hi hos (ih hd)

/-- The map moves over a fragment by what is kept of it. -/
theorem map_stop (hc : c.TrimmedAt φ place a c') (h : c.Tracks φ place a) :
    φ (a + c.size) = φ a + c'.size := by
  induction hc with
  | nil => rfl
  | source hi _ ih =>
    rw [Tracks, if_pos hi] at h
    rw [size_cons, ← Nat.add_assoc, ih h.2, h.1]
  | kept hi hos _ ih =>
    rw [Tracks, if_neg hi] at h
    rw [size_cons, ← Nat.add_assoc, ih h.2, h.1.2, size_cons, Operand.Follows.size_eq hos,
      Nat.add_assoc]

/-- A single instruction with one address. -/
theorem branch {o : Opcode} (ho : o ≠ .setSource) {r r' : Reach}
    (h : r.Follows φ place a (a + size (Code.branch o r)) r') :
    (Code.branch o r).TrimmedAt φ place a (Code.branch o r') :=
  .kept ho (.cons (.address h) .nil) .nil

/-- Code without addresses is trimmed to itself. -/
theorem plain (h : c.isPlain = true) : c.TrimmedAt φ place a c := by
  induction c generalizing a with
  | nil => exact .nil
  | cons i rest ih =>
    unfold isPlain at h
    rw [List.all_cons, Bool.and_eq_true, Bool.and_eq_true] at h
    refine .kept (bne_iff_ne.mp h.1.1) (List.forall₂_same.mpr fun o ho => .same ?_) (ih h.2)
    exact bne_iff_ne.mp (List.all_eq_true.mp h.1.2 o ho)

/-- Closing a chain gives what leaves it the end of the fragment to go to. -/
theorem sealed (hc : c.TrimmedAt φ place a c') (h : c.Tracks φ place a)
    (hstop : place (a + c.size)) :
    c.sealed.TrimmedAt φ place a c'.sealed := by
  -- Sealing turns the open exits into jumps to the end, which both codes have.
  induction hc with
  | nil => exact .nil
  | @source a i _ _ hi _ ih =>
    rw [Tracks, if_pos hi] at h
    rw [size_cons, ← Nat.add_assoc] at hstop
    have hrest := ih h.2 hstop
    rw [← Instr.size_map (Reach.close fun _ => size _) i] at hrest
    exact .source hi hrest
  | @kept a i os c c' hi hos hrest ih =>
    rw [Tracks, if_neg hi] at h
    rw [size_cons, ← Nat.add_assoc] at hstop
    have hclosed := ih h.2 hstop
    have hsize := hrest.map_stop h.2
    rw [← Instr.size_map (Reach.close fun _ => size c) i] at hclosed
    refine .kept hi ?_ hclosed
    rw [Instr.size_map]
    refine List.forall₂_map_left_iff.mpr
      (List.forall₂_map_right_iff.mpr (hos.imp fun o o' ho => ?_))
    cases ho with
    | address hr =>
      refine .address ?_
      cases hr with
      | absent => exact .absent
      | exit => exact .ahead hstop hsize
      | ahead hplace hmap => exact .ahead hplace hmap
      | back hle hplace hmap => exact .back hle hplace hmap
    | same ho =>
      cases o with
      | address r => exact absurd rfl ho
      | _ => exact .same ho

end TrimmedAt

theorem tracks_sealed : c.sealed.Tracks φ place a ↔ c.Tracks φ place a := by
  induction c generalizing a with
  | nil => exact Iff.rfl
  | cons i rest ih => simp only [sealed, Tracks, Instr.size_map, ih]; rfl

/-! ## Fragments -/

namespace Trimmed

theorem plain (h : c.isPlain = true) : c.Trimmed c where
  head i hi := by
    cases c with
    | nil => cases hi
    | cons j rest =>
      cases hi
      unfold isPlain at h
      rw [List.all_cons, Bool.and_eq_true, Bool.and_eq_true] at h
      exact bne_iff_ne.mp h.1.1
  trims _ _ := .plain h

theorem append (hc : c.Trimmed c') (hd : d.Trimmed d') : (c ++ d).Trimmed (c' ++ d') where
  head i hi := by
    cases c with
    | nil => exact hd.head i hi
    | cons j rest => exact hc.head i hi
  trims {φ place a} h hstop := by
    obtain ⟨hfirst, hsecond⟩ := tracks_append.mp h
    rw [size_append, ← Nat.add_assoc] at hstop
    have hmiddle := hsecond.place_start hd.head hstop
    exact (hc.trims hfirst hmiddle).append (hd.trims hsecond hstop)

theorem sealed (hc : c.Trimmed c') : c.sealed.Trimmed c'.sealed where
  head i hi := by
    cases c with
    | nil => cases hi
    | cons j rest =>
      cases hi
      exact hc.head j rfl
  trims h hstop := by
    rw [size_sealed] at hstop
    exact (hc.trims (tracks_sealed.mp h) hstop).sealed (tracks_sealed.mp h) hstop

theorem leave {o : Opcode} (ho : o ≠ .setSource) : (branch o .exit).Trimmed (branch o .exit) where
  head i hi := by cases hi; exact ho
  trims _ hstop := .branch ho (.exit hstop)

end Trimmed

variable {b b' : Code} {o : Opcode}

theorem tracks_branch (ho : o ≠ .setSource) {r : Reach} :
    (branch o r).Tracks φ place a ↔ place a ∧ φ (a + jumpSize) = φ a + jumpSize :=
  tracks_singleton ho

/-- A jump over a fragment leads to its end. -/
theorem TrimmedAt.bypassed (ho : o ≠ .setSource) (hc : c.TrimmedAt φ place (a + jumpSize) c')
    (h : c.Tracks φ place (a + jumpSize)) (hstop : place (a + jumpSize + c.size)) :
    (bypassed o c).TrimmedAt φ place a (bypassed o c') :=
  (TrimmedAt.branch ho (.ahead hstop (hc.map_stop h))).append hc

/-- A jump back leads to the start of the fragment. -/
theorem TrimmedAt.forever (hc : c.TrimmedAt φ place a c') (h : c.Tracks φ place a)
    (hstart : place a) :
    (forever c).TrimmedAt φ place a (forever c') := by
  have hback : a + c.size - c.size = a := Nat.add_sub_cancel a c.size
  refine hc.append (.branch Opcode.noConfusion (.back (Nat.le_add_left _ _) ?_ ?_))
  · rw [hback]
    exact hstart
  · rw [hback]
    exact hc.map_stop h

namespace Trimmed

theorem bypassed (ho : o ≠ .setSource) (hc : c.Trimmed c') :
    (bypassed o c).Trimmed (bypassed o c') where
  head i hi := by cases hi; exact ho
  trims {φ place a} h hstop := by
    have hc' := (tracks_append.mp h).2
    have hstop : place (a + jumpSize + c.size) := by rwa [Nat.add_assoc]
    exact .bypassed ho (hc.trims hc' hstop) hc' hstop

/-- A fragment that a jump passes over and that goes on behind the next fragment. -/
theorem either (ho : o ≠ .setSource) (hc : c.Trimmed c') (hd : d.Trimmed d') :
    (Code.bypassed o (c ++ branch .jump (.ahead d.size)) ++ d).Trimmed
      (Code.bypassed o (c' ++ branch .jump (.ahead d'.size)) ++ d') where
  head i hi := by cases hi; exact ho
  trims {φ place a} h hstop := by
    obtain ⟨hfirst, htd⟩ := tracks_append.mp h
    have htbody := (tracks_append.mp hfirst).2
    obtain ⟨htc, htjump⟩ := tracks_append.mp htbody
    rw [size_append, ← Nat.add_assoc] at hstop
    have hmiddle := htd.place_start hd.head hstop
    have htrim := hd.trims htd hstop
    have hsize : a + size (Code.bypassed o (c ++ branch .jump (.ahead d.size))) =
        a + jumpSize + c.size + jumpSize := by
      simp only [Code.bypassed, size_append, size_branch]
      omega
    rw [hsize] at hmiddle htrim hstop htd
    have hjump : (branch .jump (.ahead d.size)).TrimmedAt φ place (a + jumpSize + c.size)
        (branch .jump (.ahead d'.size)) :=
      .branch Opcode.noConfusion (.ahead hstop (htrim.map_stop htd))
    have hbody := (hc.trims htc ((tracks_branch Opcode.noConfusion).mp htjump).1).append hjump
    have hend : a + jumpSize + size (c ++ branch .jump (.ahead d.size)) =
        a + jumpSize + c.size + jumpSize := by
      rw [size_append, size_branch, Nat.add_assoc _ c.size]
    refine (TrimmedAt.bypassed ho hbody htbody (hend ▸ hmiddle)).append ?_
    rw [hsize]
    exact htrim

theorem forever (hc : c.Trimmed c') : (forever c).Trimmed (forever c') where
  head i hi := by
    cases c with
    | nil => cases hi; exact Opcode.noConfusion
    | cons j rest => exact hc.head i hi
  trims {φ place a} h hstop := by
    obtain ⟨htc, htjump⟩ := tracks_append.mp h
    have hmiddle := ((tracks_branch Opcode.noConfusion).mp htjump).1
    exact .forever (hc.trims htc hmiddle) htc (htc.place_start hc.head hmiddle)

/-- A loop: its test leads behind it, and its end back to its start. -/
theorem repeated (ho : o ≠ .setSource) (hc : c.Trimmed c') (hd : d.Trimmed d') :
    (repeated c o d).Trimmed (repeated c' o d') := by
  have hrest : (op .pop ++ d).Trimmed (op .pop ++ d') := append (plain rfl) hd
  unfold Code.repeated
  generalize op .pop ++ d = e, op .pop ++ d' = e' at hrest
  refine ⟨fun i hi => ?_, fun {φ place a} h hstop => ?_⟩
  · cases c with
    | nil => cases hi; exact ho
    | cons j _ => exact hc.head i hi
  · obtain ⟨hturn, htback⟩ := tracks_append.mp h
    obtain ⟨htest, hte⟩ := tracks_append.mp hturn
    obtain ⟨htc, htleave⟩ := tracks_append.mp htest
    obtain ⟨hback, hmapBack⟩ := (tracks_branch Opcode.noConfusion).mp htback
    have hleave := ((tracks_branch ho).mp htleave).1
    simp only [Code.forever, size_append, size_branch, ← Nat.add_assoc] at hback hmapBack hstop hte
    have hc' := hc.trims htc hleave
    have he' := hrest.trims hte hback
    have hmap := he'.map_stop hte
    have hjump : (branch o (.ahead (e.size + jumpSize))).TrimmedAt φ place (a + c.size)
        (branch o (.ahead (e'.size + jumpSize))) := by
      refine .branch ho (.ahead ?_ ?_) <;> rw [size_branch, ← Nat.add_assoc]
      · exact hstop
      · omega
    refine .forever ((hc'.append hjump).append ?_) hturn (htc.place_start hc.head hleave)
    rw [size_append, size_branch, ← Nat.add_assoc]
    exact he'

/-- Frames for labels lead to the instructions that close them. -/
theorem framed (ho : o ≠ .setSource) (labels : List String) (hc : c.Trimmed c') :
    (framed o labels c).Trimmed (framed o labels c') := by
  induction labels with
  | nil => exact hc
  | cons label rest ih =>
    unfold Code.framed
    generalize Code.framed o rest c = e, Code.framed o rest c' = e' at ih
    refine ⟨fun i hi => by cases hi; exact ho, fun {φ place a} h hstop => ?_⟩
    obtain ⟨hinside, htclose⟩ := tracks_append.mp h
    obtain ⟨-, hte⟩ := tracks_append.mp hinside
    have hclose := ((tracks_singleton Opcode.noConfusion).mp htclose).1
    rw [size_append, ← Nat.add_assoc] at hclose
    have he' := ih.trims hte hclose
    have hopen : Code.TrimmedAt φ place a [⟨o, [.text (utf8Bytes label), .address (.ahead e.size)]⟩]
        [⟨o, [.text (utf8Bytes label), .address (.ahead e'.size)]⟩] :=
      .kept ho (.cons (.same OperandKind.noConfusion)
        (.cons (.address (.ahead hclose (he'.map_stop hte))) .nil)) .nil
    exact (hopen.append he').append (.plain rfl)

end Trimmed

/-- The body of a function is passed over, and the function object gets the address where it
starts. -/
theorem TrimmedAt.enclosed {object : Code} (hobject : object.isPlain = true) (hc : c.Trimmed c')
    (h : (enclosed c object).Tracks φ place a) :
    (enclosed c object).TrimmedAt φ place a (enclosed c' object) := by
  obtain ⟨hfirst, htback⟩ := tracks_append.mp h
  obtain ⟨hskip, htobject⟩ := tracks_append.mp hfirst
  have htc := (tracks_append.mp hskip).2
  have hback := ((tracks_branch Opcode.noConfusion).mp htback).1
  have hskipSize : size (Code.bypassed .jump c) = jumpSize + c.size := size_append _ _
  simp only [size_append, hskipSize, ← Nat.add_assoc] at hback htobject
  have hobjectTrimmed : object.Trimmed object := .plain hobject
  have hmiddle := htobject.place_start hobjectTrimmed.head hback
  have hc' := hc.trims htc hmiddle
  have hstart := htc.place_start hc.head hmiddle
  have hmap := hc'.map_stop htc
  have hmapObject := (TrimmedAt.plain hobject).map_stop htobject
  refine ((TrimmedAt.bypassed Opcode.noConfusion hc' htc hmiddle).append (.plain hobject)).append ?_
  refine .branch Opcode.noConfusion ?_
  simp only [size_append, hskipSize, ← Nat.add_assoc]
  have hplace : a + jumpSize + c.size + object.size - (c.size + object.size) = a + jumpSize :=
    by omega
  refine .back (by omega) ?_ ?_ <;> rw [hplace]
  · exact hstart
  · change φ (a + jumpSize + c.size) = φ (a + jumpSize) + c'.size at hmap
    omega

namespace Trimmed

theorem enclosed {object : Code} (hobject : object.isPlain = true) (hc : c.Trimmed c') :
    (enclosed c object).Trimmed (enclosed c' object) where
  head i hi := by cases hi; exact Opcode.noConfusion
  trims h _ := .enclosed hobject hc h

/-- A function object with its source text, and one without. -/
theorem object (ho : o ≠ .setSource) (bytes : List UInt8) (hc : c.Trimmed c') :
    (Code.enclosed c (op o) ++ sourceText false bytes).Trimmed (Code.enclosed c' (op o) ++
      sourceText true bytes) where
  head i hi := by cases hi; exact Opcode.noConfusion
  trims h _ := by
    have hplain : (op o).isPlain = true := by simp [isPlain, op, ho]
    have hfunction := TrimmedAt.enclosed hplain hc (tracks_append.mp h).1
    exact hfunction.append (.source rfl .nil)

end Trimmed

/-! ## Protected blocks -/

theorem TrimmedAt.tryBegin {r r' q q' : Reach} (hr : r.Follows φ place a (a + 18) r')
    (hq : q.Follows φ place a (a + 18) q') :
    Code.TrimmedAt φ place a [⟨.tryBegin, [.address r, .address q]⟩]
    [⟨.tryBegin, [.address r', .address q']⟩] :=
  .kept Opcode.noConfusion (.cons (.address hr) (.cons (.address hq) .nil)) .nil

/-- An address that is there on both sides or on neither. -/
private theorem follows_if {start stop n n' : Nat} {o o' : Option Code}
    (h : Option.Rel Trimmed o o') (hahead : o.isSome = true → place (stop + n) ∧
      φ (stop + n) = φ stop + n') :
    Reach.Follows φ place start stop
      (if o.isSome then .ahead n else .absent) (if o'.isSome then .ahead n' else .absent) := by
  cases h with
  | none => exact .absent
  | some _ => exact .ahead (hahead rfl).1 (hahead rfl).2

namespace Trimmed

/-- A part with more behind it, if it is there. -/
private theorem getD_map {o o' : Option Code} (h : Option.Rel Trimmed o o') {f : Code → Code}
    (hf : ∀ {c c'}, c.Trimmed c' → (f c).Trimmed (f c')) :
    ((o.map f).getD []).Trimmed ((o'.map f).getD []) := by
  cases h with
  | none => exact plain rfl
  | some h => exact hf h

/-- The start of a finalizer that is passed over. -/
private theorem bypassed_start {o o' : Option Code} (h : Option.Rel Trimmed o o')
    (hsome : o.isSome = true)
    (ht : Code.Tracks φ place a ((o.map fun f => Code.bypassed .jump (f ++ op .tryEnd)).getD []))
    (hstop : place (a + size ((o.map fun f => Code.bypassed .jump (f ++ op .tryEnd)).getD []))) :
    place (a + jumpSize) ∧ φ (a + jumpSize) = φ a + jumpSize := by
  cases h with
  | none => cases hsome
  | some h =>
    obtain ⟨htjump, htf⟩ := tracks_append.mp ht
    have hbody := h.append (plain rfl : (op .tryEnd).Trimmed (op .tryEnd))
    refine ⟨htf.place_start hbody.head ?_, ((tracks_branch Opcode.noConfusion).mp htjump).2⟩
    rw [size_branch, Nat.add_assoc]
    exact hstop

theorem guarded {handler handler' finalizer finalizer' : Option Code} (hc : c.Trimmed c')
    (hhandler : Option.Rel Trimmed handler handler')
    (hfinalizer : Option.Rel Trimmed finalizer finalizer') :
    (tryCode c handler finalizer).Trimmed (tryCode c' handler' finalizer') := by
  have hend : (op .tryEnd).Trimmed (op .tryEnd) := plain rfl
  have hcaught := getD_map hhandler fun h => h.append hend
  have hblock := hc.append hend
  have hfinal := getD_map hfinalizer (f := fun f => Code.bypassed .jump (f ++ op .tryEnd))
    fun h => .bypassed Opcode.noConfusion (h.append hend)
  unfold tryCode
  dsimp only
  generalize (handler.map (· ++ op .tryEnd)).getD [] =
    caught, (handler'.map (· ++ op .tryEnd)).getD [] = caught' at hcaught
  generalize c ++ op .tryEnd = block, c' ++ op .tryEnd = block' at hblock
  refine ⟨fun i hi => by cases hi; exact Opcode.noConfusion, fun {φ place a} h hstop => ?_⟩
  -- The places of the two codes are tracked part by part: the block, the jump over the handler,
  -- the handler and the finalizer.
  obtain ⟨hfirst, htfinal⟩ := tracks_append.mp h
  obtain ⟨hprotected, htcaught⟩ := tracks_append.mp hfirst
  obtain ⟨-, htjumped⟩ := tracks_append.mp hprotected
  obtain ⟨htblock, htjump⟩ := tracks_append.mp htjumped
  have hbegin (r r' : Reach) : size [⟨.tryBegin, [.address r, .address r']⟩] = 18 := rfl
  simp only [size_append, size_branch,
    hbegin, ← Nat.add_assoc] at htfinal htcaught htblock htjump hstop
  have hfinalPlace := htfinal.place_start hfinal.head hstop
  have hcaughtPlace := htcaught.place_start hcaught.head hfinalPlace
  have hjumpTracks := (tracks_branch Opcode.noConfusion).mp htjump
  have hblock' := hblock.trims htblock hjumpTracks.1
  have hcaught' := hcaught.trims htcaught hfinalPlace
  have hmapBlock := hblock'.map_stop htblock
  have hmapCaught := hcaught'.map_stop htcaught
  have hjump : (branch .jump (.ahead caught.size)).TrimmedAt φ place (a + 18 + block.size)
      (branch .jump (.ahead caught'.size)) :=
        .branch Opcode.noConfusion (.ahead hfinalPlace hmapCaught)
  -- With each part trimmed, the two entries have to lead to the same parts again.
  refine (((TrimmedAt.tryBegin ?_ ?_).append (hblock'.append hjump)).append ?_).append ?_
  · refine follows_if hhandler fun _ => ?_
    simp only [size_append, size_branch, ← Nat.add_assoc]
    exact ⟨hcaughtPlace, by omega⟩
  · refine follows_if hfinalizer fun hsome => ?_
    simp only [size_append, size_branch, ← Nat.add_assoc]
    obtain ⟨hplace, hmap⟩ := bypassed_start hfinalizer hsome htfinal hstop
    exact ⟨hplace, by omega⟩
  · simp only [size_append, size_branch, hbegin, ← Nat.add_assoc]
    exact hcaught'
  · simp only [size_append, size_branch, hbegin, ← Nat.add_assoc]
    exact hfinal.trims htfinal hstop

end Trimmed

/-! ## Switches -/

/-- Places that a map moves from the start of some code as far as two numbers say. -/
def Aligned (φ : Nat → Nat) (place : Nat → Prop) (start n n' : Nat) : Prop :=
  place (start + n) ∧ φ (start + n) = φ start + n'

private theorem dispatch_head (fallback : Nat) (clauses : List (Option Code × Nat)) :
    ∃ i rest, dispatch fallback clauses = i :: rest ∧ i.op ≠ .setSource := by
  induction clauses with
  | nil => exact ⟨_, _, rfl, Opcode.noConfusion⟩
  | cons clause rest ih =>
    obtain ⟨test, body⟩ := clause
    cases test with
    | none => exact ih
    | some test => exact ⟨_, _, rfl, Opcode.noConfusion⟩

/-- A test of a switch: it leads to its body, which lies behind all tests, or on to what is
asked after it. -/
private theorem clause_trimmedAt {stop body body' : Nat} {asked asked' others others' : Code}
    (hasked : asked.Trimmed asked') (hhead : ∀ i ∈ others.head?, i.op ≠ .setSource)
    (hothers : ∀ {a}, others.Tracks φ place a → a + others.size = stop →
      others.TrimmedAt φ place a others')
    (hbody : Aligned φ place stop body body') (hplace : place stop)
    (h : Code.Tracks φ place a
      (asked ++ Code.bypassed .jumpFalse (op .pop ++ branch .jump (.ahead (others.size + body))) ++
        others))
    (hstop : a + size (asked ++
      Code.bypassed .jumpFalse (op .pop ++ branch .jump (.ahead (others.size + body))) ++ others) =
      stop) :
    Code.TrimmedAt φ place a
      (asked ++ Code.bypassed .jumpFalse (op .pop ++ branch .jump (.ahead (others.size + body))) ++
        others)
      (asked' ++ Code.bypassed .jumpFalse (op .pop ++
        branch .jump (.ahead (others'.size + body'))) ++ others') := by
  obtain ⟨hfirst, htothers⟩ := tracks_append.mp h
  obtain ⟨htasked, htskip⟩ := tracks_append.mp hfirst
  obtain ⟨htfalse, htinner⟩ := tracks_append.mp htskip
  have hfalse := (tracks_branch Opcode.noConfusion).mp htfalse
  have hpop : size (op .pop) = 2 := rfl
  simp only [Code.bypassed, size_append, size_branch,
    hpop, ← Nat.add_assoc] at htothers htinner hstop
  have hothersPlace := htothers.place_start hhead (by rwa [hstop])
  have hothers' := hothers htothers hstop
  have hmap := hothers'.map_stop htothers
  rw [hstop] at hmap
  have hjump : (branch .jump (.ahead (others.size + body))).TrimmedAt φ place
      (a + asked.size + jumpSize + 2)
      (branch .jump (.ahead (others'.size + body'))) := by
    have hplaceBody : a + asked.size + jumpSize + 2 + jumpSize + (others.size + body) =
        stop + body := by omega
    refine .branch Opcode.noConfusion (.ahead ?_ ?_) <;> rw [size_branch, hplaceBody]
    · exact hbody.1
    · rw [hbody.2]
      omega
  have hinner : (op .pop ++ branch .jump (.ahead (others.size + body))).TrimmedAt φ place
      (a + asked.size + jumpSize)
      (op .pop ++ branch .jump (.ahead (others'.size + body'))) := .append (.plain rfl) hjump
  refine ((hasked.trims htasked hfalse.1).append
    (.bypassed Opcode.noConfusion hinner htinner ?_)).append ?_
  · rw [size_append, size_branch, hpop, ← Nat.add_assoc]
    exact hothersPlace
  · simp only [Code.bypassed, size_append, size_branch, hpop, ← Nat.add_assoc]
    exact hothers'

/-- The tests of a switch lead to bodies behind them. -/
theorem dispatch_trimmedAt {stop fallback fallback' : Nat}
    {clauses clauses' : List (Option Code × Nat)}
    (hclauses : List.Forall₂ (fun x x' => Option.Rel Trimmed x.1 x'.1 ∧
      Aligned φ place stop x.2 x'.2) clauses clauses')
    (hfallback : Aligned φ place stop fallback fallback') (hplace : place stop)
    (h : (dispatch fallback clauses).Tracks φ place a)
    (hstop : a + size (dispatch fallback clauses) = stop) :
    (dispatch fallback clauses).TrimmedAt φ place a (dispatch fallback' clauses') := by
  induction hclauses generalizing a with
  | nil =>
    subst hstop
    exact .branch Opcode.noConfusion (.ahead hfallback.1 hfallback.2)
  | @cons x x' rest rest' hx _ ih =>
    obtain ⟨test, body⟩ := x
    obtain ⟨test', body'⟩ := x'
    obtain ⟨htest, hbody⟩ := hx
    cases htest with
    | none => exact ih h hstop
    | some htest =>
      have hpick : (pick 1).Trimmed (pick 1) := .plain rfl
      have hequal : (op .strictEqual).Trimmed (op .strictEqual) := .plain rfl
      refine clause_trimmedAt ((hpick.append htest).append hequal) ?_ ?_ hbody hplace h hstop
      · intro i hi
        cases hi
        exact Opcode.noConfusion
      · intro a ht hrest
        have hrest' : a + size (op .pop) + size (dispatch fallback rest) = stop := by
          rw [size_append, ← Nat.add_assoc] at hrest
          exact hrest
        exact .append (.plain rfl) (ih (tracks_append.mp ht).2 hrest')

/-- Numbers that say where the same one of two lists of bodies starts. -/
def Boundary (bodies bodies' : List Code) (n n' : Nat) : Prop :=
  ∃ front back front' back' : List Code, bodies = front ++ back ∧ bodies' = front' ++ back' ∧
    List.Forall₂ Trimmed front front' ∧ List.Forall₂ Trimmed back back' ∧
    n = size front.flatten ∧ n' = size front'.flatten

namespace Trimmed

variable {bodies bodies' : List Code}

theorem flatten (h : List.Forall₂ Trimmed bodies bodies') :
    Code.Trimmed bodies.flatten bodies'.flatten := by
  induction h with
  | nil => exact plain rfl
  | cons hbody _ ih => exact hbody.append ih

private theorem offsetsFrom_boundary {front front' back back' : List Code}
    (hfront : List.Forall₂ Trimmed front front') (hback : List.Forall₂ Trimmed back back') :
    List.Forall₂ (Boundary (front ++ back) (front' ++ back'))
    (offsetsFrom (size front.flatten) back)
      (offsetsFrom (size front'.flatten) back') := by
  induction hback generalizing front front' with
  | nil => exact .nil
  | @cons c c' rest rest' hc hrest ih =>
    refine .cons ⟨front, c :: rest, front', c' :: rest', rfl, rfl, hfront, .cons hc hrest, rfl,
      rfl⟩ ?_
    have hmore := ih (List.rel_append hfront (.cons hc .nil))
    simpa only [List.append_assoc, List.singleton_append, List.flatten_append,
      List.flatten_singleton, size_append]
      using hmore

private theorem zip_forall₂ {α β γ δ : Type} {R : α → β → Prop} {S : γ → δ → Prop} {xs : List α}
    {ys : List β} {zs : List γ} {ws : List δ} (h : List.Forall₂ R xs ys)
    (h' : List.Forall₂ S zs ws) :
    List.Forall₂ (fun x y => R x.1 y.1 ∧ S x.2 y.2) (xs.zip zs) (ys.zip ws) := by
  induction h generalizing zs ws with
  | nil => exact .nil
  | cons hxy _ ih =>
    cases h' with
    | nil => exact .nil
    | cons hzw hrest => exact .cons ⟨hxy, hzw⟩ (ih hrest)

/-- A boundary between bodies is a place, and moves like the start of the bodies. -/
private theorem boundary_aligned {n n' : Nat} (hn : Boundary bodies bodies' n n')
    (h : Code.Tracks φ place a bodies.flatten) (hstop : place (a + size bodies.flatten)) :
    Aligned φ place a n n' := by
  obtain ⟨front, back, front', back', rfl, rfl, hfront, hback, rfl, rfl⟩ := hn
  rw [List.flatten_append] at h hstop
  obtain ⟨htfront, htback⟩ := tracks_append.mp h
  rw [size_append, ← Nat.add_assoc] at hstop
  have hplace := htback.place_start (flatten hback).head hstop
  exact ⟨hplace, ((flatten hfront).trims htfront hplace).map_stop htfront⟩

/-- The code of a switch from its tests on. -/
private theorem clauses_trimmed {fallback fallback' : Nat}
    {clauses clauses' : List (Option Code × Nat)} (hbodies : List.Forall₂ Trimmed bodies bodies')
    (hclauses : List.Forall₂ (fun x x' => Option.Rel Trimmed x.1 x'.1 ∧
      Boundary bodies bodies' x.2 x'.2) clauses clauses')
    (hfallback : Boundary bodies bodies' fallback fallback') :
    Code.Trimmed (dispatch fallback clauses ++ bodies.flatten) (dispatch fallback' clauses' ++
      bodies'.flatten) where
  head i hi := by
    obtain ⟨j, rest, hj, hne⟩ := dispatch_head fallback clauses
    rw [hj] at hi
    cases hi
    exact hne
  trims {φ place a} h hstop := by
    obtain ⟨htdispatch, htbodies⟩ := tracks_append.mp h
    rw [size_append, ← Nat.add_assoc] at hstop
    have haligned {n n' : Nat} (hn : Boundary bodies bodies' n n') :=
      boundary_aligned hn htbodies hstop
    have hplace := htbodies.place_start (flatten hbodies).head hstop
    refine (dispatch_trimmedAt (hclauses.imp fun _ _ hx => ⟨hx.1, haligned hx.2⟩)
      (haligned hfallback) hplace htdispatch
      rfl).append ?_
    exact (flatten hbodies).trims htbodies hstop

private theorem filter_forall₂ {clauses clauses' : List (Option Code × Nat)} {S : Nat → Nat → Prop}
    (h : List.Forall₂ (fun x x' => Option.Rel Trimmed x.1 x'.1 ∧ S x.2 x'.2) clauses clauses') :
    List.Forall₂ (fun x x' => Option.Rel Trimmed x.1 x'.1 ∧ S x.2 x'.2)
    (clauses.filter (·.1.isNone))
      (clauses'.filter (·.1.isNone)) := by
  induction h with
  | nil => exact .nil
  | @cons x x' _ _ hx _ ih =>
    have hsame {o o' : Option Code} (ho : Option.Rel Trimmed o o') : o.isNone = o'.isNone := by
      cases ho <;> rfl
    rw [List.filter_cons, List.filter_cons, hsame hx.1]
    split
    · exact .cons hx ih
    · exact ih

theorem switch {tests tests' : List (Option Code)} (hd : d.Trimmed d')
    (htests : List.Forall₂ (Option.Rel Trimmed) tests tests')
    (hbodies : List.Forall₂ Trimmed bodies bodies') :
    Paired Trimmed (switchCode d tests bodies) (switchCode d' tests' bodies') := by
  have hoffsets :
      List.Forall₂ (Boundary bodies bodies') (offsetsFrom 0 bodies) (offsetsFrom 0 bodies') :=
    offsetsFrom_boundary .nil hbodies
  have hclauses := zip_forall₂ htests hoffsets
  have hdefaults := filter_forall₂ hclauses
  have hpop : (op .pop).Trimmed (op .pop) := .plain rfl
  have hcode {fallback fallback' : Nat} (h : Boundary bodies bodies' fallback fallback') :=
    (hd.append (clauses_trimmed hbodies hclauses h)).append hpop
  have hstop : Boundary bodies bodies' (size bodies.flatten) (size bodies'.flatten) :=
    ⟨bodies, [], bodies', [], (List.append_nil _).symm, (List.append_nil _).symm, hbodies, .nil,
      rfl, rfl⟩
  unfold switchCode
  dsimp only
  generalize (tests.zip (offsetsFrom 0 bodies)).filter (·.1.isNone) = defaults,
    (tests'.zip (offsetsFrom 0 bodies')).filter (·.1.isNone) = defaults' at hdefaults ⊢
  cases hdefaults with
  | nil => exact .ok (by simpa only [List.append_assoc] using hcode hstop)
  | cons hx hrest =>
    cases hrest with
    | nil => exact .ok (by simpa only [List.append_assoc] using hcode hx.2)
    | cons => exact .refused .repeatedDefault

end Trimmed

end Code

/-- Code with source texts and code without them are alike when the one is trimmed to the other. -/
def Likeness.trimming : Likeness where
  terse := false
  terse' := true
  rel := Trimmed
  plain h := .plain h
  append ha hb := ha.append hb
  sealed ha := ha.sealed
  leave ho := .leave ho
  bypassed ho ha := .bypassed ho ha
  either ho ha hb := .either ho ha hb
  forever ha := .forever ha
  repeated ho ha hb := .repeated ho ha hb
  framed labels ho ha := .framed ho labels ha
  switch hd htests hbodies := Trimmed.switch hd htests hbodies
  guarded ha hh hf := .guarded ha hh hf
  enclosed ha hobject := .enclosed hobject ha
  object {_ _ _ bytes} ho ha := .object ho bytes ha

end EcmaStack

import EcmaStack.Proofs.Likeness.Tree
import EcmaStack.Proofs.Likeness.Trimmed
import EcmaStack.Proofs.Lowering.Program
import Mathlib.Algebra.GroupWithZero.Nat

/-!
# Leaving source texts out

A program can be written with the source texts of its functions or without them. Both ways
succeed or fail alike, and what is written without source texts is what is written with them,
less the instructions for source texts, with every offset and every address moved by what no
longer stands before it (`write_terse_exact`).
-/

namespace EcmaStack

open Code

/-! ## Streams without source texts -/

/-- How many bytes before an offset belong to other instructions than source texts. -/
def offsetWithout (stream : List Settled) (n : Nat) : Nat :=
  ((stream.filter fun l => l.offset < n && l.instr.op != .setSource).map (·.instr.size)).sum

/-- The instructions other than source texts, with offsets and addresses moved to where they are
without those. The zero of an address that leads nowhere stays, for nothing stands before it. -/
def withoutSources (stream : List Settled) : List Settled :=
  (stream.filter (·.instr.op != .setSource)).map fun l =>
    ⟨offsetWithout stream l.offset, l.instr.map (offsetWithout stream)⟩

variable {φ : Nat → Nat} {place : Nat → Prop} {a : Nat} {c c' : Code}

/-- What is kept of code, counted in bytes. -/
private def keptSize (c : Code) : Nat :=
  size (c.filter (·.op != .setSource))

private theorem sum_sizes_below {n start : Nat} (h : n ≤ start) :
    (((c.settled start).filter fun l => l.offset < n && l.instr.op != .setSource).map
      (·.instr.size)).sum = 0 := by
  induction c generalizing start with
  | nil => rfl
  | cons i rest ih =>
    have hnot : decide (start < n) = false := decide_eq_false (by omega)
    rw [settled, List.filter_cons_of_neg (by simp [hnot])]
    exact ih (by omega)

/-- At a boundary of the code, the offset without source texts is the size of what is kept
before it. -/
private theorem offsetWithout_boundary (before after : Code) (start : Nat) :
    offsetWithout ((before ++ after).settled start) (start + size before) = keptSize before := by
  induction before generalizing start with
  | nil => exact sum_sizes_below (by rw [size_nil]; omega)
  | cons i rest ih =>
    have hpos := i.size_pos
    have hbelow : decide (start < start + size (i :: rest)) = true :=
      decide_eq_true (by rw [size_cons]; omega)
    have hrest := ih (start + i.size)
    rw [Nat.add_assoc, ← size_cons] at hrest
    unfold offsetWithout at hrest ⊢
    rw [List.cons_append, settled, List.filter_cons]
    simp only [hbelow, Bool.true_and]
    unfold keptSize at hrest ⊢
    rw [List.filter_cons]
    change (List.map _ (if (i.settle id start).op != .setSource then _ else _)).sum = _
    by_cases hop : (i.op != .setSource) = true
    · have hop' : ((i.settle id start).op != .setSource) = true := hop
      rw [if_pos hop, if_pos hop', List.map_cons, List.sum_cons, hrest, size_cons]
      congr 1
      exact Instr.size_map _ i
    · have hop' : ¬((i.settle id start).op != .setSource) = true := hop
      rw [if_neg hop, if_neg hop', hrest]

private theorem keptSize_append (c d : Code) : keptSize (c ++ d) = keptSize c + keptSize d := by
  rw [keptSize, List.filter_append, size_append]
  rfl

/-- The places of a whole program: the starts of its instructions that are no source texts, and
its end. -/
private def IsPlace (c : Code) (n : Nat) : Prop :=
  (∃ l ∈ c.settled 0, l.offset = n ∧ l.instr.op ≠ .setSource) ∨ n = size c

/-- The offsets without source texts track the code. -/
private theorem tracks_offsetWithout (before after : Code) :
    after.Tracks (offsetWithout ((before ++ after).settled 0)) (IsPlace (before ++ after))
    (size before) := by
  induction after generalizing before with
  | nil => trivial
  | cons i rest ih =>
    have hnext := ih (before ++ [i])
    have hsize : size (before ++ [i]) = size before + i.size :=
      by rw [size_append, size_cons, size_nil, Nat.add_zero]
    rw [List.append_assoc, List.singleton_append, hsize] at hnext
    have hstart := offsetWithout_boundary before (i :: rest) 0
    have hstop := offsetWithout_boundary (before ++ [i]) rest 0
    rw [List.append_assoc, List.singleton_append, hsize, keptSize_append] at hstop
    rw [Nat.zero_add] at hstart hstop
    refine ⟨?_, hnext⟩
    split
    · next hop =>
      have hnone : keptSize [i] =
          0 := by rw [keptSize, List.filter_cons_of_neg (by simp [hop])]; rfl
      rw [hstop, hstart, hnone, Nat.add_zero]
    · next hop =>
      have hone : keptSize [i] = i.size := by
        rw [keptSize, List.filter_cons_of_pos (by simp [hop]), List.filter_nil, size_cons, size_nil,
          Nat.add_zero]
      refine ⟨Or.inl ⟨_, mem_settled.mpr ⟨before, i, rest, rfl, rfl⟩, Nat.zero_add _, hop⟩, ?_⟩
      rw [hstop, hstart, hone]

/-! ## Trimmed code in a stream -/

/-- Where a reach that follows leads is the image of where the first one leads. -/
private theorem Reach.Follows.target_eq {start stop stop' : Nat} {r r' : Reach}
    (h : r.Follows φ place start stop r') (hzero : φ 0 = 0) (hstop : φ stop = stop') :
    φ (r.target stop start stop) = r'.target stop' (φ start) stop' ∧ (r.target stop start stop = 0 ∨
      place (r.target stop start stop)) := by
  subst hstop
  cases h with
  | absent => exact ⟨hzero, Or.inl rfl⟩
  | exit hplace => exact ⟨rfl, Or.inr hplace⟩
  | ahead hplace hmap => exact ⟨hmap, Or.inr hplace⟩
  | @back n n' hle hplace hmap =>
    refine ⟨?_, Or.inr hplace⟩
    change φ (start - n) = φ start - n'
    omega

/-- The stream of trimmed code is that of the code, without source texts and moved. -/
private theorem Code.TrimmedAt.settled_eq (h : c.TrimmedAt φ place a c') (ht : c.Tracks φ place a)
    (hzero : φ 0 = 0) :
    c'.settled (φ a) = ((c.settled a).filter (·.instr.op != .setSource)).map fun l =>
    ⟨φ l.offset, l.instr.map φ⟩ := by
  induction h with
  | nil => rfl
  | @source a i _ _ hi _ ih =>
    rw [Tracks, if_pos hi] at ht
    rw [settled, List.filter_cons_of_neg (by simp [Instr.settle, Instr.map, hi]), ← ih ht.2, ht.1]
  | @kept a i os _ _ hi hos _ ih =>
    rw [Tracks, if_neg hi] at ht
    have hsize : (Instr.mk i.op os).size = i.size := Operand.Follows.size_eq hos
    rw [settled, settled, List.filter_cons_of_pos (by simp [Instr.settle, Instr.map, hi]),
      List.map_cons, hsize, ← ht.1.2, ih ht.2]
    congr 2
    simp only [Instr.settle, Instr.map, hsize, List.map_map, id]
    congr 1
    rw [← List.forall₂_eq_eq_eq, List.forall₂_map_left_iff, List.forall₂_map_right_iff]
    refine List.Forall₂.flip (hos.imp fun o o' ho => ?_)
    cases ho with
    | address hr => exact congrArg Operand.address (hr.target_eq hzero ht.1.2).1.symm
    | same ho =>
      cases o with
      | address r => exact absurd rfl ho
      | _ => rfl

private theorem forall₂_left {α β : Type} {R : α → β → Prop} {xs : List α} {ys : List β}
    (h : List.Forall₂ R xs ys) {x : α} (hx : x ∈ xs) : ∃ y, R x y := by
  induction h with
  | nil => cases hx
  | @cons _ y _ _ hxy _ ih =>
    rcases List.mem_cons.mp hx with rfl | hx
    · exact ⟨y, hxy⟩
    · exact ih hx

/-- Every address of trimmed code leads nowhere or to a place. -/
private theorem Code.TrimmedAt.address (h : c.TrimmedAt φ place a c') (ht : c.Tracks φ place a)
    (hzero : φ 0 = 0) {l : Settled} (hl : l ∈ c.settled a) (hop : l.instr.op ≠ .setSource) {n : Nat}
    (hn : .address n ∈ l.instr.operands) : n = 0 ∨ place n := by
  induction h with
  | nil => cases hl
  | source hi _ ih =>
    rw [Tracks, if_pos hi] at ht
    rcases List.mem_cons.mp hl with rfl | hl
    · exact absurd hi hop
    · exact ih ht.2 hl
  | kept hi hos _ ih =>
    rw [Tracks, if_neg hi] at ht
    rcases List.mem_cons.mp hl with rfl | hl
    · obtain ⟨o, ho, heq⟩ := List.mem_map.mp hn
      cases o with
      | address r =>
        cases heq
        obtain ⟨o', ho'⟩ := forall₂_left hos ho
        cases ho' with
        | address hr => exact (hr.target_eq hzero ht.1.2).2
        | same hsame => exact absurd rfl hsame
      | _ => cases heq
    · exact ih ht.2 hl

/-- The stream of code without source texts. -/
private theorem Code.Trimmed.settled_eq (h : c.Trimmed c') :
    c'.settled 0 = withoutSources (c.settled 0) := by
  have htracks := tracks_offsetWithout [] c
  have hzero : offsetWithout (c.settled 0) 0 = 0 := sum_sizes_below (Nat.le_refl 0)
  have htrims := (h.trims htracks (Or.inr (Nat.zero_add _))).settled_eq htracks hzero
  rwa [size_nil, List.nil_append, hzero] at htrims

/-! ## Texts -/

theorem Operand.short_map {α β : Type} {o : Operand α} {f : α → β} : (o.map f).Short ↔ o.Short := by
  cases o <;> exact Iff.rfl

theorem Instr.short_map {α β : Type} {i : Instr α} {f : α → β} : (i.map f).Short ↔ i.Short :=
  ⟨fun h _ ho => Operand.short_map.mp (h _ (List.mem_map_of_mem ho)), fun h => h.map f⟩

/-- The texts of settled code are those of the code. -/
private theorem short_of_settled (h : ∀ l ∈ c.settled a, l.instr.Short) : ∀ i ∈ c, i.Short := by
  intro i hi
  obtain ⟨before, after, rfl⟩ := List.append_of_mem hi
  exact Instr.short_map.mp (h _ (mem_settled.mpr ⟨before, i, after, rfl, rfl⟩))

private theorem short_withoutSources {stream : List Settled} (h : ∀ l ∈ stream, l.instr.Short) :
    ∀ l ∈ withoutSources stream, l.instr.Short := by
  intro l hl
  obtain ⟨l', hl', rfl⟩ := List.mem_map.mp hl
  exact Instr.short_map.mpr (h l' (List.mem_of_mem_filter hl'))

/-! ## Programs -/

section

variable {file : SourceFile} {module : Bool} {compiler : PatternCompiler} {p : Program}

theorem CodeSite.ofFile_alike (file : SourceFile) :
    (CodeSite.ofFile file false).Alike .trimming false (.ofFile file true) where
  file := rfl
  lineStarts := rfl
  async := rfl
  terse := rfl
  terse' := rfl
  fields h := Bool.noConfusion h

/-- An address of consistent code that is trimmed leads to an instruction that is no source text. -/
private theorem target_of_consistent {shape : Nat → StackShape} (h : Consistent (c.settled 0) shape)
    (hc : c.Trimmed c') {l : Settled} (hl : l ∈ c.settled 0) {n : Nat}
    (hn : .address n ∈ l.instr.operands) (hne : n ≠ 0) :
    ∃ next ∈ c.settled 0, next.offset = n ∧ next.instr.op ≠ .setSource := by
  by_cases hop : l.instr.op = .setSource
  · have hkinds : l.instr.operands.map Operand.kind = [.text] :=
      (h.wellFormed hl).trans (congrArg Opcode.operands hop)
    have hkind := List.mem_map_of_mem (f := Operand.kind) hn
    rw [hkinds] at hkind
    cases List.mem_singleton.mp hkind
  · have htracks := tracks_offsetWithout [] c
    have htrims := hc.trims htracks (Or.inr (Nat.zero_add _))
    rcases htrims.address htracks (sum_sizes_below (Nat.le_refl 0)) hl hop
      hn with hzero | hplace | hend
    · exact absurd hzero hne
    · exact hplace
    · rcases h.address hl hn with ⟨next, hnext, hoffset⟩ | ⟨-, hzero⟩
      · obtain ⟨before, i, after, hsplit, rfl⟩ := mem_settled.mp hnext
        have hsize := congrArg size hsplit
        have hpos := i.size_pos
        rw [size_append, size_cons] at hsize
        have hoffset : 0 + size before = n := hoffset
        have hend : n = size c := hend
        omega
      · exact absurd hzero hne

/-- Leaving out the source texts of functions changes nothing but that. A program is refused
with them if and only if it is refused without them, for the same reason. If it is not, what is
written without source texts is what is written with them, less the instructions for source
texts, with every offset and every address moved by what no longer stands before it; and no
address leads to an instruction that is left out. Both are what is read back, unless a text is
too long for the four bytes of its length. -/
theorem write_terse_exact (hparse : parseFile file module compiler = .ok p) :
    (∀ fault, p.write file true = .error fault ↔ p.write file false = .error fault) ∧
    ∀ b, p.write file false = .ok b → ∃ b' stream, p.write file true = .ok b' ∧
      b.code = stream.flatMap Settled.encode ∧ b'.code =
        (withoutSources stream).flatMap Settled.encode ∧
      (∀ l ∈ stream, ∀ n, .address n ∈ l.instr.operands → n ≠ 0 →
        ∃ next ∈ stream, next.offset = n ∧ next.instr.op ≠ .setSource) ∧
      ((∀ l ∈ stream, l.instr.Short) → decode b.code = ⟨stream.map Settled.located, none⟩ ∧
        decode b'.code = ⟨(withoutSources stream).map Settled.located, none⟩) := by
  have hpaired := (parseFile_grammatical hparse).paired (CodeSite.ofFile_alike file)
  cases hcode : p.lower (.ofFile file false) with
  | error cause =>
    rw [hcode] at hpaired
    cases hcode' : p.lower (.ofFile file true) with
    | ok _ =>
      rw [hcode'] at hpaired
      cases hpaired
    | error _ =>
      rw [hcode'] at hpaired
      cases hpaired
      obtain ⟨r, rfl, hwrite⟩ := Program.write_of_refused hparse hcode
      obtain ⟨r', hfault, hwrite'⟩ := Program.write_of_refused hparse hcode'
      cases r
      cases r'
      cases hfault
      rw [hwrite, hwrite']
      exact ⟨fun _ => Iff.rfl, nofun⟩
  | ok code =>
    rw [hcode] at hpaired
    cases hcode' : p.lower (.ofFile file true) with
    | error _ =>
      rw [hcode'] at hpaired
      cases hpaired
    | ok code' =>
      rw [hcode'] at hpaired
      cases hpaired with
      | ok htrimmed =>
        have hsettled := Code.Trimmed.settled_eq htrimmed
        obtain ⟨shape, hshape⟩ := lower_consistent hparse hcode
        obtain ⟨shape', hshape'⟩ := lower_consistent hparse hcode'
        rw [(Program.write_of_lower hparse hcode).2, (Program.write_of_lower hparse hcode').2]
        refine ⟨fun _ => ⟨nofun, nofun⟩, ?_⟩
        rintro _ ⟨⟩
        refine ⟨_, code.settled 0, rfl, encode_resolve code 0, hsettled ▸ encode_resolve code' 0,
          ?_, fun hshort => ⟨?_, ?_⟩⟩
        · exact fun l hl n hn hne => target_of_consistent hshape htrimmed hl hn hne
        · exact (decode_of_consistent hshape (short_of_settled hshort)).trans
            (by rw [locate_resolve])
        · have hshort' := short_withoutSources hshort
          rw [← hsettled] at hshort' ⊢
          exact (decode_of_consistent hshape' (short_of_settled hshort')).trans
            (by rw [locate_resolve])

/-- Code that is short enough holds no text that is too long. -/
private theorem short_of_length {stream : List Settled}
    (h : (stream.flatMap Settled.encode).length < 2 ^ 32) :
    ∀ l ∈ stream, l.instr.Short := by
  intro l hl o ho
  obtain ⟨before, after, rfl⟩ := List.append_of_mem hl
  have hwidth (os : List (Operand Nat)) (ho : o ∈ os) : o.width ≤
      os.foldr (fun o n => o.width + n) 0 := by
    induction os with
    | nil => cases ho
    | cons x rest ih =>
      rw [List.foldr_cons]
      rcases List.mem_cons.mp ho with rfl | ho
      · exact Nat.le_add_right _ _
      · exact (ih ho).trans (Nat.le_add_left _ _)
  have hsize : l.encode.length = l.instr.size := (Instr.length_encode _).trans (Instr.size_map _ _)
  have hoperand := hwidth l.instr.operands ho
  rw [List.flatMap_append, List.flatMap_cons, List.length_append, List.length_append, hsize,
    Instr.size] at h
  cases o with
  | text bytes =>
    change 4 + bytes.length ≤ _ at hoperand
    change bytes.length < 2 ^ 32
    omega
  | _ => trivial

/-- A loop around an arrow function, and a function with a method in it. -/
def nestedSources : SourceFile :=
  .ofString "nested.js"
    "x: while (a) { b(() => c); } function f() { return { m() { if (d) return e; } }; }"

theorem write_terse_exact_nestedSources :
    ∃ p b b' stream, parseFile nestedSources false = .ok p ∧ p.write nestedSources false = .ok b ∧
      p.write nestedSources true = .ok b' ∧ b.code = stream.flatMap Settled.encode ∧
      b'.code = (withoutSources stream).flatMap Settled.encode ∧
      (∀ l ∈ stream, ∀ n, .address n ∈ l.instr.operands → n ≠ 0 →
        ∃ next ∈ stream, next.offset = n ∧ next.instr.op ≠ .setSource) ∧
      (∀ l ∈ stream, l.instr.Short) ∧ decode b.code = ⟨stream.map Settled.located, none⟩ ∧
      decode b'.code = ⟨(withoutSources stream).map Settled.located, none⟩ := by
  have hcompiles : (compile nestedSources false false).toOption.map
      (fun b => decide (b.code.length < 2 ^ 32)) = some true := by
    decide +kernel
  cases hcompile : compile nestedSources false false with
  | error e =>
    rw [hcompile] at hcompiles
    cases hcompiles
  | ok b =>
    rw [hcompile] at hcompiles
    obtain ⟨p, hparse, hwrite⟩ := write_of_compile hcompile
    obtain ⟨b', stream, hwrite', hcode, hcode', htargets, hdecodes⟩ :=
      (write_terse_exact hparse).2 b hwrite
    have hlength : b.code.length < 2 ^ 32 := of_decide_eq_true (Option.some.inj hcompiles)
    have hshort := short_of_length (hcode ▸ hlength)
    exact ⟨p, b, b', stream, hparse, hwrite, hwrite', hcode, hcode', htargets, hshort,
      hdecodes hshort⟩

end

end EcmaStack

import EcmaStack.Proofs.Machine.Jumps

/-!
# Fragments among frames

A statement may leave through the frames that are open around it. `Runs exits c m n` says that
the fragment takes `m` operands and leaves `n` wherever a frame is open for each of these exits
and the address of that frame is met. Opening a frame around a fragment takes one exit off the
list (`Runs.framed`), and a fragment that runs without any exits moves operands and does nothing
else (`Runs.moves`).
-/

namespace EcmaStack

/-- The labels that `break` and `continue` may name; the empty label stands for none. -/
abbrev Exits := FrameKind → Set String

namespace Exits

/-- Nowhere to go. -/
def none : Exits := fun _ => ∅

/-- More labels for one of the two. -/
def more (exits : Exits) (kind : FrameKind) (labels : List String) : Exits :=
  fun k => {label | (k = kind ∧ label ∈ labels) ∨ label ∈ exits k}

/-- Whether every exit of the first is one of the second. -/
def Below (first second : Exits) : Prop :=
  ∀ kind, first kind ⊆ second kind

/-- The labels in force below a frame are its own and those around it. -/
theorem mem_more {exits : Exits} {kind k : FrameKind} {labels : List String} {label : String} :
    label ∈ exits.more kind labels k ↔ (k = kind ∧ label ∈ labels) ∨ label ∈ exits k :=
  Iff.rfl

end Exits

/-- What opens a frame. -/
def FrameKind.opcode : FrameKind → Opcode
  | .forBreak => .pushBreakLabel
  | .forContinue => .pushContinueLabel

/-- What leaves through a frame. -/
def FrameKind.leave : FrameKind → Opcode
  | .forBreak => .breakOff
  | .forContinue => .carryOn

/-- Whether a frame is open for every exit, and its address is met with the shape the frame was
opened in and the frame still open. -/
def StackShape.Meets (σ : StackShape) (exits : Exits) (W : Landings) : Prop :=
  ∀ kind, ∀ label ∈ exits kind, ∃ f outer, StackShape.caught kind (utf8Bytes label) σ.frames =
    some (f, outer) ∧
    (f.address, ⟨f.depth, f.scopes, f :: outer⟩) ∈ W

namespace StackShape

variable {σ τ : StackShape} {exits exits' : Exits} {W W' : Landings}

/-- Where nothing is in force nothing has to be met. -/
theorem Meets.none : σ.Meets .none W := by
  intro kind label hmem
  cases hmem

/-- Only the frames count, -/
theorem Meets.of_frames (h : σ.Meets exits W) (hframes : τ.frames = σ.frames) :
    τ.Meets exits W := by
  intro kind label hmem
  rw [hframes]
  exact h kind label hmem

/-- and fewer labels are met as well. -/
theorem Meets.mono (h : σ.Meets exits' W) (hexits : exits.Below exits') (hW : W ⊆ W') :
    σ.Meets exits W' := by
  intro kind label hmem
  obtain ⟨f, outer, hcaught, hland⟩ := h kind label (hexits kind hmem)
  exact ⟨f, outer, hcaught, hW hland⟩

/-- A new frame catches its own label, and the labels caught before it are caught still. -/
theorem Meets.catching {kind : FrameKind} {label : String} {a : Nat} (h : σ.Meets exits W)
    (hW : W ⊆ W') (ha : (a, σ.catching (σ.frame kind (utf8Bytes label) a)) ∈ W') :
    (σ.catching (σ.frame kind (utf8Bytes label) a)).Meets (exits.more kind [label]) W' := by
  intro k l hmem
  rw [frames_catching, caught]
  split
  · exact ⟨_, _, rfl, ha⟩
  · next hother =>
    rcases Exits.mem_more.mp hmem with ⟨rfl, hl⟩ | hl
    · cases List.mem_singleton.mp hl
      exact absurd ⟨rfl, rfl⟩ hother
    · obtain ⟨f, outer, hcaught, hland⟩ := h k l hl
      exact ⟨f, outer, hcaught, hW hland⟩

end StackShape

namespace Code

/-- The fragment takes so many operands and leaves so many, where the exits are open. -/
def Runs (exits : Exits) (c : Code) (m n : Nat) : Prop :=
  ∀ W (σ : StackShape), σ.Meets exits W → Leads W c (σ.push m) (σ.push n)

variable {exits exits' : Exits} {c d body : Code} {k l m n : Nat}

/-- Code that only moves the stack runs under any frames. -/
theorem Moves.runs (h : Moves c m n) : Runs exits c m n :=
  fun W σ _ => h.leads W σ

namespace Runs

/-- Without exits there is nothing to leave through. -/
theorem moves (h : Runs .none c m n) : Moves c m n :=
  fun σ => h ∅ σ .none

/-- What runs under fewer labels runs under more. -/
theorem mono (h : Runs exits c m n) (hexits : exits.Below exits') : Runs exits' c m n :=
  fun W σ hmeets => h W σ (hmeets.mono hexits (Set.Subset.refl W))

/-- No code runs, -/
theorem nil : Runs exits [] n n :=
  fun _ _ _ => .nil

/-- and codes in a row run one after the other. -/
theorem append (hc : Runs exits c l m) (hd : Runs exits d m n) : Runs exits (c ++ d) l n :=
  fun W σ hmeets => (hc W σ hmeets).append (hd W σ hmeets)

/-- Operands below stay as they are. -/
theorem lift (h : Runs exits c m n) (k : Nat) : Runs exits c (k + m) (k + n) := by
  intro W σ hmeets
  have h' := h W (σ.push k) (hmeets.of_frames rfl)
  rwa [StackShape.push_push, StackShape.push_push] at h'

/-- The fragment inside one more scope. -/
theorem inside (h : Runs exits c m n) {W : Landings} {σ : StackShape} (hmeets : σ.Meets exits W) :
    Leads W c (σ.push m).enter (σ.push n).enter :=
  h W σ.enter (hmeets.of_frames rfl)

/-- A fragment that a conditional jump may pass over. -/
theorem bypassed {o : Opcode} (ho : o.isConditional = true) (h : Runs exits body (n + 1) (n + 1)) :
    Runs exits (Code.bypassed o body) (n + 1) (n + 1) :=
  fun W σ hmeets => .bypassed ho (Nat.le_add_left 1 (σ.depth + n)) (h W σ hmeets)

/-- A test with a fragment for either outcome. -/
theorem choice {test yes no : Code} (htest : Runs exits test m (m + 1)) (hyes : Runs exits yes m n)
    (hno : Runs exits no m n) : Runs exits (Code.choice test yes no) m n :=
  fun W σ hmeets => .choice (htest W σ hmeets) (hyes W σ hmeets) (hno W σ hmeets)

/-- A fragment that runs again and again until its test leaves it. -/
theorem repeated {test rest : Code} {o : Opcode} (ho : o.isConditional = true)
    (htest : Runs exits test m (n + 1)) (hrest : Runs exits rest n m) :
    Runs exits (Code.repeated test o rest) m (n + 1) := by
  intro W σ hmeets
  have htest' : Leads W test (σ.push m) ((σ.push n).push 1) := htest W σ hmeets
  exact .repeated ho htest' (hrest W σ hmeets)

/-- A loop without an end. -/
theorem forever (h : Runs exits body m m) : Runs exits (Code.forever body) m n :=
  fun W σ hmeets => .forever (h W σ hmeets)

/-- A fragment inside one frame. -/
theorem framed_one {kind : FrameKind} {label : String}
    (h : Runs (exits.more kind [label]) body n n) :
    Runs exits ([⟨kind.opcode, [.text (utf8Bytes label), .address (.ahead body.size)]⟩] ++ body ++
      op .popLabel)
      n n := by
  intro W σ hmeets leave wants start hW
  let opening : Instr Reach := ⟨kind.opcode, [.text (utf8Bytes label), .address (.ahead body.size)]⟩
  let a := start + opening.size + body.size
  let τ := (σ.push n).catching ((σ.push n).frame kind (utf8Bytes label) a)
  let E : Landings := {(a, τ)}
  have hW' : W ∪ E ⊆ wants ∪ E := Set.union_subset_union_left E hW
  have hopen : Carries leave (wants ∪ E) ∅ start [opening] (σ.push n) τ := by
    have hflow : (opening.settle leave start).flow (σ.push n) =
        some { fall := some τ, jumps := [(a, τ)] } := by
      cases kind <;> rfl
    refine .instr hflow ?_ ?_
    · rintro _ ⟨⟩
      rfl
    · intro b ρ hmem
      cases List.mem_singleton.mp hmem
      exact Or.inr rfl
  have hmeets' : τ.Meets (exits.more kind [label]) (W ∪ E) :=
    StackShape.Meets.catching (hmeets.of_frames rfl) Set.subset_union_left (Or.inr rfl)
  have hbody : Leads (W ∪ E) body τ τ := h _ { τ with depth := σ.depth } (hmeets'.of_frames rfl)
  refine ((hopen.append (hbody.piece leave _ hW')).append
    (Leads.popLabel (W := W) leave _ _ ?_)).shut ?_
  · exact hW.trans Set.subset_union_left
  · rintro _ rfl
    exact Or.inl (Or.inr (Or.inr rfl))

/-- A fragment inside a frame for each label. -/
theorem framed {kind : FrameKind} {labels : List String}
    (h : Runs (exits.more kind labels) body n n) :
    Runs exits (Code.framed kind.opcode labels body) n n := by
  induction labels generalizing exits with
  | nil =>
    refine h.mono fun k l hmem => ?_
    simpa only [Exits.mem_more, List.not_mem_nil, and_false, false_or] using hmem
  | cons label rest ih =>
    refine framed_one (ih (h.mono fun k l hmem => ?_))
    simp only [Exits.mem_more, List.mem_cons, List.not_mem_nil, or_false] at hmem ⊢
    tauto

/-- Leaving through an open frame. Nothing is known to follow. -/
theorem leave {kind : FrameKind} {label : String} (h : label ∈ exits kind) :
    Runs exits (text kind.leave label) m n := by
  intro W σ hmeets leave wants start hW
  obtain ⟨f, outer, hcaught, hland⟩ := hmeets kind label h
  have hflow : (Instr.settle leave start ⟨kind.leave, [.text (utf8Bytes label)]⟩).flow (σ.push m) =
      some { fall := none, jumps := [(f.address, ⟨f.depth, f.scopes, f :: outer⟩)] } := by
    cases kind
    · change (StackShape.caught .forBreak (utf8Bytes label) σ.frames).map _ = _
      rw [hcaught]
      rfl
    · change (StackShape.caught .forContinue (utf8Bytes label) σ.frames).map _ = _
      rw [hcaught]
      rfl
  refine .instr hflow ?_ ?_
  · rintro _ ⟨⟩
  · intro a ρ hmem
    cases List.mem_singleton.mp hmem
    exact hW hland

end Runs

end Code

end EcmaStack

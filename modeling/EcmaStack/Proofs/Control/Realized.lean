import EcmaStack.Proofs.Control.Switch
import EcmaStack.Proofs.Lowering.Sound

/-!
# Code that realizes a meaning

Code **realizes** a meaning when it can be cut into single instructions and the code of what is
evaluated so that it performs the course of the meaning, whatever the oracle answers. The laws
are those of fragments, said of the code that lowering makes.
-/

namespace EcmaStack

/-- What is made, if anything is, has the property. -/
def Makes {α : Type} (P : α → Prop) (x : Except WriteFault α) : Prop :=
  ∀ a, x = .ok a → P a

namespace Makes

variable {α β : Type} {P Q : α → Prop} {R : β → Prop}

/-- The laws of a lowering that makes something: when it answers, -/
theorem ok {a : α} (h : P a) : Makes P (.ok a) := by
  rintro _ ⟨⟩
  exact h

/-- when it refuses, where nothing is promised, -/
theorem error {fault : WriteFault} : Makes P (.error fault) :=
  fun _ h => nomatch h

/-- when less is asked for, -/
theorem mono {x : Except WriteFault α} (hx : Makes P x) (h : ∀ a, P a → Q a) : Makes Q x :=
  fun a ha => h a (hx a ha)

theorem of_lowers {x : Except WriteFault α} (h : Lowers P x) : Makes P x := by
  rintro _ rfl
  cases h with
  | ok ha => exact ha

/-- and when one lowering follows another. -/
theorem bind {x : Except WriteFault α} {f : α → Except WriteFault β} (hx : Makes P x)
    (hf : ∀ a, P a → Makes R (f a)) : Makes R (x >>= f) := by
  cases x with
  | error fault => exact .error
  | ok a => exact hf a (hx a rfl)

/-- A check that only may refuse is passed over. -/
theorem skip {x : Except WriteFault α} {f : α → Except WriteFault β} (hf : ∀ a, Makes R (f a)) :
    Makes R (x >>= f) := by
  cases x with
  | error fault => exact .error
  | ok a => exact hf a

theorem assoc {γ : Type} {Q : γ → Prop} {x : Except WriteFault α} {f : α → Except WriteFault β}
    {g : β → Except WriteFault γ} (h : Makes Q (x >>= fun a => f a >>= g)) :
    Makes Q (x >>= f >>= g) := by
  rwa [bind_assoc]

/-- One of several ways, and what is the same after each of them. -/
theorem skip_ite {c : Prop} [Decidable c] {x y : Except WriteFault α} {f : α → Except WriteFault β}
    (hf : ∀ a, Makes R (f a)) : Makes R (if c then x >>= f else y >>= f) := by
  split
  · exact skip hf
  · exact skip hf

theorem skip_ite_ite {c d : Prop} [Decidable c] [Decidable d] {x y z : Except WriteFault α}
    {f : α → Except WriteFault β} (hf : ∀ a, Makes R (f a)) :
    Makes R (if c then x >>= f else if d then y >>= f else z >>= f) := by
  split
  · exact skip hf
  · exact skip_ite hf

end Makes

/-! ## Where sites stand -/

/-- A skeleton is faithful where the code of its parts was lowered at the site. -/
theorem Skeleton.Faithful.framed {s : CodeSite} {f : Skeleton} (hf : f.Faithful s) (o : Opcode)
    (labels : List String) :
    (Skeleton.framed o labels f).Faithful s := by
  induction labels with
  | nil => exact hf
  | cons label rest ih => exact ((Segments.Faithful.ofCode _).append ih).append (.ofCode _)

/-- What a statement does, for every oracle, in so many turns of a loop. -/
abbrev Meaning := (V : Type) → Oracle V → Nat → List Site → Course V

/-- The code performs the course of the meaning. -/
def Realizes (s : CodeSite) (meaning : Meaning) (c : Code) : Prop :=
  ∃ f : Skeleton, f.code = c ∧ f.Faithful s ∧
    ∀ (V : Type) (o : Oracle V), f.Performs o (meaning V o)

/-- The code of an expression, of which there is some. -/
structure Expr.Evaluated (s : CodeSite) (e : Expr) (c : Code) : Prop where
  lower : e.lower s .value = .ok c
  present : c ≠ []

theorem Skeleton.Faithful.evaluation {s : CodeSite} {e : Expr} {c : Code} (h : e.Evaluated s c) :
    (Skeleton.evaluation e c h.present).Faithful s :=
  .whole (x := Site.value e) h.lower h.present

/-- Without code nothing would push a value. -/
theorem Code.Moves.ne_nil {c : Code} (h : c.Moves 0 1) : c ≠ [] := by
  rintro rfl
  obtain ⟨shape, hstart, hend, -⟩ := h {} id ∅ 0 (Set.Subset.refl ∅)
  cases hstart.symm.trans hend

/-- A sound expression is lowered to some code, which stands for its evaluation. -/
theorem Expr.Sound.evaluated {s : CodeSite} {e : Expr} (h : e.Sound) (hs : s.Sound) :
    Makes (e.Evaluated s) (e.lower s .value) := by
  intro c hlower
  exact ⟨hlower, Code.Moves.ne_nil (Makes.of_lowers (h.value hs) c hlower)⟩

theorem Expr.lowerOption_evaluated {s : CodeSite} {e : Option Expr} (h : ∀ x ∈ e, x.Sound)
    (hs : s.Sound) :
    Makes (Option.Rel (Expr.Evaluated s) e) (Expr.lowerOption s .value e) := by
  cases e with
  | none => exact .ok .none
  | some x => exact ((h x rfl).evaluated hs).bind fun c hc => .ok (.some hc)

namespace Realizes

variable {s : CodeSite} {a b : Meaning} {c d : Code} {e : Expr}

/-- The code realizes whatever has the same course. -/
theorem congr (h : Realizes s a c) (hab : ∀ V o fuel trace, a V o fuel trace = b V o fuel trace) :
    Realizes s b c := by
  obtain ⟨f, hcode, hsites, hf⟩ := h
  exact ⟨f, hcode, hsites, fun V o => (hf V o).congr (hab V o)⟩

/-- No code realizes doing nothing, -/
theorem nil : Realizes s (fun _ _ _ trace => (trace, .normal)) [] :=
  ⟨[], rfl, .nil, fun _ _ => .nil⟩

/-- and two codes realize one course after the other. -/
theorem append (hc : Realizes s a c) (hd : Realizes s b d) :
    Realizes s (fun V o fuel trace => (a V o fuel trace).andThen (b V o fuel)) (c ++ d) := by
  obtain ⟨f, rfl, hf, hperforms⟩ := hc
  obtain ⟨g, rfl, hg, hperforms'⟩ := hd
  exact ⟨f ++ g, Segments.code_append f g, hf.append hg, fun V o => (hperforms V o).append
    (hperforms' V o)⟩

theorem expression (h : e.Evaluated s c) :
    Realizes s (fun _ _ _ trace => (trace ++ [Site.value e], .normal)) (c ++ Code.op .save ++
      Code.op .pop) := by
  refine ⟨Skeleton.evaluation e c h.present ++ Segments.ofCode (Code.op .save) ++
    Segments.ofCode (Code.op .pop), ?_,
    ((Skeleton.Faithful.evaluation h).append (.ofCode _)).append (.ofCode _), fun _ _ =>
    .expression⟩
  simp only [Segments.code_append, Segments.code_ofCode, Skeleton.code_evaluation]

theorem giveBack (h : e.Evaluated s c) :
    Realizes s (fun _ o _ trace => evaluating o e trace fun v trace =>
      (trace, .giveBack (.value v)))
      (c ++ Code.op .giveBack) := by
  refine ⟨Skeleton.evaluation e c h.present ++ Segments.ofCode (Code.op .giveBack), ?_,
    (Skeleton.Faithful.evaluation h).append (.ofCode _), fun _ _ => .giveBack⟩
  simp only [Segments.code_append, Segments.code_ofCode, Skeleton.code_evaluation]

theorem giveBackNothing :
    Realizes s (fun _ _ _ trace => (trace, .giveBack .undefined)) (Code.op .pushUndefined ++
      Code.op .giveBack) :=
  ⟨_, by rw [Segments.code_append, Segments.code_ofCode, Segments.code_ofCode],
    (Segments.Faithful.ofCode _).append (.ofCode _), fun _ _ => .giveBackNothing⟩

theorem leave (kind : FrameKind) (label : String) :
    Realizes s (fun _ _ _ trace => (trace, .leave kind label)) (Code.text kind.leave label) :=
  ⟨_, Segments.code_ofCode _, .ofCode _, fun _ _ => .leave kind label⟩

/-- A frame catches what leaves by its labels. -/
theorem framed (kind : FrameKind) (labels : List String) (h : Realizes s a c) :
    Realizes s (fun V o fuel trace => (a V o fuel trace).catching kind labels)
    (Code.framed kind.opcode labels c) := by
  obtain ⟨f, rfl, hf, hperforms⟩ := h
  exact ⟨_, Skeleton.code_framed kind.opcode labels f, hf.framed _ labels,
    fun V o => (hperforms V o).framed⟩

/-- A choice realizes the test and one of the two ways. -/
theorem choice (h : e.Evaluated s c) {yes no : Code} (hyes : Realizes s a yes)
    (hno : Realizes s b no) :
    Realizes s (fun V o fuel trace => evaluating o e trace fun v trace =>
      if o.truthy v then a V o fuel trace else b V o fuel trace) (Code.choice c yes no) := by
  obtain ⟨f, rfl, hf, hperforms⟩ := hyes
  obtain ⟨g, rfl, hg, hperforms'⟩ := hno
  refine ⟨Skeleton.choice (Skeleton.evaluation e c h.present) f g, ?_, ?_,
    fun V o => (hperforms V o).choice (hperforms' V o)⟩
  · rw [Skeleton.code_choice, Skeleton.code_evaluation]
  · exact ((Skeleton.Faithful.evaluation h).append ((Segments.Faithful.ofCode _).append
      (((Segments.Faithful.ofCode _).append hf).append (.ofCode _)))).append
      ((Segments.Faithful.ofCode _).append hg)

/-- A loop with a test in its turn. -/
theorem repeated {before after : Code} (h : e.Evaluated s c) (hbefore : Realizes s a before)
    (hafter : Realizes s b after) :
    Realizes s (fun V o => loopTurns fun fuel trace next => (a V o fuel trace).andThen fun trace =>
      testing o (some e) trace fun trace => (b V o fuel trace).andThen next)
      (Code.repeated (before ++ c) .jumpFalse after ++ Code.op .pop) := by
  obtain ⟨f, rfl, hf, hperforms⟩ := hbefore
  obtain ⟨g, rfl, hg, hperforms'⟩ := hafter
  refine ⟨Skeleton.repeated (f ++ Skeleton.evaluation e c h.present) g, ?_, ?_,
    fun V o => (hperforms V o).repeated (hperforms' V o)⟩
  · rw [Skeleton.code_repeated, Segments.code_append, Skeleton.code_evaluation]
  · have htest := hf.append (Skeleton.Faithful.evaluation h)
    exact (((htest.append (.ofCode _)).append ((Segments.Faithful.ofCode _).append hg)).append
      (.ofCode _)).append
      (.ofCode _)

/-- A loop realizes its turns without end. -/
theorem forever (h : Realizes s a c) :
    Realizes s (fun V o => loopTurns fun fuel trace next => (a V o fuel trace).andThen next)
    (Code.forever c) := by
  obtain ⟨f, rfl, hf, hperforms⟩ := h
  exact ⟨Skeleton.forever f, Skeleton.code_forever f, hf.append (.ofCode _),
    fun V o => (hperforms V o).forever⟩

/-- The opening of a scope is no part of the course. -/
theorem within {vars : List Variable} (h : Realizes s a c) :
    Realizes s a (Code.op .pushScope ++ vars.flatMap Variable.opening ++ c ++
      Code.op .popScope) := by
  obtain ⟨f, rfl, hf, hperforms⟩ := h
  refine ⟨Skeleton.within vars f, ?_, ?_, fun V o => (hperforms V o).within⟩
  · simp only [Skeleton.within, Segments.code_append, Segments.code_ofCode]
  · exact (((Segments.Faithful.ofCode _).append (.ofCode _)).append hf).append (.ofCode _)

/-- The region of a statement that declares no functions. -/
theorem inScope {scope : Option Scope} {body : Lowering} (h : Makes (Realizes s a) body) :
    Makes (Realizes s a) (EcmaStack.inScope scope [] body) := by
  have hnone : ∀ bindings : List Variable, bindings.filterMap (·.hoisted? []) = [] := by
    intro bindings
    refine List.filterMap_eq_nil_iff.mpr fun v _ => ?_
    rw [Variable.hoisted?]
    split <;> rfl
  rw [EcmaStack.inScope, openScope, hnone]
  split
  · refine h.bind fun c hc => .ok ?_
    rw [List.append_nil]
    exact hc.within
  · exact h

/-- An evaluation whose value is dropped. -/
theorem evaluated (h : e.Evaluated s c) :
    Realizes s (fun _ _ _ trace => (trace ++ [Site.value e], .normal)) (c ++ Code.op .pop) := by
  refine ⟨Skeleton.evaluation e c h.present ++ Segments.ofCode (Code.op .pop), ?_,
    (Skeleton.Faithful.evaluation h).append (.ofCode _), fun _ _ => .evaluated⟩
  rw [Segments.code_append, Segments.code_ofCode, Skeleton.code_evaluation]

/-- The head of a counted loop. -/
theorem start {n : Node} (hcode : Node.lowerStart s (some n) = .ok c) (present : c ≠ []) :
    Realizes s (fun _ _ _ trace => (trace ++ [Site.start n], .normal)) c :=
  ⟨[.whole (.start n) c present], List.append_nil c, .whole (x := Site.start n) hcode present,
    fun _ _ => .start⟩

/-- The bodies of a switch, each cut on its own. -/
private theorem bodies {cases : List CaseClause} {codes : List Code}
    (h :
      List.Forall₂ (fun c (k : CaseClause) => Realizes s
        (fun _ o fuel => Stmt.runList o fuel k.consequent) c) codes
      cases) :
    ∃ bodies : List Skeleton, bodies.map Segments.code = codes ∧
    Skeleton.Faithful s bodies.flatten ∧
      ∀ (V : Type) (o : Oracle V),
        List.Forall₂ (fun (b : Skeleton) c => b.Performs o fun fuel => Stmt.runList o fuel
          c.consequent) bodies cases := by
  induction h with
  | nil => exact ⟨[], rfl, .nil, fun _ _ => .nil⟩
  | cons hfirst _ ih =>
    obtain ⟨f, rfl, hf, hperforms⟩ := hfirst
    obtain ⟨rest, rfl, hrest, hall⟩ := ih
    exact ⟨f :: rest, rfl, hf.append hrest, fun V o => .cons (hperforms V o) (hall V o)⟩

/-- The tests of a switch are faithful one by one. -/
theorem dispatch_faithful {fallback : Nat} {clauses : List (Option Tested × Nat)}
    (h : ∀ t body, (some t, body) ∈ clauses → t.expr.Evaluated s t.code) :
    (Skeleton.dispatch fallback clauses).Faithful s := by
  induction clauses with
  | nil => exact .ofCode _
  | cons clause rest ih =>
    have hrest := ih fun t body hmem => h t body (List.mem_cons_of_mem _ hmem)
    obtain ⟨test, body⟩ := clause
    cases test with
    | none => exact hrest
    | some t =>
      have ht := Skeleton.Faithful.evaluation (h t body List.mem_cons_self)
      have hcompare :=
        ((Segments.Faithful.ofCode (Code.pick 1)).append ht).append (.ofCode (Code.op .strictEqual))
      exact (hcompare.append ((Segments.Faithful.ofCode _).append
        ((Segments.Faithful.ofCode _).append
        (.ofCode _)))).append ((Segments.Faithful.ofCode _).append hrest)

/-- A switch, but for the frame around it. -/
theorem switch (h : e.Evaluated s c) {tests : List (Option Tested)} {codes : List Code}
    {cases : List CaseClause} (htests : tests.map (·.map Tested.expr) = cases.map CaseClause.test)
    (hevaluated : ∀ t, some t ∈ tests → t.expr.Evaluated s t.code)
    (hbodies :
      List.Forall₂ (fun c (k : CaseClause) => Realizes s
        (fun _ o fuel => Stmt.runList o fuel k.consequent) c)
      codes cases) :
    Makes (Realizes s fun _ o fuel trace => evaluating o e trace fun v trace =>
      let (trace, first) := firstClause o v cases trace
      inTurn ((CaseClause.courses o fuel cases).drop first) trace)
      (switchCode c (tests.map (·.map Tested.code)) codes) := by
  intro d hd
  obtain ⟨bodies, rfl, hfaithful, hperforms⟩ := bodies hbodies
  refine ⟨Skeleton.selection (Skeleton.evaluation e c h.present) tests bodies, ?_, ?_, fun V o =>
    .selection htests (hperforms V o)⟩
  · have hlength : tests.length = bodies.length := by
      have hcases := congrArg List.length htests
      rw [List.length_map, List.length_map, ← hbodies.length_eq, List.length_map] at hcases
      exact hcases
    refine Skeleton.code_selection hlength ?_
    rw [Skeleton.code_evaluation]
    exact hd
  · refine (((Skeleton.Faithful.evaluation h).append (dispatch_faithful ?_)).append
      hfaithful).append (.ofCode _)
    exact fun t body hmem => hevaluated t (List.of_mem_zip hmem).1

end Realizes

end EcmaStack

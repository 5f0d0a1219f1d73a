import EcmaStack.Lowering.Tree
import EcmaStack.Proofs.Evaluation.Values

/-!
# The code of basic expressions

Basic expressions are never refused, and their code pushes their value. As a target a basic
expression has a reference that puts the values of its location on the stack. Both are shown for
every form of expression from its parts.
-/

namespace EcmaStack

open Code

/-- There is a result, and it has the property. -/
def Gives {α : Type} (P : α → Prop) (x : Except WriteFault α) : Prop :=
  ∃ a, x = .ok a ∧ P a

namespace Gives

variable {α β : Type} {P : α → Prop} {R : β → Prop} {x : Except WriteFault α}

/-- The laws of a lowering that gives code: when it answers, -/
theorem ok {a : α} (h : P a) : Gives P (.ok a) :=
  ⟨a, rfl, h⟩

/-- and when one lowering follows another. -/
theorem bind {f : α → Except WriteFault β} (hx : Gives P x) (hf : ∀ a, P a → Gives R (f a)) :
    Gives R (x >>= f) := by
  obtain ⟨a, rfl, ha⟩ := hx
  exact hf a ha

end Gives

variable {V : Type} {w : World V}

/-! ## Operators -/

namespace Kind

variable {k : Kind} {o : Opcode}

/-- The two forms of binary operators: those that may do without their right operand, and those
with an operation. -/
inductive BinaryForm (w : World V) (k : Kind) : Prop where
  | logical {o : Opcode} {decided : V → Bool} (hshort : k.shortCircuit? = some o)
    (hdecided : w.decided k = some decided)
    (hjumps : o.jumps? w = some decided)
  | strict {o : Opcode} (hshort : k.shortCircuit? = none) (hdecided : w.decided k = none)
    (hopcode : k.binaryOpcode? = some o)

/-- Every binary operator is written in one of these forms. -/
theorem binaryForm (h : k.binaryPrecedence ≠ 0) : k.BinaryForm w := by
  cases k with
  | punct p =>
    cases p with
    | logicalAnd | logicalOr | coalesce => exact .logical rfl rfl rfl
    | _ => first | exact absurd rfl h | exact .strict rfl rfl rfl
  | keyword word =>
    cases word with
    | inWord | instanceofWord => exact .strict rfl rfl rfl
    | _ => exact absurd rfl h
  | _ => exact absurd rfl h

/-- The opcodes of the operators are answered by the world's operation of the same name. -/
theorem answer_of_binaryOpcode? (h : k.binaryOpcode? = some o) (a b : V) (below : List V) :
    o.answer? [] (b :: a :: below) = some (.binary k a b, below) := by
  unfold binaryOpcode? at h
  split at h <;> cases h <;> rfl

theorem answer_of_unaryOpcode? (h : k.unaryOpcode? = some o) (v : V) (below : List V) :
    o.answer? [] (v :: below) = some (.unary k v, below) := by
  unfold unaryOpcode? at h
  split at h <;> cases h <;> rfl

/-- Every unary operator but the deletion has an opcode. -/
theorem exists_unaryOpcode? (h : Parse.isUnaryOperator k = true)
    (hdelete : k ≠ .keyword .deleteWord) :
    ∃ o, k.unaryOpcode? = some o := by
  unfold Parse.isUnaryOperator at h
  split at h
  any_goals exact ⟨_, rfl⟩
  · exact absurd rfl hdelete
  · cases h

/-- A compound assignment is spelled as its operator is. -/
theorem compounded_eq_binary (h : k.isAssignment = true) (hassign : k ≠ .punct .assign) :
    k.compounded = k.binary ∧ k.binary.binaryPrecedence ≠ 0 := by
  cases k with
  | punct p =>
    revert h hassign
    cases p <;> decide
  | _ => cases h

end Kind

/-! ## Members -/

namespace Member

variable {base property : Expr} {computed optional : Bool} {object : Use → Lowering}
    {value : Lowering}
  {x y : Evaluation V V}

/-- A member is located by its object and its key, in this order, -/
theorem reference_locates (hobject : base.isSuper = false →
    ∀ use, Gives (Pushes w · x) (object use))
    (hkey : Gives (Pushes w · (if computed then y else return w.text (property.keyText?.getD [])))
      (property.asKey computed value)) :
    Gives (Reference.Locates w · (Location.ofMember w base property computed x y))
      (Member.of base property computed optional object value).reference := by
  rw [reference, Member.of, Location.ofMember]
  cases hsuper : base.isSuper with
  | true =>
    exact hkey.bind fun key hpushes => .ok ⟨hpushes.closed, fun _ => .superField _, hpushes.brings⟩
  | false =>
    refine (hobject hsuper .value).bind fun object hobject => hkey.bind fun key hpushes => .ok ?_
    have hclosed : (object ++ key).Closed := closed_append.mpr ⟨hobject.closed, hpushes.closed⟩
    cases hprivate : property.isPrivateKey computed with
    | true =>
      exact ⟨hclosed, fun _ => .privateField _ _, fun m => (hobject.brings m).append
        (hpushes.brings _)⟩
    | false =>
      exact ⟨hclosed, fun _ => .field _ _, fun m => (hobject.brings m).append (hpushes.brings _)⟩

/-- and read through them. -/
theorem read_pushes (hobject : base.isSuper = false → ∀ use, Gives (Pushes w · x) (object use))
    (hkey : Gives (Pushes w · (if computed then y else return w.text (property.keyText?.getD [])))
      (property.asKey computed value)) :
    Gives (Pushes w · (do
      let l ← Location.ofMember w base property computed x y
      l.read w)) (Member.of base property computed false object value).read := by
  rw [read, Member.of, Location.ofMember]
  cases hsuper : base.isSuper with
  | true => exact hkey.bind fun key hpushes => .ok (hpushes.ask fun _ _ => rfl)
  | false =>
    refine (hobject hsuper .link).bind fun object hobject => hkey.bind fun key hpushes => .ok ?_
    simp only [optionalExit, Bool.false_eq_true, if_false, List.append_nil, getter]
    cases hprivate : property.isPrivateKey computed with
    | true => exact hobject.ask_two hpushes fun _ _ _ => rfl
    | false => exact hobject.ask_two hpushes fun _ _ _ => rfl

end Member

/-- A key is pushed as its name, or evaluated where it is computed. -/
theorem Expr.asKey_pushes {key : Expr} {computed : Bool} {value : Lowering} {y : Evaluation V V}
    (hname : computed = false → key.isMemberName = true)
    (hvalue : computed = true → Gives (Pushes w · y) value) :
    Gives (Pushes w · (if computed then y else return w.text (key.keyText?.getD []))) (key.asKey
      computed value) := by
  cases computed with
  | true => exact hvalue rfl
  | false =>
    have hkey := hname rfl
    cases key with
    | identifier n => exact .ok (.string n.text)
    | privateName n => exact .ok (.string ("#" ++ n.text))
    | _ => cases hkey

/-! ## Templates -/

/-- The codes of expressions join them to the text on top, with the texts between them. -/
def Joins (w : World V) (codes : List Code) (expressions : List Expr) : Prop :=
  ∀ quasis : List TemplateElement, quasis.length = expressions.length →
    (templateCode.joined quasis codes).Closed ∧
      ∀ (text : V) (stack : List V) (trace : List (Action V)),
      Brings w (templateCode.joined quasis codes) ⟨text :: stack, trace⟩
        (.push ⟨stack, trace⟩ (Expr.evaluateJoined w text quasis expressions))

namespace Joins

/-- Codes that push the values of a list, one by one. -/
theorem nil : Joins w [] [] := by
  intro quasis hlength
  obtain rfl := List.length_eq_zero_iff.mp hlength
  exact ⟨closed_nil, fun _ _ _ => .nil⟩

theorem cons {c : Code} {codes : List Code} {e : Expr} {rest : List Expr}
    (hc : c.Pushes w (e.evaluate w)) (hrest : Joins w codes rest) :
    Joins w (c :: codes) (e :: rest) := by
  intro quasis hlength
  obtain ⟨q, quasis, rfl⟩ := List.exists_cons_of_length_eq_add_one hlength
  obtain ⟨hclosed, hjoined⟩ := hrest quasis (Nat.succ.inj hlength)
  refine ⟨by simp [templateCode.joined, hc.closed, hclosed], fun text stack trace => ?_⟩
  have hconcat (a b : V) (trace : List (Action V)) : Brings w (op .concat) ⟨b :: a :: stack, trace⟩
      (.push ⟨stack, trace⟩ (w.ask (.concat a b))) := .asks rfl
  have hvalue := (hc.brings ⟨text :: stack, trace⟩).append (hconcat _ _ _)
  exact ((hvalue.append .string).append (hconcat _ _ _)).append (hjoined _ stack _)

end Joins

/-! ## Expressions -/

/-- A basic member is not optional, and its parts are basic. -/
theorem Expr.isBasic_member {span : Span} {base property : Expr} {computed optional : Bool}
    (h : (Expr.member span base property computed optional).isBasic = true) :
    optional = false ∧ (base.isSuper = false → base.isBasic = true) ∧
      (computed = true → property.isBasic = true) ∧
      (computed = false → property.isMemberName = true) := by
  obtain ⟨hlink, hproperty⟩ := Bool.and_eq_true_iff.mp h
  obtain ⟨hoptional, hbase⟩ := Bool.and_eq_true_iff.mp hlink
  have hobject := (Bool.or_eq_true_iff.mp hbase).resolve_left
  refine ⟨Bool.not_eq_true' _ ▸ hoptional, fun hsuper => hobject (Bool.not_eq_true _ ▸ hsuper),
    ?_, ?_⟩
  · rintro rfl
    exact hproperty
  · rintro rfl
    exact hproperty

/-- A basic expression has no optional link. -/
theorem Expr.isOptionalChain_of_isBasic (e : Expr) (h : e.isBasic = true) :
    e.isOptionalChain = false := by
  cases e with
  | member span base property computed optional =>
    obtain ⟨rfl, hbase, -⟩ := isBasic_member h
    cases hsuper : base.isSuper with
    | true =>
      cases base with
      | superRef => rfl
      | _ => cases hsuper
    | false => exact isOptionalChain_of_isBasic base (hbase hsuper)
  | call => cases h
  | _ => rfl

-- The induction is on the tree. A base that is `super` and a property that is a name have no
-- code of their own, so nothing is assumed of them.

mutual

/-- A basic expression has code that pushes its value, whatever the value is used for. -/
theorem Expr.lower_pushes (w : World V) (s : CodeSite) (e : Expr) (h : e.isBasic = true)
    (use : Use) :
    Gives (Pushes w · (e.evaluate w)) (e.lower s use) := by
  cases e with
  | identifier n => exact .ok (.load n.text)
  | nullLiteral => exact .ok (.constant rfl)
  | boolean _ b => cases b <;> exact .ok (.constant rfl)
  | number _ _ x => exact .ok (.number x)
  | string l => exact .ok (.string l.value)
  | thisRef => exact .ok .this
  | template t =>
    -- A template has one literal part more than it has expressions, so there is a first one to
    -- push.
    obtain ⟨_, quasis, expressions⟩ := t
    obtain ⟨hlength, hexpressions⟩ := Bool.and_eq_true_iff.mp h
    obtain ⟨first, quasis, rfl⟩ := List.exists_cons_of_length_eq_add_one (beq_iff_eq.mp hlength)
    refine (Expr.lowerList_joins w s expressions hexpressions).bind fun codes hcodes => .ok ?_
    obtain ⟨hclosed, hjoined⟩ := hcodes quasis (Nat.succ.inj (beq_iff_eq.mp hlength))
    exact ⟨closed_append.mpr ⟨closed_string _, hclosed⟩, fun m => Brings.string.append
      (hjoined _ m.stack m.trace)⟩
  | paren _ e => exact Expr.lower_pushes w s e h .value
  | member _ base property computed optional =>
    obtain ⟨rfl, hbase, hcomputed, hname⟩ := isBasic_member h
    have hobject := fun hsuper use => Expr.lower_pushes w s base (hbase hsuper) use
    have hkey := asKey_pushes hname fun hc => Expr.lower_pushes w s property (hcomputed hc) .value
    exact (Member.read_pushes hobject hkey).bind fun code hcode => .ok (hcode.finish use)
  | unary span op e =>
    obtain ⟨hoperator, he⟩ := Bool.and_eq_true_iff.mp h
    obtain ⟨hop, hdelete⟩ := Bool.and_eq_true_iff.mp hoperator
    obtain ⟨o, ho⟩ := Kind.exists_unaryOpcode? hop (bne_iff_ne.mp hdelete)
    -- Deletion has a lowering of its own; no basic expression deletes.
    change Gives _ (if op == .keyword .deleteWord then _
      else match op.unaryOpcode? with | some o => _ | none => _)
    rw [if_neg (bne_iff_ne.mp hdelete ∘ beq_iff_eq.mp), ho]
    exact (Expr.lower_pushes w s e he .value).bind fun code hcode =>
      .ok (hcode.ask (Kind.answer_of_unaryOpcode? ho))
  | binary span op left right =>
    obtain ⟨hoperands, hright⟩ := Bool.and_eq_true_iff.mp h
    obtain ⟨hop, hleft⟩ := Bool.and_eq_true_iff.mp hoperands
    have hleft := Expr.lower_pushes w s left hleft .value
    have hright := Expr.lower_pushes w s right hright .value
    change Gives (Pushes w · (if op == .punct .comma then _ else _))
      (if op == .punct .comma then _ else _)
    -- The comma is no operator of the machine: it drops what stands before it.
    by_cases hcomma : (op == .punct .comma) = true
    · rw [if_pos hcomma, if_pos hcomma]
      exact hleft.bind fun a ha => hright.bind fun b hb => .ok (ha.comma hb)
    · rw [if_neg hcomma, if_neg hcomma]
      have hprecedence := (Bool.or_eq_true_iff.mp hop).resolve_left hcomma
      cases Kind.binaryForm (w := w) (bne_iff_ne.mp hprecedence) with
      | logical hshort hdecided hjumps =>
        rw [hshort, hdecided]
        exact hleft.bind fun a ha => hright.bind fun b hb => .ok (.logical hjumps ha hb)
      | strict hshort hdecided hopcode =>
        simp only [hshort, hdecided, hopcode]
        exact hleft.bind fun a ha => hright.bind fun b hb =>
          .ok (ha.ask_two hb (Kind.answer_of_binaryOpcode? hopcode))
  | conditional span test consequent alternate =>
    obtain ⟨hfirst, halternate⟩ := Bool.and_eq_true_iff.mp h
    obtain ⟨htest, hconsequent⟩ := Bool.and_eq_true_iff.mp hfirst
    refine (Expr.lower_pushes w s test htest .value).bind fun a ha => ?_
    refine (Expr.lower_pushes w s consequent hconsequent .value).bind fun b hb => ?_
    exact (Expr.lower_pushes w s alternate halternate .value).bind fun c hc => .ok (ha.choice hb hc)
  | assign span op target value =>
    cases target with
    | target e =>
      obtain ⟨hstored, hvalue⟩ := Bool.and_eq_true_iff.mp h
      obtain ⟨hassigned, htarget⟩ := Bool.and_eq_true_iff.mp hstored
      obtain ⟨hop, he⟩ := Bool.and_eq_true_iff.mp hassigned
      have hreference := Expr.reference_locates w s .assignmentTarget e he htarget
      have hvalue := fun use => Expr.lower_pushes w s value hvalue use
      -- A plain assignment evaluates its value only; a compound one is a binary operation on the
      -- old one.
      by_cases hassign : op = .punct .assign
      · subst hassign
        exact hreference.bind fun r hr => (hvalue r.target.use).bind fun c hc => .ok (hr.assign hc)
      · obtain ⟨hcompounded, hprecedence⟩ := Kind.compounded_eq_binary hop hassign
        have hassign : (op == .punct .assign) = false := beq_eq_false_iff_ne.mpr hassign
        change Gives (Pushes w · (do let l ← e.locate w; if op == .punct .assign then _ else _))
          (if op == .punct .assign && _ then _
            else do let r ← e.reference s _; if op == .punct .assign then _ else _)
        rw [hassign, hcompounded]
        cases Kind.binaryForm (w := w) hprecedence with
        | logical hshort hdecided hjumps =>
          simp only [hshort, hdecided]
          exact hreference.bind fun r hr => (hvalue r.target.use).bind fun c hc =>
            .ok (hr.assignUnless hc hjumps)
        | strict hshort hdecided hopcode =>
          simp only [hshort, hdecided, hopcode]
          refine hreference.bind fun r hr => (hvalue .value).bind fun c hc => .ok ?_
          exact hr.compound hc (Kind.answer_of_binaryOpcode? hopcode)
    | _ => cases h
  | update span op e before =>
    obtain ⟨hoperand, htarget⟩ := Bool.and_eq_true_iff.mp h
    obtain ⟨-, he⟩ := Bool.and_eq_true_iff.mp hoperand
    exact (Expr.reference_locates w s _ e he htarget).bind fun r hr => .ok (hr.update _ _)
  | _ => cases h

/-- A basic expression that can be assigned to has code for its location. -/
theorem Expr.reference_locates (w : World V) (s : CodeSite) (cause : WriteCause) (e : Expr)
    (h : e.isBasic = true) (htarget : e.simpleTarget?.isSome = true) :
    Gives (Reference.Locates w · (e.locate w)) (e.reference s cause) := by
  cases e with
  | identifier n => exact .ok ⟨closed_nil, fun _ => .binding n.text, fun _ => .nil⟩
  | paren _ e => exact Expr.reference_locates w s cause e h htarget
  | member span base property computed optional =>
    obtain ⟨rfl, hbase, hcomputed, hname⟩ := isBasic_member h
    have hobject := fun hsuper use => Expr.lower_pushes w s base (hbase hsuper) use
    have hkey := asKey_pushes hname fun hc => Expr.lower_pushes w s property (hcomputed hc) .value
    have hchain : base.isOptionalChain = false :=
      Expr.isOptionalChain_of_isBasic (.member span base property computed false) h
    rw [reference, hchain, Bool.or_self, if_neg Bool.false_ne_true]
    exact Member.reference_locates hobject hkey
  | _ => cases htarget

/-- The arguments of a call are lowered to codes that push them in their order. -/
theorem Expr.lowerList_joins (w : World V) (s : CodeSite) (es : List Expr)
    (h : Expr.allBasic es = true) :
    Gives (Joins w · es) (Expr.lowerList s es) := by
  cases es with
  | nil => exact .ok .nil
  | cons e rest =>
    obtain ⟨he, hrest⟩ := Bool.and_eq_true_iff.mp h
    refine (Expr.lower_pushes w s e he .value).bind fun code hcode => ?_
    exact (Expr.lowerList_joins w s rest hrest).bind fun codes hcodes => .ok (.cons hcode hcodes)

end

/-- A basic expression has code, and a machine that runs through the code comes to the value of
the expression, pushed on what was on the stack, and to its trace, in every world, wherever the
code stands and whatever the machine held before. -/
theorem Expr.lower_evaluates {e : Expr} (h : e.isBasic = true) (s : CodeSite) (use : Use) :
    ∃ code, e.lower s use = .ok code ∧
    ∀ (V : Type) (w : World V) (before after : Code) (m : Memory V),
      Machine.Reaches w (before ++ code ++ after) ⟨before.size, m⟩
        ⟨before.size + code.size, ⟨(e.evaluate w m.trace).1 :: m.stack,
          (e.evaluate w m.trace).2⟩⟩ := by
  -- That there is code needs some world; that it is the same code in every world is that
  -- lowering is a function.
  let silent : World Unit := ⟨fun _ => (), fun _ => (), fun _ => false, fun _ => false⟩
  obtain ⟨code, hcode, -⟩ := Expr.lower_pushes silent s e h use
  refine ⟨code, hcode, fun V w before after m => ?_⟩
  obtain ⟨code', hcode', hpushes⟩ := Expr.lower_pushes w s e h use
  obtain rfl : code = code' := Except.ok.inj (hcode.symm.trans hcode')
  exact hpushes.brings m before after

/-- A member that is assigned unless it is there, `o.k ??= f ? -x : p[y++]`. -/
def guardedAssignment : Expr :=
  let name (x : String) : Expr := .identifier ⟨{}, x⟩
  let changed : Expr := .update {} (.punct .increment) (name "y") false
  let chosen : Expr := .conditional {} (name "f") (.unary {} (.punct .minus) (name "x"))
    (.member {} (name "p") changed true false)
  .assign {} (.punct .coalesceAssign) (.target (.member {} (name "o") (name "k") false false))
    chosen

theorem Expr.lower_evaluates_guardedAssignment :
    guardedAssignment.isBasic = true ∧
      ∃ code, guardedAssignment.lower ⟨.ofString "guarded.js" "", [], true, false, none⟩ .value =
        .ok code ∧
        ∀ (V : Type) (w : World V) (before after : Code) (m : Memory V),
          Machine.Reaches w (before ++ code ++ after) ⟨before.size, m⟩
            ⟨before.size + code.size,
              ⟨(guardedAssignment.evaluate w m.trace).1 :: m.stack,
                (guardedAssignment.evaluate w m.trace).2⟩⟩ :=
  ⟨by decide, Expr.lower_evaluates (by decide) _ _⟩

end EcmaStack

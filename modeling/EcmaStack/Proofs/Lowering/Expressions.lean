import EcmaStack.Lowering.Tree
import EcmaStack.Proofs.Lowering.Branches
import EcmaStack.Proofs.Lowering.Members
import EcmaStack.Proofs.Tree.Resolved

/-!
# The code of expressions

`Expr.Sound` says what the code of an expression does at every site where instances are
initialized soundly: it is one more value, or the next link of a chain. Since calls, tags,
updates and assignments look into an expression, it also says so of the member and of the target
that the expression may be. Every form of expression is sound when its parts are, and likewise
for patterns, properties and parameters.
-/

namespace EcmaStack

open Code

/-- What the code of an expression does, in each of the places it may stand in. -/
structure Expr.Sound (e : Expr) : Prop where
  lower : ∀ s : CodeSite, s.Sound → ∀ use, Lowers use.Typed (e.lower s use)
  called : ∀ s : CodeSite, s.Sound → ∀ m direct, e.calledMember? s = some (m, direct) → m.Sound
  bare : ∀ s : CodeSite, s.Sound → ∀ m, e.bareMember? s = some m → m.Sound
  reference : ∀ s : CodeSite, s.Sound → ∀ cause, Lowers Reference.Typed (e.reference s cause)
  item : ∀ s : CodeSite, s.Sound → ∀ rest, Lowers (Moves · 1 1) (Expr.lowerItems s rest) →
    Lowers (Moves · 1 1) (Expr.lowerItems s (e :: rest))

/-- The code of a pattern takes one value; as a target of an assignment it puts its own values
on the stack. -/
structure Pattern.Sound (p : Pattern) : Prop where
  lower : ∀ s : CodeSite, s.Sound → Lowers (Moves · 1 0) (p.lower s)
  reference : ∀ s : CodeSite, s.Sound → Lowers Reference.Typed (p.reference s)

/-- The code of a property puts it into the object on top. -/
def Property.Sound (p : Property) : Prop :=
  ∀ s : CodeSite, s.Sound → Lowers (Moves · 1 1) (p.lower s)

/-- The code of an element takes the next value of the iterator on top. -/
def Element.Sound (e : Element) : Prop :=
  ∀ s : CodeSite, s.Sound → Lowers (Moves · 1 1) (e.lower s)

/-- A way to read a property keeps so many operands, whatever its parts are. -/
def ReadsProperty (shape : Code → Code → Code → Code) (n : Nat) : Prop :=
  ∀ {key fallback bind : Code}, Moves key 0 1 → Moves fallback 1 1 → Moves bind 1 0 →
    Moves (shape key fallback bind) n n

/-- The code of a property of a pattern, read off in any of the ways there are. -/
def PatternProperty.Sound (p : PatternProperty) : Prop :=
  ∀ s : CodeSite, s.Sound → ∀ shape n, ReadsProperty shape n →
    Lowers (Moves · n n) (p.lower s shape)

/-- The code of parameters leaves the stack as it was. -/
def Params.Sound (p : Params) : Prop :=
  ∀ s : CodeSite, s.Sound → Lowers (Moves · 0 0) (p.lower s)

/-- The code of a body ends with the value to give back, and the functions it declares have code. -/
structure Body.Sound (b : Body) : Prop where
  lower : ∀ s : CodeSite, s.Sound → Lowers (Moves · 0 1) (b.lower s)
  hoisted : ∀ s : CodeSite, s.Sound → Hoisted.Sound (b.hoisted s)

/-- What is known of a function, whose parts may also be those of a constructor. -/
structure Function.Sound (f : Function) : Prop where
  lower : ∀ s : CodeSite, s.Sound → ∀ use, Lowers (Moves · 0 1) (f.lower s use)
  params : f.params.Sound
  body : f.body.Sound

/-- The code of a class is one more value. -/
def Class.Sound (c : Class) : Prop :=
  ∀ s : CodeSite, s.Sound → ∀ use, Lowers (Moves · 0 1) (c.lower s use)

/-- Whether an expression is no member, no target and no special part of a list. -/
def Expr.isPlain : Expr → Bool
  | .missing | .identifier _ | .member _ _ _ _ _ | .paren _ _ | .spread _ _ => false
  | _ => true

/-- An element that is neither missing nor spread is appended. -/
theorem Expr.lowerItems_of_isPlain {e : Expr} (h : e.isPlain = true) (s : CodeSite)
    (rest : List Expr) :
    Expr.lowerItems s (e :: rest) = do
    return (← e.lower s .value) ++ op .append ++ (← Expr.lowerItems s rest) := by
  cases e with
  | missing | identifier | member | paren | spread => cases h
  | _ => rfl

namespace Expr.Sound

variable {e : Expr}

/-- A plain expression is sound when it is one more value. -/
theorem of_moves (hplain : e.isPlain = true)
    (hlower : ∀ s : CodeSite, s.Sound → ∀ use, Lowers (Moves · 0 1) (e.lower s use)) : e.Sound where
  lower s hs use := (hlower s hs use).mono fun c hc => use.typed_of_moves hc
  called s _ m direct h := by
    cases e with
    | missing | identifier | member | paren | spread => cases hplain
    | _ => cases h
  bare s _ m h := by
    cases e with
    | missing | identifier | member | paren | spread => cases hplain
    | _ => cases h
  reference s _ cause := by
    cases e with
    | missing | identifier | member | paren | spread => cases hplain
    | _ => exact .refuse _ cause
  item s hs rest hrest := by
    rw [Expr.lowerItems_of_isPlain hplain]
    refine (hlower s hs .value).bind fun c hc => ?_
    refine hrest.bind fun d hd => .ok ?_
    have happend : Moves (op .append) 2 1 := moves_of_height? rfl
    exact ((hc.lift 1).append happend).append hd

/-- The value of a sound expression. -/
theorem value (h : e.Sound) {s : CodeSite} (hs : s.Sound) :
    Lowers (Moves · 0 1) (e.lower s .value) :=
  h.lower s hs .value

/-- A value that may get a name. -/
theorem named (h : e.Sound) {s : CodeSite} (hs : s.Sound) {use : Use} (huse : use ≠ .link) :
    Lowers (Moves · 0 1) (e.lower s use) :=
  (h.lower s hs use).mono fun _ hc => hc.moves huse

/-- Code that is the same whatever it is used for. -/
theorem of_code {c : Code} (hplain : e.isPlain = true) (hlower : ∀ s use, e.lower s use = .ok c)
    (hc : Moves c 0 1) :
    e.Sound := by
  refine of_moves hplain fun s _ use => ?_
  rw [hlower s use]
  exact .ok hc

end Expr.Sound

theorem Use.value_ne_link : Use.value ≠ .link :=
  Use.noConfusion

/-- What is bound to a name is no link of a chain. -/
theorem Pattern.use_ne_link (p : Pattern) : p.use ≠ .link := by
  unfold Pattern.use
  split <;> exact Use.noConfusion

theorem Target.use_ne_link (t : Target) : t.use ≠ .link := by
  cases t <;> exact Use.noConfusion

theorem Expr.keyUse_ne_link (e : Expr) (computed : Bool) : e.keyUse computed ≠ .link := by
  cases computed <;> exact Use.noConfusion

/-! ## Parts that may be missing, and lists of parts -/

section Lists

variable {s : CodeSite}

/-- A part that may be missing leaves one value if it is there. -/
theorem Expr.lowerOption_lowers (hs : s.Sound) {use : Use} (huse : use ≠ .link) {o : Option Expr}
    (h : ∀ e ∈ o, e.Sound) :
    Lowers (fun c : Option Code => c.isSome = o.isSome ∧ ∀ d ∈ c, Moves d 0 1)
      (Expr.lowerOption s use o) := by
  cases o with
  | none =>
    refine .ok ⟨rfl, ?_⟩
    rintro _ ⟨⟩
  | some e =>
    refine ((h e rfl).named hs huse).bind fun c hc => .ok ⟨rfl, ?_⟩
    rintro _ ⟨⟩
    exact hc

/-- Each value of a list is left by itself. -/
theorem Expr.lowerList_lowers (hs : s.Sound) {list : List Expr} (h : ∀ e ∈ list, e.Sound) :
    Lowers (fun codes : List Code => ∀ c ∈ codes, Moves c 0 1) (Expr.lowerList s list) := by
  induction list with
  | nil =>
    refine .ok ?_
    rintro _ ⟨⟩
  | cons e rest ih =>
    refine ((h e List.mem_cons_self).value hs).bind fun c hc => ?_
    refine (ih fun d hd => h d (List.mem_cons_of_mem _ hd)).bind fun codes hcodes => .ok ?_
    intro d hd
    rcases List.mem_cons.mp hd with rfl | hd
    · exact hc
    · exact hcodes d hd

/-- Items are appended to the array below them, which stays on top. -/
theorem Expr.lowerItems_lowers (hs : s.Sound) {list : List Expr} (h : ∀ e ∈ list, e.Sound) :
    Lowers (Moves · 1 1) (Expr.lowerItems s list) := by
  induction list with
  | nil => exact .ok .nil
  | cons e rest ih =>
    exact (h e List.mem_cons_self).item s hs rest (ih fun d hd => h d (List.mem_cons_of_mem _ hd))

/-- A default replaces the value on top or leaves it. -/
theorem Expr.lowerFallback_lowers (hs : s.Sound) {use : Use} (huse : use ≠ .link) {o : Option Expr}
    (h : ∀ e ∈ o, e.Sound) : Lowers (Moves · 1 1) (Expr.lowerFallback s use o) := by
  cases o with
  | none => exact .ok .nil
  | some e => exact ((h e rfl).named hs huse).bind fun c hc => .ok (fallback_moves hc)

/-- A key is one value. -/
theorem Expr.asKey_lowers {e : Expr} (h : e.Sound) (hs : s.Sound) (computed : Bool) :
    Lowers (Moves · 0 1) (e.asKey computed (e.lower s .value)) := by
  rw [Expr.asKey]
  split
  · exact h.value hs
  · unfold Expr.plainKey
    split
    · exact .ok (numberCode_moves _)
    · exact .ok (string_moves _)
    · split
      · exact .ok (string_moves _)
      · exact .refuse _ _

theorem Property.lowerList_lowers (hs : s.Sound) {list : List Property} (h : ∀ p ∈ list, p.Sound) :
    Lowers (Moves · 1 1) (Property.lowerList s list) := by
  induction list with
  | nil => exact .ok .nil
  | cons p rest ih =>
    refine (h p List.mem_cons_self s hs).bind fun c hc => ?_
    exact (ih fun q hq => h q (List.mem_cons_of_mem _ hq)).bind fun d hd => .ok (hc.append hd)

theorem Element.lowerList_lowers (hs : s.Sound) {list : List Element} (h : ∀ e ∈ list, e.Sound) :
    Lowers (Moves · 1 1) (Element.lowerList s list) := by
  induction list with
  | nil => exact .ok .nil
  | cons e rest ih =>
    refine (h e List.mem_cons_self s hs).bind fun c hc => ?_
    exact (ih fun q hq => h q (List.mem_cons_of_mem _ hq)).bind fun d hd => .ok (hc.append hd)

/-- Properties are read off the value on top, and in one of the two shapes off the list
below it too. -/
theorem PatternProperty.lowerList_lowers (hs : s.Sound) {shape : Code → Code → Code → Code}
    {n : Nat} (hshape : ReadsProperty shape n) {list : List PatternProperty}
    (h : ∀ p ∈ list, p.Sound) :
    Lowers (Moves · n n) (PatternProperty.lowerList s shape list) := by
  induction list with
  | nil => exact .ok .nil
  | cons p rest ih =>
    refine (h p List.mem_cons_self s hs shape n hshape).bind fun c hc => ?_
    exact (ih fun q hq => h q (List.mem_cons_of_mem _ hq)).bind fun d hd => .ok (hc.append hd)

/-- The rest of an iterator is stored, and the iterator stays. -/
theorem Pattern.lowerRest_lowers (hs : s.Sound) {rest : Option Pattern} (h : ∀ p ∈ rest, p.Sound) :
    Lowers (Moves · 1 1) (Pattern.lowerRest s rest) := by
  cases rest with
  | none => exact .ok .nil
  | some p =>
    have hrest : Moves (op .rest) 1 2 := moves_of_height? rfl
    exact ((h p rfl).lower s hs).bind fun c hc => .ok (hrest.append (hc.lift 1))

end Lists

/-! ## Expressions -/

namespace Expr.Sound

variable {e left right : Expr} {span : Span}

/-- An identifier can also be assigned to. -/
theorem identifier (n : Name) : (Expr.identifier n).Sound where
  lower s _ use := .ok (use.typed_of_moves (load_moves n.text))
  called s _ m direct h := by cases h
  bare s _ m h := by cases h
  reference s _ cause := .ok .nil
  item s _ rest hrest := by
    refine hrest.bind fun d hd => .ok ?_
    have happend : Moves (op .append) 2 1 := moves_of_height? rfl
    exact (((load_moves n.text).lift 1).append happend).append hd

/-- A missing element is a hole in an array. -/
theorem missing : Expr.missing.Sound where
  lower s _ use := .refuse _ _
  called s _ m direct h := by cases h
  bare s _ m h := by cases h
  reference s _ cause := .refuse _ _
  item s _ rest hrest := hrest.bind fun d hd => .ok (holeCode_moves.append hd)

/-- The expressions without parts. -/
theorem atom (h : e.isAtom = true) : e.Sound := by
  cases e with
  | missing => exact missing
  | identifier n => exact identifier n
  | privateName n => exact of_code rfl (fun _ _ => rfl) (string_moves ("#" ++ n.text))
  | nullLiteral span => exact of_code rfl (fun _ _ => rfl) (moves_of_height? rfl)
  | boolean span value =>
    refine of_code rfl (fun _ _ => rfl) ?_
    cases value <;> exact moves_of_height? rfl
  | number span raw value => exact of_code rfl (fun _ _ => rfl) (numberCode_moves value)
  | bigint span raw value => exact of_code rfl (fun _ _ => rfl) (moves_of_height? rfl)
  | string l => exact of_code rfl (fun _ _ => rfl) (string_moves l.value)
  | regexp span raw pattern flags => exact of_code rfl (fun _ _ => rfl) (moves_of_height? rfl)
  | thisRef span => exact of_code rfl (fun _ _ => rfl) (moves_of_height? rfl)
  | superRef span => exact of_moves rfl fun s hs use => .refuse span _
  | metaProperty span owner property =>
    exact of_code rfl (fun _ _ => rfl) (load_moves (nameText owner ++ "." ++ nameText property))
  | _ => cases h

/-- What stands in a list with dots before it is spread out. -/
theorem spread (h : e.Sound) : (Expr.spread span e).Sound where
  lower s _ use := .refuse span _
  called s _ m direct heq := by cases heq
  bare s _ m heq := by cases heq
  reference s _ cause := .refuse span cause
  item s hs rest hrest := by
    refine (h.value hs).bind fun c hc => ?_
    refine hrest.bind fun d hd => .ok ?_
    have hspread : Moves (op .spread) 2 1 := moves_of_height? rfl
    exact ((hc.lift 1).append hspread).append hd

/-- Parentheses end a chain, and what stands in them may still be called, removed and assigned
to. -/
theorem paren (h : e.Sound) : (Expr.paren span e).Sound where
  lower s hs use := (h.value hs).mono fun c hc => use.typed_of_moves hc
  called s hs m direct heq := by
    cases e with
    | member span base property computed optional =>
      change (if optional || base.isOptionalChain then none else _) = _ at heq
      split at heq
      · cases heq
      · cases heq
        exact h.called s hs _ _ rfl
    | _ => cases heq
  bare s hs m heq := h.bare s hs m heq
  reference s hs cause := h.reference s hs cause
  item s hs rest hrest := by
    refine (h.value hs).bind fun c hc => ?_
    refine hrest.bind fun d hd => .ok ?_
    have happend : Moves (op .append) 2 1 := moves_of_height? rfl
    exact ((hc.lift 1).append happend).append hd

/-- A member in a chain: its base may leave the chain, and then the member is left out. -/
theorem member {base property : Expr} {computed optional : Bool} (hbase : base.Sound)
    (hproperty : property.Sound) :
    (Expr.member span base property computed optional).Sound := by
  have hm (s : CodeSite) (hs : s.Sound) :
      (Member.of base property computed optional (fun use => base.lower s use)
      (property.lower s .value)).Sound :=
    ⟨fun use => hbase.lower s hs use, Expr.asKey_lowers hproperty hs computed⟩
  have hlower (s : CodeSite) (hs : s.Sound) (use : Use) :
      Lowers use.Typed ((Expr.member span base property computed optional).lower s use) :=
    (hm s hs).read.bind fun c hc => .ok (use.typed_finish hc)
  refine ⟨hlower, ?_, ?_, ?_, ?_⟩
  · rintro s hs m direct ⟨⟩
    exact hm s hs
  · rintro s hs m ⟨⟩
    exact hm s hs
  · intro s hs cause
    change Lowers _ (if optional || base.isOptionalChain then _ else _)
    split
    · exact .refuse span cause
    · exact (hm s hs).reference
  · intro s hs rest hrest
    refine Lowers.bind (hlower s hs .value) fun c (hc : Moves c 0 1) => ?_
    refine hrest.bind fun d hd => .ok ?_
    have happend : Moves (op .append) 2 1 := moves_of_height? rfl
    exact ((hc.lift 1).append happend).append hd

theorem template {t : Template} (h : ∀ e ∈ t.expressions, e.Sound) : (Expr.template t).Sound := by
  refine of_moves rfl fun s hs use => ?_
  obtain ⟨span, quasis, expressions⟩ := t
  change Lowers _ (if quasis.isEmpty then _ else _)
  split
  · exact .ok (string_moves "")
  · exact (Expr.lowerList_lowers hs h).bind fun codes hcodes => .ok (templateCode_moves hcodes)

/-- A template as a tag sees it is three arrays. -/
private theorem lowerParts_lowers {s : CodeSite} (hs : s.Sound) {t : Template}
    (h : ∀ e ∈ t.expressions, e.Sound) :
    Lowers (Moves · 0 3) (Template.lowerParts s t) := by
  obtain ⟨span, quasis, expressions⟩ := t
  refine (Expr.lowerList_lowers hs h).bind fun codes hcodes => .ok ?_
  have htexts (text : TemplateElement → Text) :
      Moves (arrayCode (quasis.map fun q => Code.string (text q))) 0 1 := by
    refine arrayCode_moves fun c hc => ?_
    obtain ⟨q, -, rfl⟩ := List.mem_map.mp hc
    exact string_moves (text q)
  exact ((htexts (·.cooked)).append ((htexts (·.raw)).lift 1)).append
    ((arrayCode_moves hcodes).lift 2)

theorem tagged {tag : Expr} {quasi : Template} (htag : tag.Sound)
    (hquasi : ∀ e ∈ quasi.expressions, e.Sound) :
    (Expr.tagged span tag quasi).Sound := by
  refine of_moves rfl fun s hs use => ?_
  rw [Expr.lower_tagged]
  split
  · next m direct hm =>
      exact (htag.called s hs m direct hm).tag s span (lowerParts_lowers hs hquasi)
  · refine (htag.value hs).bind fun c hc => ?_
    refine (lowerParts_lowers hs hquasi).bind fun d hd => .ok ?_
    have hcall : Moves (s.placed .tag span) 4 1 := moves_of_height? rfl
    exact (hc.append (hd.lift 1)).append hcall

theorem array {elements : List Expr} (h : ∀ e ∈ elements, e.Sound) :
    (Expr.array span elements).Sound := by
  refine of_moves rfl fun s hs use => ?_
  have hpush : Moves (op .pushArray) 0 1 := moves_of_height? rfl
  exact (Expr.lowerItems_lowers hs h).bind fun c hc => .ok (hpush.append hc)

theorem object {properties : List Property} (h : ∀ p ∈ properties, p.Sound) :
    (Expr.object span properties).Sound := by
  refine of_moves rfl fun s hs use => ?_
  have hpush : Moves (op .pushObject) 0 1 := moves_of_height? rfl
  exact (Property.lowerList_lowers hs h).bind fun c hc => .ok (hpush.append hc)

/-- A call. Of what is called, a member keeps its object and `super` has the constructor of the
superclass. -/
theorem call {callee : Expr} {arguments : List Expr} {optional : Bool} (hcallee : callee.Sound)
    (harguments : ∀ e ∈ arguments, e.Sound) : (Expr.call span callee arguments optional).Sound := by
  have hpush : Moves (op .pushArray) 0 1 := moves_of_height? rfl
  have hlower (s : CodeSite) (hs : s.Sound) (use : Use) :
      Lowers use.Typed ((Expr.call span callee arguments optional).lower s use) := by
    change Lowers _ (if callee.isSuper then _ else _)
    split
    -- A super call needs no callee; a member is called on its object; any other callee is a value.
    · refine (Expr.lowerItems_lowers hs harguments).bind fun c hc => ?_
      refine (CodeSite.superCall_lowers hs span).bind fun d hd => .ok ?_
      exact use.typed_finish ((hpush.append hc).append hd).links
    · split
      · next m direct hm =>
        have hcalled := (hcallee.called s hs m direct hm).call direct optional s span
          (Expr.lowerItems_lowers hs harguments)
        exact hcalled.bind fun c hc => .ok (use.typed_finish hc)
      · have hcall : Moves (s.placed .call span) 2 1 := moves_of_height? rfl
        refine Lowers.bind (P := fun c => Links c 0 1 ∧ (callee.isEval = true → Moves c 0 1))
          ?_ fun c hc => ?_
        · -- What is called by the name of `eval` is no chain, so that its code is complete
          -- as it stands.
          cases callee with
          | identifier n => exact .ok ⟨(load_moves n.text).links, fun _ => load_moves n.text⟩
          | _ => exact (hcallee.lower s hs .link).mono fun c hc => ⟨hc.links, fun h => nomatch h⟩
        · refine (Expr.lowerItems_lowers hs harguments).bind fun d hd => ?_
          have harguments := (hpush.append hd).lift 1
          split
          · next heval =>
            have hdirect : Moves (s.placed .directEval span) 2 1 := moves_of_height? rfl
            have hfunction := hc.2 (Bool.and_eq_true_iff.mp heval).1
            exact .ok (use.typed_of_moves ((hfunction.append harguments).append hdirect))
          · have hfunction := hc.1.append (.optionalExit optional)
            exact .ok (use.typed_finish ((hfunction.append harguments.links).append hcall.links))
  refine ⟨hlower, ?_, ?_, ?_, ?_⟩
  · rintro s hs m direct ⟨⟩
  · rintro s hs m ⟨⟩
  · exact fun s hs cause => .refuse span cause
  · intro s hs rest hrest
    refine Lowers.bind (hlower s hs .value) fun c (hc : Moves c 0 1) => ?_
    refine hrest.bind fun d hd => .ok ?_
    have happend : Moves (op .append) 2 1 := moves_of_height? rfl
    exact ((hc.lift 1).append happend).append hd

theorem construct {callee : Expr} {arguments : List Expr} (hcallee : callee.Sound)
    (harguments : ∀ e ∈ arguments, e.Sound) : (Expr.construct span callee arguments).Sound := by
  refine of_moves rfl fun s hs use => ?_
  refine (hcallee.value hs).bind fun c hc => ?_
  refine (Expr.lowerItems_lowers hs harguments).bind fun d hd => .ok ?_
  have hpush : Moves (op .pushArray) 1 2 := moves_of_height? rfl
  have hcall : Moves (s.placed .construct span) 2 1 := moves_of_height? rfl
  exact ((hc.append hpush).append (hd.lift 1)).append hcall

theorem importCall {source : Expr} {options : Option Expr} (hsource : source.Sound)
    (hoptions : ∀ e ∈ options, e.Sound) :
    (Expr.importCall span source options).Sound := by
  refine of_moves rfl fun s hs use => ?_
  refine (hsource.value hs).bind fun c hc => ?_
  refine (Expr.lowerOption_lowers hs Use.noConfusion hoptions).bind fun o ho => .ok ?_
  have hitems : ∀ d ∈ c :: o.toList, Moves d 0 1 := by
    intro d hd
    rcases List.mem_cons.mp hd with rfl | hd
    · exact hc
    · exact ho.2 d (Option.mem_toList.mp hd)
  have hcall : Moves (s.placed .call span) 2 1 := moves_of_height? rfl
  exact ((load_moves "import").append ((arrayCode_moves hitems).lift 1)).append hcall

/-- What is deleted is not evaluated for its value if it is a member. -/
theorem unary {op : Kind} (h : e.Sound) : (Expr.unary span op e).Sound := by
  refine of_moves rfl fun s hs use => ?_
  change Lowers _ (if op == .keyword .deleteWord then _ else _)
  split
  · split
    · next m hm => exact (h.bare s hs m hm).remove span
    · split
      · exact .ok (moves_of_height? rfl)
      · have hremove : Moves (Code.op .remove) 1 1 := moves_of_height? rfl
        exact (h.value hs).bind fun c hc => .ok (hc.append hremove)
  · split
    · next o ho => exact (h.value hs).bind fun c hc => .ok (hc.append (unary_moves ho))
    · exact .refuse span _

theorem await (h : e.Sound) : (Expr.await span e).Sound := by
  refine of_moves rfl fun s hs use => ?_
  have hawait : Moves (op .await) 1 1 := moves_of_height? rfl
  exact (h.value hs).bind fun c hc => .ok (hc.append hawait)

/-- An update leaves one value, and refuses a target that is none. -/
theorem update {op : Kind} {before : Bool} (h : e.Sound) :
    (Expr.update span op e before).Sound := by
  refine of_moves rfl fun s hs use => ?_
  exact (h.reference s hs _).bind fun r hr => .ok (hr.update _ before)

/-- An operator that decides by its left operand leaves that or the other. -/
theorem binary {op : Kind} (hl : left.Sound) (hr : right.Sound) :
    (Expr.binary span op left right).Sound := by
  refine of_moves rfl fun s hs use => ?_
  have hpop : Moves (Code.op .pop) 1 0 := moves_of_height? rfl
  change Lowers _ (if op == .punct .comma then _ else _)
  split
  · refine (hl.value hs).bind fun c hc => ?_
    exact (hr.value hs).bind fun d hd => .ok ((hc.append hpop).append hd)
  · split
    · next decided hdecided =>
      refine (hl.value hs).bind fun c hc => ?_
      refine (hr.value hs).bind fun d hd => .ok ?_
      have hskip : Runs .none (bypassed decided (Code.op .pop ++ d)) 1 1 :=
        Runs.bypassed (shortCircuit_isConditional hdecided) (hpop.append hd).runs
      exact hc.append hskip.moves
    · split
      · next o ho =>
        refine (hl.value hs).bind fun c hc => ?_
        exact (hr.value hs).bind fun d hd => .ok ((hc.append (hd.lift 1)).append (binary_moves ho))
      · exact .refuse span _

theorem conditional {test consequent alternate : Expr} (htest : test.Sound)
    (hconsequent : consequent.Sound) (halternate : alternate.Sound) :
    (Expr.conditional span test consequent alternate).Sound := by
  refine of_moves rfl fun s hs use => ?_
  refine (htest.value hs).bind fun c hc => ?_
  refine (hconsequent.value hs).bind fun d hd => ?_
  refine (halternate.value hs).bind fun f hf => .ok ?_
  have hchoice : Runs .none (choice c d f) 0 1 := Runs.choice hc.runs hd.runs hf.runs
  exact hchoice.moves

/-- An assignment, to a pattern that takes the value apart or to a single target. -/
theorem assign {op : Kind} {target : Pattern} {value : Expr} (htarget : target.Sound)
    (hvalue : value.Sound) :
    (Expr.assign span op target value).Sound := by
  refine of_moves rfl fun s hs use => ?_
  change Lowers _ (if op == .punct .assign && target.isDestructuring then _ else _)
  split
  · refine (hvalue.value hs).bind fun c hc => ?_
    have hpick : Moves (pick 1) 1 2 := moves_of_height? rfl
    exact (htarget.lower s hs).bind fun d hd => .ok ((hc.append hpick).append (hd.lift 1))
  · refine (htarget.reference s hs).bind fun r hr => ?_
    have hnamed := hvalue.named hs r.target.use_ne_link
    split
    · exact hnamed.bind fun c hc => .ok (hr.assign hc)
    · split
      · next decided hdecided =>
        exact hnamed.bind fun c hc => .ok (hr.assignUnless hc (shortCircuit_isConditional hdecided))
      · split
        · next o ho =>
            exact (hvalue.value hs).bind fun c hc => .ok (hr.compound hc (binary_moves ho))
        · exact .refuse span _

/-- A delegating `yield` goes round its iterator and leaves the last value. -/
theorem yield {argument : Option Expr} {delegate : Bool} (h : ∀ e ∈ argument, e.Sound) :
    (Expr.yield span argument delegate).Sound := by
  refine of_moves rfl fun s hs use => ?_
  refine (Expr.lowerOption_lowers hs Use.noConfusion h).bind fun o ho => .ok ?_
  have hvalue : Moves (o.getD (op .pushUndefined)) 0 1 := by
    cases o with
    | none => exact moves_of_height? rfl
    | some c => exact ho.2 c rfl
  have hrest : Moves (if delegate then delegateCode s.async else op .yield) 1 1 := by
    split
    · exact delegateCode_moves s.async
    · exact moves_of_height? rfl
  exact hvalue.append hrest

theorem function {f : Function} (h : f.Sound) : (Expr.function f).Sound :=
  of_moves rfl fun s hs use => h.lower s hs use

theorem classExpr {c : Class} (h : c.Sound) : (Expr.classExpr c).Sound :=
  of_moves rfl fun s hs use => h s hs use

/-- An arrow function, which shares the site's instance with its surroundings. -/
theorem arrow {params : Params} {body : Body} {value : Option Expr} {async : Bool} {env : Env}
    (hparams : params.Sound) (hbody : body.Sound) (hvalue : ∀ e ∈ value, e.Sound) :
    (Expr.arrow span params body value async env).Sound := by
  refine of_moves rfl fun s hs use => ?_
  have hinner := hs.inArrow async
  refine (openScope_lowers env.scope (hbody.hoisted s hs)).bind fun opening hopening => ?_
  refine (hparams (s.inArrow async) hinner).bind fun c hc => ?_
  have hop : Moves (op (if async then .pushAsyncLambda else .pushLambda)) 0 1 := by
    cases async <;> exact moves_of_height? rfl
  have hobject (d : Code) (hd : Moves d 0 1) :
      Moves (s.functionObject (if async then .pushAsyncLambda else .pushLambda)
      span use.name env.closure (opening ++ c ++ d ++ op .giveBack ++ op .popScope)) 0 1 := by
    refine s.functionObject_moves hop span _ _ ?_
    have h := returns_inScope hopening (hc.append hd)
    simpa only [List.append_assoc] using h
  dsimp only
  split
  · cases value with
    | none => exact .refuse _ _
    | some e => exact ((hvalue e rfl).value hinner).bind fun d hd => .ok (hobject d hd)
  · exact (hbody.lower _ hinner).bind fun d hd => .ok (hobject d hd)

end Expr.Sound

/-! ## Properties, patterns and parameters -/

theorem methodOpcode_moves (isPrivate : Bool) (kind : PropertyKind) :
    Moves (op (methodOpcode isPrivate kind)) 3 1 := by
  cases isPrivate <;> cases kind <;> exact moves_of_height? rfl

namespace Property.Sound

variable {span : Span}

/-- A property is put on the object below it, a method with the object as its own. -/
theorem keyed {key value : Expr} {computed : Bool} {kind : PropertyKind} (hkey : key.Sound)
    (hvalue : value.Sound) :
    (Property.keyed span key computed kind value).Sound := by
  intro s hs
  refine (Expr.asKey_lowers hkey hs computed).bind fun c hc => ?_
  refine (hvalue.named hs (key.keyUse_ne_link computed)).bind fun d hd => ?_
  have hboth := (hc.lift 1).append (hd.lift 2)
  split
  · have hinit : Moves (op .initField) 3 1 := moves_of_height? rfl
    exact .ok (hboth.append hinit)
  · have hclass : Moves (pick 3 ++ op .setClass) 3 3 := moves_of_height? rfl
    have h := (hboth.append hclass).append (methodOpcode_moves false kind)
    exact .ok (by simpa only [List.append_assoc] using h)

theorem short {name : Option Name} : (Property.short span name).Sound :=
  fun _ _ => .ok (moves_of_height? rfl)

theorem spread {e : Expr} (h : e.Sound) : (Property.spread span e).Sound := by
  intro s hs
  have hspread : Moves (op .spread) 2 1 := moves_of_height? rfl
  exact (h.value hs).bind fun c hc => .ok ((hc.lift 1).append hspread)

end Property.Sound

namespace Pattern.Sound

variable {span : Span}

/-- A single target takes the value on top away. -/
theorem target {e : Expr} (h : e.Sound) : (Pattern.target e).Sound where
  lower s hs := by
    have hbind : Lowers (Moves · 1 0) (do
        let r ← e.reference s .destructuringTarget
        return r.code ++ r.target.bind) :=
      (h.reference s hs _).bind fun r hr => .ok hr.bind
    cases e with
    | identifier n => exact .ok (moves_of_height? rfl)
    | _ => exact hbind
  reference s hs := h.reference s hs .assignmentTarget

/-- The iterator of an array pattern is dropped behind the rest. -/
theorem array {elements : List Element} {rest : Option Pattern}
    (helements : ∀ e ∈ elements, e.Sound) (hrest : ∀ p ∈ rest, p.Sound) :
    (Pattern.array span elements rest).Sound where
  lower s hs := by
    refine (Element.lowerList_lowers hs helements).bind fun c hc => ?_
    refine (Pattern.lowerRest_lowers hs hrest).bind fun d hd => .ok ?_
    have hiterator : Moves (op .iterator) 1 1 := moves_of_height? rfl
    have hpop : Moves (op .pop) 1 0 := moves_of_height? rfl
    exact ((hiterator.append hc).append hd).append hpop
  reference s _ := .refuse span _

/-- The list of keys is dropped with the value that they were read off. -/
theorem object {properties : List PatternProperty} {rest : Option Pattern}
    (hproperties : ∀ p ∈ properties, p.Sound) (hrest : ∀ p ∈ rest, p.Sound) :
    (Pattern.object span properties rest).Sound where
  lower s hs := by
    cases rest with
    | none =>
      have hpop : Moves (op .pop) 1 0 := moves_of_height? rfl
      refine (PatternProperty.lowerList_lowers hs propertyCode_moves hproperties).bind fun c hc =>
        ?_
      exact .ok (hc.append hpop)
    | some p =>
      refine (PatternProperty.lowerList_lowers hs listedPropertyCode_moves hproperties).bind
        fun c hc => ?_
      refine ((hrest p rfl).lower s hs).bind fun d hd => .ok ?_
      have hpush : Moves (op .pushArray) 1 2 := moves_of_height? rfl
      have hpass : Moves (op .restObject) 2 3 := moves_of_height? rfl
      exact (((hpush.append hc).append hpass).append (hd.lift 2)).append (.drop 2)
  reference s _ := .refuse span _

end Pattern.Sound

theorem Element.Sound.hole : Element.hole.Sound :=
  fun _ _ => .ok (moves_of_height? rfl)

theorem Element.Sound.bound {span : Span} {target : Pattern} {fallback : Option Expr}
    (htarget : target.Sound) (hfallback : ∀ e ∈ fallback, e.Sound) :
    (Element.bound span target fallback).Sound := by
  intro s hs
  refine (Expr.lowerFallback_lowers hs target.use_ne_link hfallback).bind fun c hc => ?_
  refine (htarget.lower s hs).bind fun d hd => .ok ?_
  have hnext : Moves (op .next ++ op .pop) 1 2 := moves_of_height? rfl
  exact (hnext.append (hc.lift 1)).append (hd.lift 1)

theorem PatternProperty.Sound.mk {span : Span} {key : Expr} {computed shorthand : Bool}
    {value : Pattern} {fallback : Option Expr} (hkey : key.Sound) (hvalue : value.Sound)
    (hfallback : ∀ e ∈ fallback, e.Sound) :
    PatternProperty.Sound ⟨span, key, computed, value, fallback, shorthand⟩ := by
  intro s hs shape n hshape
  refine (Expr.asKey_lowers hkey hs computed).bind fun c hc => ?_
  refine (Expr.lowerFallback_lowers hs value.use_ne_link hfallback).bind fun d hd => ?_
  exact (hvalue.lower s hs).bind fun f hf => .ok (hshape hc hd hf)

theorem Params.Sound.list {span : Span} {items : List Element} {rest : Option Pattern}
    (hitems : ∀ e ∈ items, e.Sound) (hrest : ∀ p ∈ rest, p.Sound) :
    (Params.list span items rest).Sound := by
  intro s hs
  change Lowers _ (if items.isEmpty && rest.isNone then _ else _)
  split
  · exact .ok .nil
  · refine (Element.lowerList_lowers hs hitems).bind fun c hc => ?_
    refine (Pattern.lowerRest_lowers hs hrest).bind fun d hd => .ok ?_
    have hopen : Moves (text .load "arguments" ++ op .iterator) 0 1 := moves_of_height? rfl
    have hpop : Moves (op .pop) 1 0 := moves_of_height? rfl
    exact ((hopen.append hc).append hd).append hpop

end EcmaStack

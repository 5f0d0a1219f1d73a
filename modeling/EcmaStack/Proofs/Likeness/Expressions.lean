import EcmaStack.Proofs.Likeness.Laws
import EcmaStack.Proofs.Tree.Resolved

/-!
# Expressions at like sites

`Expr.Alike` says that an expression gives like code at like sites, in each of the places it may
stand in: as a value or a link of a chain, as the member that is called or removed, as a target,
and as an item of a list. Every form of expression does so when its parts do, and likewise for
patterns, properties and parameters.
-/

namespace EcmaStack

open Code

variable {L : Likeness} {calls : Bool}

/-- An expression gives like code at like sites, wherever it stands. -/
structure Expr.Alike (L : Likeness) (calls : Bool) (e : Expr) : Prop where
  lower : ∀ {s s' : CodeSite}, s.Alike L calls s' →
    ∀ use, Paired L.rel (e.lower s use) (e.lower s' use)
  called : ∀ {s s' : CodeSite}, s.Alike L calls s' →
    Option.Rel (fun m m' => m.1.Alike L m'.1 ∧ m.2 = m'.2) (e.calledMember? s) (e.calledMember? s')
  bare : ∀ {s s' : CodeSite}, s.Alike L calls s' →
    Option.Rel (Member.Alike L) (e.bareMember? s) (e.bareMember? s')
  reference : ∀ {s s' : CodeSite}, s.Alike L calls s' → ∀ cause,
    Paired (Reference.Alike L) (e.reference s cause) (e.reference s' cause)
  item : ∀ {s s' : CodeSite}, s.Alike L calls s' →
    ∀ rest, Paired L.rel (Expr.lowerItems s rest) (Expr.lowerItems s' rest) →
    Paired L.rel (Expr.lowerItems s (e :: rest)) (Expr.lowerItems s' (e :: rest))

/-- A pattern gives like code at like sites, bound or assigned to. -/
structure Pattern.Alike (L : Likeness) (calls : Bool) (p : Pattern) : Prop where
  lower : ∀ {s s' : CodeSite}, s.Alike L calls s' → Paired L.rel (p.lower s) (p.lower s')
  reference : ∀ {s s' : CodeSite}, s.Alike L calls s' →
    Paired (Reference.Alike L) (p.reference s) (p.reference s')

/-- A property that is put on an object in the same way at sites that are alike. -/
def Property.Alike (L : Likeness) (calls : Bool) (p : Property) : Prop :=
  ∀ ⦃s s' : CodeSite⦄, s.Alike L calls s' → Paired L.rel (p.lower s) (p.lower s')

/-- An element of a pattern, in the same way. -/
def Element.Alike (L : Likeness) (calls : Bool) (e : Element) : Prop :=
  ∀ ⦃s s' : CodeSite⦄, s.Alike L calls s' → Paired L.rel (e.lower s) (e.lower s')

/-- A way to read a property makes like code of like parts. -/
def KeepsLikeness (L : Likeness) (shape : Code → Code → Code → Code) : Prop :=
  ∀ {k k' f f' b b' : Code}, L.rel k k' → L.rel f f' → L.rel b b' →
    L.rel (shape k f b) (shape k' f' b')

/-- A property of a pattern, in the same way. Its key may be asked for at any site. -/
def PatternProperty.Alike (L : Likeness) (calls : Bool) (p : PatternProperty) : Prop :=
  ∀ ⦃s s' : CodeSite⦄, s.Alike L calls s' → ∀ {shape}, KeepsLikeness L shape →
    Paired L.rel (p.lower s shape) (p.lower s' shape)

/-- Parameters, in the same way. -/
def Params.Alike (L : Likeness) (calls : Bool) (p : Params) : Prop :=
  ∀ ⦃s s' : CodeSite⦄, s.Alike L calls s' → Paired L.rel (p.lower s) (p.lower s')

/-- A body gives like code at like sites, and so do the functions it declares, whatever may be
called around them. -/
structure Body.Alike (L : Likeness) (calls : Bool) (b : Body) : Prop where
  lower : ∀ {s s' : CodeSite}, s.Alike L calls s' → Paired L.rel (b.lower s) (b.lower s')
  hoisted : ∀ {around : Bool} {s s' : CodeSite}, s.Alike L around s' →
    List.Forall₂ (Hoisted.Alike L) (b.hoisted s) (b.hoisted s')

/-- A function gives like code at all like sites. Its parts, which may also be those of a
constructor, do so as far as they may call the superclass's constructor. -/
structure Function.Alike (L : Likeness) (own : Bool) (f : Function) : Prop where
  lower : ∀ {calls : Bool} {s s' : CodeSite}, s.Alike L calls s' →
    ∀ use, Paired L.rel (f.lower s use) (f.lower s' use)
  params : f.params.Alike L own
  body : f.body.Alike L own

/-- A class, in the same way, for any use. -/
def Class.Alike (L : Likeness) (calls : Bool) (c : Class) : Prop :=
  ∀ ⦃s s' : CodeSite⦄, s.Alike L calls s' → ∀ use, Paired L.rel (c.lower s use) (c.lower s' use)

/-- Whether an expression is no member, no target and no special part of a list. -/
def Expr.standsAlone : Expr → Bool
  | .missing | .identifier _ | .member _ _ _ _ _ | .paren _ _ | .spread _ _ => false
  | _ => true

namespace Expr.Alike

variable {e : Expr}

/-- An element that is neither missing nor spread is appended. -/
private theorem lowerItems_cons {s : CodeSite} {rest : List Expr}
    (hspread : ∀ span x, e ≠ .spread span x) (hmissing : e ≠ .missing) :
    Expr.lowerItems s (e :: rest) = do
    return (← e.lower s .value) ++ op .append ++ (← Expr.lowerItems s rest) := by
  cases e with
  | missing => exact absurd rfl hmissing
  | spread span x => exact absurd rfl (hspread span x)
  | _ => rfl

/-- An item that is appended as it is. -/
private theorem appended (hspread : ∀ span x, e ≠ .spread span x) (hmissing : e ≠ .missing)
    (hlower : ∀ {s s' : CodeSite}, s.Alike L calls s' →
      ∀ use, Paired L.rel (e.lower s use) (e.lower s' use))
    {s s' : CodeSite} (hs : s.Alike L calls s') (rest : List Expr)
    (hrest : Paired L.rel (Expr.lowerItems s rest) (Expr.lowerItems s' rest)) :
    Paired L.rel (Expr.lowerItems s (e :: rest)) (Expr.lowerItems s' (e :: rest)) := by
  rw [lowerItems_cons hspread hmissing, lowerItems_cons hspread hmissing]
  refine (hlower hs .value).bind fun _ _ hc => ?_
  exact hrest.bind fun _ _ hd => .ok (L.append (L.append hc (L.plain rfl)) hd)

/-- An expression that stands alone has to give like code as a value only. -/
theorem of_lower (halone : e.standsAlone = true)
    (hlower : ∀ {s s' : CodeSite}, s.Alike L calls s' →
      ∀ use, Paired L.rel (e.lower s use) (e.lower s' use)) :
    e.Alike L calls where
  lower := hlower
  called _ := by
    cases e with
    | missing | identifier | member | paren | spread => cases halone
    | _ => exact .none
  bare _ := by
    cases e with
    | missing | identifier | member | paren | spread => cases halone
    | _ => exact .none
  reference _ cause := by
    cases e with
    | missing | identifier | member | paren | spread => cases halone
    | _ => exact .refuse _ cause
  item hs rest hrest := by
    refine appended (fun span x heq => ?_) (fun heq => ?_) hlower hs rest hrest
    · rw [heq] at halone
      cases halone
    · rw [heq] at halone
      cases halone

/-- Code that depends neither on the use nor on the site. -/
theorem of_code {c : Code} (halone : e.standsAlone = true) (hcode : ∀ s use, e.lower s use = .ok c)
    (hc : L.rel c c) :
    e.Alike L calls := by
  refine of_lower halone fun {s s'} _ use => ?_
  rw [hcode s use, hcode s' use]
  exact .ok hc

end Expr.Alike

/-! ## Parts that may be missing, and lists of parts -/

section Lists

variable {s s' : CodeSite}

/-- A part that may be missing is missing at both sites. -/
theorem Expr.lowerOption_paired (hs : s.Alike L calls s') (use : Use) {o : Option Expr}
    (h : ∀ e ∈ o, e.Alike L calls) :
    Paired (Option.Rel L.rel) (Expr.lowerOption s use o) (Expr.lowerOption s' use o) := by
  cases o with
  | none => exact .ok .none
  | some e => exact ((h e rfl).lower hs use).bind fun _ _ hc => .ok (.some hc)

/-- Values one after the other, as many at both sites. -/
theorem Expr.lowerList_paired (hs : s.Alike L calls s') {list : List Expr}
    (h : ∀ e ∈ list, e.Alike L calls) :
    Paired (List.Forall₂ L.rel) (Expr.lowerList s list) (Expr.lowerList s' list) := by
  induction list with
  | nil => exact .ok .nil
  | cons e rest ih =>
    refine ((h e List.mem_cons_self).lower hs .value).bind fun _ _ hc => ?_
    exact (ih fun d hd => h d (List.mem_cons_of_mem _ hd)).bind fun _ _ hd => .ok (.cons hc hd)

theorem Expr.lowerItems_paired (hs : s.Alike L calls s') {list : List Expr}
    (h : ∀ e ∈ list, e.Alike L calls) :
    Paired L.rel (Expr.lowerItems s list) (Expr.lowerItems s' list) := by
  induction list with
  | nil => exact .ok L.nil
  | cons e rest ih =>
    exact (h e List.mem_cons_self).item hs rest (ih fun d hd => h d (List.mem_cons_of_mem _ hd))

/-- A default is made in the same way, and so is the jump around it. -/
theorem Expr.lowerFallback_paired (hs : s.Alike L calls s') (use : Use) {o : Option Expr}
    (h : ∀ e ∈ o, e.Alike L calls) :
    Paired L.rel (Expr.lowerFallback s use o) (Expr.lowerFallback s' use o) := by
  cases o with
  | none => exact .ok L.nil
  | some e =>
    have hpop : L.rel (op .pop) (op .pop) := L.plain rfl
    exact ((h e rfl).lower hs use).bind fun _ _ hc =>
      .ok (L.bypassed Opcode.noConfusion (L.append hpop hc))

theorem numberCode_rel (x : Binary64) : L.rel (numberCode x) (numberCode x) := by
  unfold numberCode
  split
  · exact L.plain rfl
  · split <;> exact L.plain rfl

/-- A key in brackets is made as an expression; any other is a constant. -/
theorem Expr.asKey_paired {e : Expr} (h : e.Alike L calls) (hs : s.Alike L calls s')
    (computed : Bool) :
    Paired L.rel (e.asKey computed (e.lower s .value)) (e.asKey computed (e.lower s' .value)) := by
  refine .ite (fun _ => h.lower hs .value) fun _ => ?_
  unfold Expr.plainKey
  split
  · exact .ok (numberCode_rel _)
  · exact .ok (L.plain rfl)
  · split
    · exact .ok (L.plain rfl)
    · exact .refuse _ _

theorem Property.lowerList_paired (hs : s.Alike L calls s') {list : List Property}
    (h : ∀ p ∈ list, p.Alike L calls) :
    Paired L.rel (Property.lowerList s list) (Property.lowerList s' list) := by
  induction list with
  | nil => exact .ok L.nil
  | cons p rest ih =>
    refine (h p List.mem_cons_self hs).bind fun _ _ hc => ?_
    exact (ih fun q hq => h q (List.mem_cons_of_mem _ hq)).bind fun _ _ hd => .ok (L.append hc hd)

theorem Element.lowerList_paired (hs : s.Alike L calls s') {list : List Element}
    (h : ∀ e ∈ list, e.Alike L calls) :
    Paired L.rel (Element.lowerList s list) (Element.lowerList s' list) := by
  induction list with
  | nil => exact .ok L.nil
  | cons e rest ih =>
    refine (h e List.mem_cons_self hs).bind fun _ _ hc => ?_
    exact (ih fun q hq => h q (List.mem_cons_of_mem _ hq)).bind fun _ _ hd => .ok (L.append hc hd)

theorem PatternProperty.lowerList_paired (hs : s.Alike L calls s')
    {shape : Code → Code → Code → Code} (hshape : KeepsLikeness L shape)
    {list : List PatternProperty} (h : ∀ p ∈ list, p.Alike L calls) :
    Paired L.rel (PatternProperty.lowerList s shape list)
    (PatternProperty.lowerList s' shape list) := by
  induction list with
  | nil => exact .ok L.nil
  | cons p rest ih =>
    refine (h p List.mem_cons_self hs hshape).bind fun _ _ hc => ?_
    exact (ih fun q hq => h q (List.mem_cons_of_mem _ hq)).bind fun _ _ hd => .ok (L.append hc hd)

theorem Pattern.lowerRest_paired (hs : s.Alike L calls s') {rest : Option Pattern}
    (h : ∀ p ∈ rest, p.Alike L calls) :
    Paired L.rel (Pattern.lowerRest s rest) (Pattern.lowerRest s' rest) := by
  cases rest with
  | none => exact .ok L.nil
  | some p => exact ((h p rfl).lower hs).bind fun _ _ hc => .ok (L.append (L.plain rfl) hc)

end Lists

/-! ## Expressions -/

namespace Expr.Alike

variable {e left right : Expr} {span : Span}

theorem identifier (n : Name) : (Expr.identifier n).Alike L calls where
  lower _ _ := .ok (L.plain rfl)
  called _ := .none
  bare _ := .none
  reference _ _ := .ok ⟨rfl, L.nil⟩
  item _ _ hrest :=
    hrest.bind fun _ _ hd => .ok (L.append (L.append (L.plain rfl) (L.plain rfl)) hd)

theorem missing : Expr.missing.Alike L calls where
  lower _ _ := .refuse _ _
  called _ := .none
  bare _ := .none
  reference _ _ := .refuse _ _
  item _ _ hrest := hrest.bind fun _ _ hd => .ok (L.append (L.plain rfl) hd)

/-- The expressions without parts. -/
theorem atom (h : e.isAtom = true) : e.Alike L calls := by
  cases e with
  | missing => exact missing
  | identifier n => exact identifier n
  | boolean span value => exact of_code rfl (fun _ _ => rfl) (by cases value <;> exact L.plain rfl)
  | number span raw value => exact of_code rfl (fun _ _ => rfl) (numberCode_rel value)
  | superRef span => exact of_lower rfl fun _ _ => .refuse span _
  | privateName | nullLiteral | bigint | string | regexp | thisRef | metaProperty =>
    exact of_code rfl (fun _ _ => rfl) (L.plain rfl)
  | _ => cases h

theorem spread (h : e.Alike L calls) : (Expr.spread span e).Alike L calls where
  lower _ _ := .refuse span _
  called _ := .none
  bare _ := .none
  reference _ cause := .refuse span cause
  item hs rest hrest := by
    refine (h.lower hs .value).bind fun _ _ hc => ?_
    exact hrest.bind fun _ _ hd => .ok (L.append (L.append hc (L.plain rfl)) hd)

theorem paren (h : e.Alike L calls) : (Expr.paren span e).Alike L calls where
  lower hs _ := h.lower hs .value
  called {s s'} hs := by
    cases e with
    | member span base property computed optional =>
      have hcalled := h.called hs
      change Option.Rel _ (if optional || base.isOptionalChain then none else _)
        (if optional || base.isOptionalChain then none else _)
      split
      · exact .none
      · cases hcalled with
        | some hm => exact .some ⟨hm.1, rfl⟩
    | _ => exact .none
  bare hs := h.bare hs
  reference hs cause := h.reference hs cause
  item hs rest hrest := appended (e := .paren span e) (fun _ _ => Expr.noConfusion) Expr.noConfusion
    (fun hs _ => h.lower hs .value) hs rest hrest

/-- A member is taken apart at both sites into a base and a key that are alike. -/
theorem member {base property : Expr} {computed optional : Bool} (hbase : base.Alike L calls)
    (hproperty : property.Alike L calls) :
    (Expr.member span base property computed optional).Alike L calls := by
  have hm {s s' : CodeSite} (hs : s.Alike L calls s') :
      (Member.of base property computed optional (fun use => base.lower s use)
        (property.lower s .value)).Alike L
        (Member.of base property computed optional (fun use => base.lower s' use)
          (property.lower s' .value)) :=
    ⟨rfl, rfl, rfl, fun use => hbase.lower hs use, Expr.asKey_paired hproperty hs computed⟩
  have hlower {s s' : CodeSite} (hs : s.Alike L calls s') (use : Use) :
      Paired L.rel ((Expr.member span base property computed optional).lower s use)
        ((Expr.member span base property computed optional).lower s' use) :=
    (hm hs).read.bind fun _ _ hc => .ok (L.finish use hc)
  exact {
    lower := hlower
    called := fun hs => .some ⟨hm hs, rfl⟩
    bare := fun hs => .some (hm hs)
    reference := fun hs cause => .ite (fun _ => .refuse span cause) fun _ => (hm hs).reference
    item := fun hs rest hrest =>
    appended (fun _ _ => Expr.noConfusion) Expr.noConfusion hlower hs rest hrest }

theorem template {t : Template} (h : ∀ e ∈ t.expressions, e.Alike L calls) :
    (Expr.template t).Alike L calls := by
  refine of_lower rfl fun hs use => ?_
  obtain ⟨span, quasis, expressions⟩ := t
  refine .ite (fun _ => .ok (L.plain rfl)) fun _ => ?_
  exact (Expr.lowerList_paired hs h).bind fun _ _ hcodes => .ok (L.template hcodes)

/-- A template as a tag sees it. -/
private theorem lowerParts_paired {s s' : CodeSite} (hs : s.Alike L calls s') {t : Template}
    (h : ∀ e ∈ t.expressions, e.Alike L calls) :
    Paired L.rel (Template.lowerParts s t) (Template.lowerParts s' t) := by
  obtain ⟨span, quasis, expressions⟩ := t
  have htexts (text : TemplateElement → Text) :
      L.rel (arrayCode (quasis.map fun q => Code.string (text q)))
      (arrayCode (quasis.map fun q => Code.string (text q))) := by
    refine L.array (List.forall₂_same.mpr fun c hc => ?_)
    obtain ⟨q, -, rfl⟩ := List.mem_map.mp hc
    exact L.plain rfl
  refine (Expr.lowerList_paired hs h).bind fun _ _ hcodes => .ok ?_
  exact L.append (L.append (htexts (·.cooked)) (htexts (·.raw))) (L.array hcodes)

/-- Whether the tag is a member is told by the tag alone, so both sites agree on it. -/
theorem tagged {tag : Expr} {quasi : Template} (htag : tag.Alike L calls)
    (hquasi : ∀ e ∈ quasi.expressions, e.Alike L calls) :
    (Expr.tagged span tag quasi).Alike L calls := by
  refine of_lower rfl fun {s s'} hs use => ?_
  have hcalled := htag.called hs
  have hparts := lowerParts_paired hs hquasi
  rw [Expr.lower_tagged, Expr.lower_tagged]
  generalize tag.calledMember? s = m, tag.calledMember? s' = m' at hcalled
  cases hcalled with
  | some hm => exact hm.1.tag hs span hparts
  | none =>
    refine (htag.lower hs .value).bind fun _ _ hc => ?_
    exact hparts.bind fun _ _ hd =>
      .ok (L.append (L.append hc hd) (hs.placed_rel Opcode.noConfusion span))

theorem array {elements : List Expr} (h : ∀ e ∈ elements, e.Alike L calls) :
    (Expr.array span elements).Alike L calls :=
  of_lower rfl fun hs _ => (Expr.lowerItems_paired hs h).bind fun _ _ hc =>
    .ok (L.append (L.plain rfl) hc)

theorem object {properties : List Property} (h : ∀ p ∈ properties, p.Alike L calls) :
    (Expr.object span properties).Alike L calls :=
  of_lower rfl fun hs _ => (Property.lowerList_paired hs h).bind fun _ _ hc =>
    .ok (L.append (L.plain rfl) hc)

/-- A call. Where `super` is called instances are initialized, so that the sites have to agree
on how. -/
theorem call {callee : Expr} {arguments : List Expr} {optional : Bool}
    (hsuper : callee.isSuper = true → calls = true) (hcallee : callee.Alike L calls)
    (harguments : ∀ e ∈ arguments, e.Alike L calls) :
    (Expr.call span callee arguments optional).Alike L calls := by
  have hpush : L.rel (op .pushArray) (op .pushArray) := L.plain rfl
  refine of_lower rfl fun {s s'} hs use => ?_
  have hitems := Expr.lowerItems_paired hs harguments
  have hcalled := hcallee.called hs
  rw [Expr.lower_call, Expr.lower_call]
  refine .ite (fun h => ?_) fun _ => ?_
  · refine hitems.bind fun _ _ hc => ?_
    refine ((hsuper h ▸ hs : s.Alike L true s').superCall span).bind fun _ _ hd => .ok ?_
    exact L.finish use (L.append (L.append hpush hc) hd)
  · generalize callee.calledMember? s = m, callee.calledMember? s' = m' at hcalled
    cases hcalled with
    | some hm =>
      obtain ⟨hm, hdirect⟩ := hm
      dsimp only
      rw [hdirect]
      exact (hm.call hs _ optional span hitems).bind fun _ _ hc => .ok (L.finish use hc)
    | none =>
      refine (hcallee.lower hs .link).bind fun _ _ hc => ?_
      refine hitems.bind fun _ _ hd => ?_
      have harguments := L.append hpush hd
      refine .ite (fun _ => .ok ?_) fun _ => .ok ?_
      · exact L.append (L.append hc harguments) (hs.placed_rel Opcode.noConfusion span)
      · have hcall := hs.placed_rel (o := .call) Opcode.noConfusion span
        exact L.finish use (L.append (L.append (L.append hc (L.optionalExit optional)) harguments)
          hcall)

theorem construct {callee : Expr} {arguments : List Expr} (hcallee : callee.Alike L calls)
    (harguments : ∀ e ∈ arguments, e.Alike L calls) :
    (Expr.construct span callee arguments).Alike L calls := by
  have hpush : L.rel (op .pushArray) (op .pushArray) := L.plain rfl
  refine of_lower rfl fun hs use => ?_
  refine (hcallee.lower hs .value).bind fun _ _ hc => ?_
  refine (Expr.lowerItems_paired hs harguments).bind fun _ _ hd => .ok ?_
  exact L.append (L.append (L.append hc hpush) hd) (hs.placed_rel Opcode.noConfusion span)

theorem importCall {source : Expr} {options : Option Expr} (hsource : source.Alike L calls)
    (hoptions : ∀ e ∈ options, e.Alike L calls) :
    (Expr.importCall span source options).Alike L calls := by
  have hload : L.rel (text .load "import") (text .load "import") := L.plain rfl
  refine of_lower rfl fun hs use => ?_
  refine (hsource.lower hs .value).bind fun c c' hc => ?_
  refine (Expr.lowerOption_paired hs .value hoptions).bind fun o o' ho => .ok ?_
  have hitems : List.Forall₂ L.rel (c :: o.toList) (c' :: o'.toList) := by
    cases ho with
    | none => exact .cons hc .nil
    | some hd => exact .cons hc (.cons hd .nil)
  exact L.append (L.append hload (L.array hitems)) (hs.placed_rel Opcode.noConfusion span)

theorem unary {op : Kind} (h : e.Alike L calls) : (Expr.unary span op e).Alike L calls := by
  refine of_lower rfl fun {s s'} hs use => ?_
  have hbare := h.bare hs
  rw [Expr.lower_unary, Expr.lower_unary]
  refine .ite (fun _ => ?_) fun _ => ?_
  · generalize e.bareMember? s = m, e.bareMember? s' = m' at hbare
    cases hbare with
    | some hm => exact hm.remove span
    | none =>
      refine .ite (fun _ => .ok (L.plain rfl)) fun _ => ?_
      exact (h.lower hs .value).bind fun _ _ hc => .ok (L.append hc (L.plain rfl))
  · cases ho : op.unaryOpcode? with
    | some o => exact (h.lower hs .value).bind fun _ _ hc => .ok (L.append hc (L.unary ho))
    | none => exact .refuse span _

theorem await (h : e.Alike L calls) : (Expr.await span e).Alike L calls :=
  of_lower rfl fun hs _ => (h.lower hs .value).bind fun _ _ hc => .ok (L.append hc (L.plain rfl))

theorem update {op : Kind} {before : Bool} (h : e.Alike L calls) :
    (Expr.update span op e before).Alike L calls :=
  of_lower rfl fun hs _ => (h.reference hs _).bind fun _ _ hr => .ok (hr.update _ before)

/-- Whether an operator decides by its left operand is told by the operator. -/
theorem binary {op : Kind} (hl : left.Alike L calls) (hr : right.Alike L calls) :
    (Expr.binary span op left right).Alike L calls := by
  have hpop : L.rel (Code.op .pop) (Code.op .pop) := L.plain rfl
  refine of_lower rfl fun hs use => ?_
  rw [Expr.lower_binary, Expr.lower_binary]
  refine .ite (fun _ => ?_) fun _ => ?_
  · refine (hl.lower hs .value).bind fun _ _ hc => ?_
    exact (hr.lower hs .value).bind fun _ _ hd => .ok (L.append (L.append hc hpop) hd)
  · cases hdecided : op.shortCircuit? with
    | some decided =>
      refine (hl.lower hs .value).bind fun _ _ hc => ?_
      refine (hr.lower hs .value).bind fun _ _ hd => .ok ?_
      exact L.append hc (L.bypassed (Likeness.shortCircuit hdecided) (L.append hpop hd))
    | none =>
      cases ho : op.binaryOpcode? with
      | some o =>
        refine (hl.lower hs .value).bind fun _ _ hc => ?_
        exact (hr.lower hs .value).bind fun _ _ hd => .ok (L.append (L.append hc hd) (L.binary ho))
      | none => exact .refuse span _

theorem conditional {test consequent alternate : Expr} (htest : test.Alike L calls)
    (hconsequent : consequent.Alike L calls) (halternate : alternate.Alike L calls) :
    (Expr.conditional span test consequent alternate).Alike L calls := by
  refine of_lower rfl fun hs use => ?_
  refine (htest.lower hs .value).bind fun _ _ hc => ?_
  refine (hconsequent.lower hs .value).bind fun _ _ hd => ?_
  exact (halternate.lower hs .value).bind fun _ _ hf => .ok (L.choice hc hd hf)

/-- An assignment to a pattern or to a single target. -/
theorem assign {op : Kind} {target : Pattern} {value : Expr} (htarget : target.Alike L calls)
    (hvalue : value.Alike L calls) : (Expr.assign span op target value).Alike L calls := by
  refine of_lower rfl fun hs use => ?_
  rw [Expr.lower_assign, Expr.lower_assign]
  refine .ite (fun _ => ?_) fun _ => ?_
  · refine (hvalue.lower hs .value).bind fun _ _ hc => ?_
    exact (htarget.lower hs).bind fun _ _ hd => .ok (L.append (L.append hc (L.plain rfl)) hd)
  · refine (htarget.reference hs).bind fun r r' hr => ?_
    have hnamed := hvalue.lower hs r'.target.use
    rw [hr.target]
    refine .ite (fun _ => ?_) fun _ => ?_
    · exact hnamed.bind fun _ _ hc => .ok (hr.target ▸ hr.assign hc)
    · cases hdecided : op.binary.shortCircuit? with
      | some decided =>
        exact hnamed.bind fun _ _ hc => .ok (hr.assignUnless hc (Likeness.shortCircuit hdecided))
      | none =>
        cases ho : op.binary.binaryOpcode? with
        | some o =>
          exact (hvalue.lower hs .value).bind fun _ _ hc =>
            .ok (hr.target ▸ hr.compound hc (L.binary ho))
        | none => exact .refuse span _

theorem yield {argument : Option Expr} {delegate : Bool} (h : ∀ e ∈ argument, e.Alike L calls) :
    (Expr.yield span argument delegate).Alike L calls := by
  refine of_lower rfl fun {s s'} hs use => ?_
  refine (Expr.lowerOption_paired hs .value h).bind fun _ _ ho => .ok ?_
  refine L.append (L.default ho (L.plain rfl)) ?_
  rw [hs.async]
  split
  · have hopen : L.rel (op (if s'.async then .asyncIterator else .iterator))
        (op (if s'.async then .asyncIterator else .iterator)) := by
      cases s'.async <;> exact L.plain rfl
    have hnext :
        L.rel (op (if s'.async then .awaitNext else .next))
          (op (if s'.async then .awaitNext else .next)) := by
      cases s'.async <;> exact L.plain rfl
    have hyield : L.rel (op .yield ++ op .pop) (op .yield ++ op .pop) := L.plain rfl
    have hturns := L.repeated (o := .jumpTrue) Opcode.noConfusion hnext hyield
    exact L.append (L.append (L.append (L.append hopen hturns) (L.plain rfl)) (L.plain rfl))
      (L.plain rfl)
  · exact L.plain rfl

theorem function {own : Bool} {f : Function} (h : f.Alike L own) :
    (Expr.function f).Alike L calls :=
  of_lower rfl fun hs use => h.lower hs use

theorem classExpr {c : Class} (h : c.Alike L calls) : (Expr.classExpr c).Alike L calls :=
  of_lower rfl fun hs use => h hs use

/-- An arrow function shares with its surroundings what initializes their instance. -/
theorem arrow {params : Params} {body : Body} {value : Option Expr} {async : Bool} {env : Env}
    (hparams : params.Alike L calls) (hbody : body.Alike L calls)
    (hvalue : ∀ e ∈ value, e.Alike L calls) :
    (Expr.arrow span params body value async env).Alike L calls := by
  have hback : L.rel (op .giveBack) (op .giveBack) := L.plain rfl
  have hpop : L.rel (op .popScope) (op .popScope) := L.plain rfl
  refine of_lower rfl fun {s s'} hs use => ?_
  have hinner := hs.inArrow async
  refine (openScope_paired env.scope (hbody.hoisted hs)).bind fun _ _ hopening => ?_
  refine (hparams hinner).bind fun _ _ hc => ?_
  have hop : (if async then Opcode.pushAsyncLambda else .pushLambda) ≠ .setSource := by
    cases async <;> exact Opcode.noConfusion
  have hobject {d d' : Code} (hd : L.rel d d') := hs.functionObject hop span use.name env.closure
    (L.append (L.append (L.append (L.append hopening hc) hd) hback) hpop)
  refine Paired.ite (fun _ => ?_) fun _ => ?_
  · cases value with
    | none => exact .refuse _ _
    | some e => exact ((hvalue e rfl).lower hinner .value).bind fun _ _ hd => .ok (hobject hd)
  · exact (hbody.lower hinner).bind fun _ _ hd => .ok (hobject hd)

end Expr.Alike

/-! ## Properties, patterns and parameters -/

theorem methodOpcode_rel (isPrivate : Bool) (kind : PropertyKind) :
    L.rel (op (methodOpcode isPrivate kind)) (op (methodOpcode isPrivate kind)) := by
  cases isPrivate <;> cases kind <;> exact L.plain rfl

/-- The pieces of a property may be replaced by pieces that are alike, -/
theorem propertyCode_keepsLikeness : KeepsLikeness L propertyCode := by
  intro k k' f f' b b' hk hf hb
  exact L.append (L.append (L.append (L.append (L.plain rfl) hk) (L.plain rfl)) hf) hb

/-- also where the keys are listed. -/
theorem listedPropertyCode_keepsLikeness : KeepsLikeness L listedPropertyCode := by
  intro k k' f f' b b' hk hf hb
  have hlist : L.rel (pick 3 ++ pick 2 ++ op .append ++ op .pop ++ op .getField)
      (pick 3 ++ pick 2 ++ op .append ++ op .pop ++ op .getField) := L.plain rfl
  have hpick : L.rel (pick 2) (pick 2) := L.plain rfl
  have h := L.append (L.append (L.append (L.append hpick hk) hlist) hf) hb
  simpa only [listedPropertyCode, List.append_assoc] using h

namespace Property.Alike

variable {span : Span}

theorem keyed {key value : Expr} {computed : Bool} {kind : PropertyKind} (hkey : key.Alike L calls)
    (hvalue : value.Alike L calls) :
    (Property.keyed span key computed kind value).Alike L calls := by
  intro s s' hs
  refine (Expr.asKey_paired hkey hs computed).bind fun _ _ hc => ?_
  refine (hvalue.lower hs (key.keyUse computed)).bind fun _ _ hd => ?_
  have hboth := L.append hc hd
  have hinstall (kind : PropertyKind) :=
    L.append (L.append (L.append hboth (L.plain (c := pick 3) rfl))
      (L.plain (c := op .setClass) rfl)) (methodOpcode_rel false kind)
  cases kind with
  | value => exact .ok (L.append hboth (L.plain rfl))
  | _ => exact .ok (hinstall _)

theorem short {name : Option Name} : (Property.short span name).Alike L calls :=
  fun _ _ _ => .ok (L.plain rfl)

theorem spread {e : Expr} (h : e.Alike L calls) : (Property.spread span e).Alike L calls :=
  fun _ _ hs => (h.lower hs .value).bind fun _ _ hc => .ok (L.append hc (L.plain rfl))

end Property.Alike

namespace Pattern.Alike

variable {span : Span}

/-- A name is stored at once; any other target is a reference that both sites have. -/
theorem target {e : Expr} (h : e.Alike L calls) : (Pattern.target e).Alike L calls where
  lower {s s'} hs := by
    have hbind : Paired L.rel
        (do let r ← e.reference s .destructuringTarget; return r.code ++ r.target.bind)
        (do let r ← e.reference s' .destructuringTarget; return r.code ++ r.target.bind) :=
      (h.reference hs _).bind fun _ _ hr => .ok hr.bind
    cases e with
    | identifier n => exact .ok (L.plain rfl)
    | _ => exact hbind
  reference hs := h.reference hs .assignmentTarget

theorem array {elements : List Element} {rest : Option Pattern}
    (helements : ∀ e ∈ elements, e.Alike L calls) (hrest : ∀ p ∈ rest, p.Alike L calls) :
    (Pattern.array span elements rest).Alike L calls where
  lower hs := by
    refine (Element.lowerList_paired hs helements).bind fun _ _ hc => ?_
    refine (Pattern.lowerRest_paired hs hrest).bind fun _ _ hd => .ok ?_
    exact L.append (L.append (L.append (L.plain rfl) hc) hd) (L.plain rfl)
  reference _ := .refuse span _

theorem object {properties : List PatternProperty} {rest : Option Pattern}
    (hproperties : ∀ p ∈ properties, p.Alike L calls) (hrest : ∀ p ∈ rest, p.Alike L calls) :
    (Pattern.object span properties rest).Alike L calls where
  lower hs := by
    cases rest with
    | none =>
      refine (PatternProperty.lowerList_paired hs propertyCode_keepsLikeness hproperties).bind
        fun _ _ hc => ?_
      exact .ok (L.append hc (L.plain rfl))
    | some p =>
      refine (PatternProperty.lowerList_paired hs listedPropertyCode_keepsLikeness hproperties).bind
        fun _ _ hc => ?_
      refine ((hrest p rfl).lower hs).bind fun _ _ hd => .ok ?_
      exact L.append (L.append (L.append (L.append (L.plain rfl) hc) (L.plain rfl)) hd) (L.drop 2)
  reference _ := .refuse span _

end Pattern.Alike

theorem Element.Alike.hole : Element.hole.Alike L calls :=
  fun _ _ _ => .ok (L.plain rfl)

theorem Element.Alike.bound {span : Span} {target : Pattern} {fallback : Option Expr}
    (htarget : target.Alike L calls) (hfallback : ∀ e ∈ fallback, e.Alike L calls) :
    (Element.bound span target fallback).Alike L calls := by
  intro s s' hs
  refine (Expr.lowerFallback_paired hs target.use hfallback).bind fun _ _ hc => ?_
  refine (htarget.lower hs).bind fun _ _ hd => .ok ?_
  exact L.append (L.append (L.append (L.plain rfl) (L.plain rfl)) hc) hd

theorem PatternProperty.Alike.mk {span : Span} {key : Expr} {computed shorthand : Bool}
    {value : Pattern} {fallback : Option Expr} (hkey : key.Alike L calls)
    (hvalue : value.Alike L calls) (hfallback : ∀ e ∈ fallback, e.Alike L calls) :
    PatternProperty.Alike L calls ⟨span, key, computed, value, fallback, shorthand⟩ := by
  intro s s' hs shape hshape
  refine (Expr.asKey_paired hkey hs computed).bind fun _ _ hc => ?_
  refine (Expr.lowerFallback_paired hs value.use hfallback).bind fun _ _ hd => ?_
  exact (hvalue.lower hs).bind fun _ _ hf => .ok (hshape hc hd hf)

theorem Params.Alike.list {span : Span} {items : List Element} {rest : Option Pattern}
    (hitems : ∀ e ∈ items, e.Alike L calls) (hrest : ∀ p ∈ rest, p.Alike L calls) :
    (Params.list span items rest).Alike L calls := by
  intro s s' hs
  refine .ite (fun _ => .ok L.nil) fun _ => ?_
  refine (Element.lowerList_paired hs hitems).bind fun _ _ hc => ?_
  refine (Pattern.lowerRest_paired hs hrest).bind fun _ _ hd => .ok ?_
  exact L.append (L.append (L.append (L.append (L.plain rfl) (L.plain rfl)) hc) hd) (L.plain rfl)

end EcmaStack

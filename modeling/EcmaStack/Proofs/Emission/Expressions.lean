import EcmaStack.Emission.Tree
import EcmaStack.Lowering.Tree
import EcmaStack.Proofs.Emission.Members
import EcmaStack.Proofs.Lowering.Expressions

/-!
# Writing expressions

What is written for an expression is the code it is lowered to, in each of the
places it may stand in: as a value, as a link of a chain, as the member that is
called, tagged or removed, and as a target (`Expr.Written`). Every form of
expression keeps to this when its parts do, and likewise for patterns, properties
and parameters.
-/

namespace EcmaStack

open Writing

/-- What is written for an expression, in each of the places it may stand in. -/
structure Expr.Written (e : Expr) : Prop where
  write : ∀ ⦃E s⦄, WriteSite.Agrees E s → ∀ use, use ≠ Use.link →
    Emits (e.lower s use) (e.write E use.name)
  operand : ∀ ⦃E s⦄, WriteSite.Agrees E s →
    EmitsLink (e.lower s .link) (e.writeOperand (e.write E "") (e.writeLink E))
  called : ∀ ⦃E s⦄, WriteSite.Agrees E s →
    Option.Rel (fun m x => m.1.Agrees x.1 ∧ m.2 = x.2) (e.calledMember? s) (e.calledWriter? E)
  bare : ∀ ⦃E s⦄, WriteSite.Agrees E s →
    Option.Rel Member.Agrees (e.bareMember? s) (e.bareWriter? E)
  reference : ∀ ⦃E s⦄, WriteSite.Agrees E s → ∀ cause,
    EmitsReference (e.reference s cause) (e.writeReference E cause)
  item : ∀ ⦃E s⦄, WriteSite.Agrees E s → ∀ rest,
    Emits (Expr.lowerItems s rest) (Expr.writeItems E rest) →
    Emits (Expr.lowerItems s (e :: rest)) (Expr.writeItems E (e :: rest))

/-- What is written for a pattern, and for one that is assigned to as it stands. -/
structure Pattern.Written (p : Pattern) : Prop where
  write : ∀ ⦃E s⦄, WriteSite.Agrees E s → Emits (p.lower s) (p.write E)
  reference : ∀ ⦃E s⦄, WriteSite.Agrees E s →
    EmitsReference (p.reference s) (p.writeReference E)

/-- What is written for a property. -/
def Property.Written (p : Property) : Prop :=
  ∀ ⦃E s⦄, WriteSite.Agrees E s → Emits (p.lower s) (p.write E)

/-- What is written for an element of a pattern. -/
def Element.Written (e : Element) : Prop :=
  ∀ ⦃E s⦄, WriteSite.Agrees E s → Emits (e.lower s) (e.write E)

/-- How a property of a pattern is read off, with or without a list of the keys. -/
def propertyShape (listed : Bool) : Code → Code → Code → Code :=
  if listed then listedPropertyCode else propertyCode

/-- What is written for a property of a pattern, with or without a list of the
keys. -/
def PatternProperty.Written (p : PatternProperty) : Prop :=
  ∀ ⦃E s⦄, WriteSite.Agrees E s →
    ∀ listed, Emits (p.lower s (propertyShape listed)) (p.write E listed)

/-- What is written for parameters. -/
def Params.Written (p : Params) : Prop :=
  ∀ ⦃E s⦄, WriteSite.Agrees E s → Emits (p.lower s) (p.write E)

/-- What is written for a body and for the functions it declares. -/
structure Body.Written (b : Body) : Prop where
  write : ∀ ⦃E s⦄, WriteSite.Agrees E s → Emits (b.lower s) (b.write E)
  hoisted : ∀ ⦃E s⦄, WriteSite.Agrees E s → Hoisted.AllAgree (b.hoisted s) (b.hoistedWriters E)

/-- What is written for a function, whose parts may also be those of a
constructor. -/
structure Function.Written (f : Function) : Prop where
  write : ∀ ⦃E s⦄, WriteSite.Agrees E s → ∀ use, Emits (f.lower s use) (f.write E use.name)
  params : f.params.Written
  body : f.body.Written

/-- What is written for a class. -/
def Class.Written (c : Class) : Prop :=
  ∀ ⦃E s⦄, WriteSite.Agrees E s → ∀ use, Emits (c.lower s use) (c.write E use.name)

/-! ## Expressions that are no chains -/

/-- An element that is neither missing nor spread is appended to the array. -/
theorem Expr.writeItems_of_isPlain {e : Expr} (h : e.isPlain = true) (E : WriteSite)
    (rest : List Expr) :
    Expr.writeItems E (e :: rest) = (do
      e.write E ""
      op .append
      Expr.writeItems E rest) := by
  cases e with
  | missing | identifier | member | paren | spread => cases h
  | _ => rfl

namespace Expr.Written

variable {e : Expr} {E : WriteSite} {s : CodeSite}

/-- An expression for its value, bound to no name. -/
theorem value (h : e.Written) (hs : E.Agrees s) : Emits (e.lower s .value) (e.write E "") :=
  h.write hs .value Use.noConfusion

/-- One more value in an array. -/
theorem appended {rest : List Expr} (h : Emits (e.lower s .value) (e.write E ""))
    (hrest : Emits (Expr.lowerItems s rest) (Expr.writeItems E rest)) :
    Emits (do
      let code ← e.lower s .value
      return code ++ Code.op .append ++ (← Expr.lowerItems s rest)) (do
      e.write E ""
      op .append
      Expr.writeItems E rest) := by
  obtain ⟨c, f, hm, hl⟩ := h
  obtain ⟨d, g, hm', hl'⟩ := hrest
  refine ⟨_, _, ?_, hl.bind (hl'.map _)⟩
  rw [List.append_assoc]
  exact hm.seq ((op_writes .append).before hm')

/-- An expression that is no member, no target and no special part of a list. -/
theorem of_operand (hplain : e.isPlain = true)
    (hwrite : ∀ ⦃E s⦄, WriteSite.Agrees E s → ∀ use, use ≠ Use.link →
      Emits (e.lower s use) (e.write E use.name))
    (hoperand : ∀ ⦃E s⦄, WriteSite.Agrees E s →
      EmitsLink (e.lower s .link) (e.writeOperand (e.write E "") (e.writeLink E))) : e.Written where
  write := hwrite
  operand := hoperand
  called _ _ _ := by
    cases e with
    | missing | identifier | member | paren | spread => cases hplain
    | _ => exact .none
  bare _ _ _ := by
    cases e with
    | missing | identifier | member | paren | spread => cases hplain
    | _ => exact .none
  reference _ _ _ cause := by
    cases e with
    | missing | identifier | member | paren | spread => cases hplain
    | _ => exact .refused _ _ ((report_writes _ cause).answering none) rfl
  item _ _ hs rest hrest := by
    rw [Expr.lowerItems_of_isPlain hplain, Expr.writeItems_of_isPlain hplain]
    exact appended (hwrite hs .value Use.noConfusion) hrest

/-- An expression that is no link of a chain either. -/
theorem of_emits (hplain : e.isPlain = true) (hlink : e.isLink = false)
    (hwrite : ∀ ⦃E s⦄, WriteSite.Agrees E s → ∀ use, Emits (e.lower s use) (e.write E use.name)) :
    e.Written := by
  refine of_operand hplain (fun _ _ hs use _ => hwrite hs use) fun _ _ hs => ?_
  have hvalue := (hwrite hs .link).link
  unfold Expr.writeOperand
  rw [hlink]
  exact hvalue

end Expr.Written

/-! ## Parts that may be missing, and lists of parts -/

section Lists

variable {E : WriteSite} {s : CodeSite}

/-- A part that may be missing, whatever is made of it. -/
theorem Expr.lowerOption_emits (hs : E.Agrees s) {use : Use} (huse : use ≠ .link)
    {F : Option Code → Code} (write : Option Expr → Writing Unit) {o : Option Expr}
    (h : ∀ e ∈ o, e.Written) (hnone : Writes (write none) (F none) none)
    (hsome : ∀ e c f, Writes (e.write E use.name) c f → Writes (write (some e)) (F (some c)) f) :
    EmitsAs F (Expr.lowerOption s use o) (write o) := by
  cases o with
  | none => exact ⟨none, none, hnone, .made none⟩
  | some e =>
    obtain ⟨c, f, hm, hl⟩ := (h e rfl).write hs use huse
    exact ⟨some c, f, hsome e c f hm, hl.map some⟩

/-- A value that may be missing. -/
theorem Expr.writeOption_emits (hs : E.Agrees s) {use : Use} (huse : use ≠ .link) {o : Option Expr}
    (h : ∀ e ∈ o, e.Written) :
    EmitsAs (fun c => c.getD (Code.op .pushUndefined)) (Expr.lowerOption s use o)
      (Expr.writeOption E use.name o) :=
  Expr.lowerOption_emits hs huse (Expr.writeOption E use.name) h (op_writes .pushUndefined)
    fun _ _ _ hm => hm

/-- A value put in place of a missing one. -/
theorem Expr.writeFallback_emits (hs : E.Agrees s) {use : Use} (huse : use ≠ .link)
    {o : Option Expr} (h : ∀ e ∈ o, e.Written) :
    Emits (Expr.lowerFallback s use o) (Expr.writeFallback E use.name o) := by
  cases o with
  | none => exact .nil
  | some e =>
    obtain ⟨c, f, hm, hl⟩ := (h e rfl).write hs use huse
    refine ⟨_, _, ?_, hl.map _⟩
    have hskip := ((op_writes .pop).before hm).bypassed .jumpNotUndefined
    simp only [bind_assoc] at hskip ⊢
    exact hskip

/-- Elements are appended one after the other, holes and spread values among them. -/
theorem Expr.writeItems_emits (hs : E.Agrees s) {list : List Expr} (h : ∀ e ∈ list, e.Written) :
    Emits (Expr.lowerItems s list) (Expr.writeItems E list) := by
  induction list with
  | nil => exact .nil
  | cons e rest ih =>
    exact (h e List.mem_cons_self).item hs rest (ih fun d hd => h d (List.mem_cons_of_mem _ hd))

/-- Arguments are passed in one array. -/
theorem Expr.writeArguments_emits (hs : E.Agrees s) {list : List Expr} (h : ∀ e ∈ list, e.Written) :
    EmitsAs (fun c => Code.op .pushArray ++ c) (Expr.lowerItems s list)
      (writeArguments (Expr.writeItems E list)) := by
  obtain ⟨c, f, hm, hl⟩ := Expr.writeItems_emits hs h
  exact ⟨c, f, (op_writes .pushArray).before hm, hl⟩

/-- The values of a template are appended to an array, none of them spread. -/
theorem Expr.writeEach_emits (hs : E.Agrees s) {list : List Expr} (h : ∀ e ∈ list, e.Written) :
    EmitsAs (fun codes => codes.flatMap (· ++ Code.op .append)) (Expr.lowerList s list)
      (Expr.writeEach E list) := by
  induction list with
  | nil => exact ⟨[], none, .pure (), .made []⟩
  | cons e rest ih =>
    obtain ⟨c, f, hm, hl⟩ := (h e List.mem_cons_self).value hs
    obtain ⟨codes, g, hm', hl'⟩ := ih fun d hd => h d (List.mem_cons_of_mem _ hd)
    refine ⟨c :: codes, _, ?_, hl.bind (hl'.map _)⟩
    have hall := hm.seq ((op_writes .append).before hm')
    simp only [List.flatMap_cons, List.append_assoc] at hall ⊢
    exact hall

/-- Texts and values joined one after the other to the text on top. -/
theorem Expr.writeJoined_emits (hs : E.Agrees s) (quasis : List TemplateElement) {list : List Expr}
    (h : ∀ e ∈ list, e.Written) :
    EmitsAs (templateCode.joined quasis) (Expr.lowerList s list)
    (Expr.writeJoined E quasis list) := by
  induction list generalizing quasis with
  | nil =>
    refine ⟨[], none, ?_, .made []⟩
    cases quasis <;> exact .pure ()
  | cons e rest ih =>
    obtain ⟨c, f, hm, hl⟩ := (h e List.mem_cons_self).value hs
    have hrest := ih (h := fun d hd => h d (List.mem_cons_of_mem _ hd))
    cases quasis with
    | nil =>
      obtain ⟨codes, g, hm', hl'⟩ := hrest []
      refine ⟨c :: codes, _, ?_, hl.bind (hl'.map _)⟩
      have hall := hm.seq ((op_writes .concat).before hm')
      simp only [templateCode.joined, List.append_assoc] at hall ⊢
      exact hall
    | cons q quasis =>
      obtain ⟨codes, g, hm', hl'⟩ := hrest quasis
      refine ⟨c :: codes, _, ?_, hl.bind (hl'.map _)⟩
      have htext := (string_writes q.cooked).before ((op_writes .concat).before hm')
      have hall := hm.seq ((op_writes .concat).before htext)
      simp only [templateCode.joined, List.append_assoc] at hall ⊢
      exact hall

theorem Property.writeList_emits (hs : E.Agrees s) {list : List Property}
    (h : ∀ p ∈ list, p.Written) :
    Emits (Property.lowerList s list) (Property.writeList E list) := by
  induction list with
  | nil => exact .nil
  | cons p rest ih =>
    exact (h p List.mem_cons_self hs).append (ih fun q hq => h q (List.mem_cons_of_mem _ hq))

theorem Element.writeList_emits (hs : E.Agrees s) {list : List Element}
    (h : ∀ e ∈ list, e.Written) :
    Emits (Element.lowerList s list) (Element.writeList E list) := by
  induction list with
  | nil => exact .nil
  | cons e rest ih =>
    exact (h e List.mem_cons_self hs).append (ih fun q hq => h q (List.mem_cons_of_mem _ hq))

theorem PatternProperty.writeList_emits (hs : E.Agrees s) (listed : Bool)
    {list : List PatternProperty} (h : ∀ p ∈ list, p.Written) :
    Emits (PatternProperty.lowerList s (propertyShape listed) list)
      (PatternProperty.writeList E listed list) := by
  induction list with
  | nil => exact .nil
  | cons p rest ih =>
    exact (h p List.mem_cons_self hs listed).append (ih fun q hq => h q (List.mem_cons_of_mem _ hq))

theorem Pattern.writeRest_emits (hs : E.Agrees s) {rest : Option Pattern}
    (h : ∀ p ∈ rest, p.Written) :
    Emits (Pattern.lowerRest s rest) (Pattern.writeRest E rest) := by
  cases rest with
  | none => exact .nil
  | some p =>
    obtain ⟨c, f, hm, hl⟩ := (h p rfl).write hs
    exact ⟨_, f, (op_writes .rest).before hm, hl.map _⟩

end Lists

/-! ## Expressions -/

namespace Expr.Written

variable {e left right : Expr} {span : Span}

/-- Code that is the same whatever it is used for. -/
theorem of_code {m : Writing Unit} {c : Code} (hplain : e.isPlain = true) (hlink : e.isLink = false)
    (hlower : ∀ s use, e.lower s use = .ok c) (hwrite : ∀ E name, e.write E name = m)
    (hm : Writes m c none) : e.Written := by
  refine of_emits hplain hlink fun E s _ use => ?_
  rw [hlower, hwrite]
  exact .of_ok hm

theorem identifier (n : Name) : (Expr.identifier n).Written where
  write _ _ _ _ _ := .of_ok (text_writes .load n.text)
  operand _ _ _ := (Emits.of_ok (text_writes .load n.text)).link
  called _ _ _ := .none
  bare _ _ _ := .none
  reference _ _ _ _ := .target (.binding n.text) [] none (.pure _) (.made _)
  item _ _ _ _ hrest := appended (.of_ok (text_writes .load n.text)) hrest

/-- A missing element is a hole in an array. -/
theorem missing : Expr.missing.Written where
  write _ _ _ _ _ := .refuse {} .missingPart (op_writes .pushUndefined)
  operand _ _ _ := (Emits.refuse {} .missingPart (op_writes .pushUndefined)).link
  called _ _ _ := .none
  bare _ _ _ := .none
  reference _ _ _ cause := .refused _ _ ((report_writes _ cause).answering none) rfl
  item _ _ _ _ hrest := by
    have hhole : Writes (put holeCode) holeCode none := put_writes rfl
    obtain ⟨c, f, hm, hl⟩ := hrest
    exact ⟨_, f, hhole.before hm, hl.map _⟩

/-- The expressions without parts. -/
theorem atom (h : e.isAtom = true) : e.Written := by
  cases e with
  | missing => exact missing
  | identifier n => exact identifier n
  | privateName n =>
    exact of_code rfl rfl (fun _ _ => rfl) (fun _ _ => rfl) (string_writes ("#" ++ n.text))
  | nullLiteral span =>
    exact of_code rfl rfl (fun _ _ => rfl) (fun _ _ => rfl) (op_writes .pushNull)
  | boolean span value =>
    exact of_code rfl rfl (fun _ _ => rfl) (fun _ _ => rfl)
      (op_writes (if value then .pushTrue else .pushFalse))
  | number span raw value =>
    refine of_code rfl rfl (fun _ _ => rfl) (fun _ _ => rfl) (put_writes ?_)
    unfold numberCode
    split
    · rfl
    · split <;> rfl
  | bigint span raw value =>
    exact of_code rfl rfl (fun _ _ => rfl) (fun _ _ => rfl)
      (text_writes .pushBigint (integerText value))
  | string l => exact of_code rfl rfl (fun _ _ => rfl) (fun _ _ => rfl) (string_writes l.value)
  | regexp span raw pattern flags =>
    exact of_code rfl rfl (fun _ _ => rfl) (fun _ _ => rfl) (put_writes rfl)
  | thisRef span => exact of_code rfl rfl (fun _ _ => rfl) (fun _ _ => rfl) (op_writes .pushThis)
  | superRef span =>
    exact of_emits rfl rfl fun _ _ _ _ => .refuse span .bareSuper (op_writes .pushUndefined)
  | metaProperty span owner property =>
    exact of_code rfl rfl (fun _ _ => rfl) (fun _ _ => rfl)
      (text_writes .load (nameText owner ++ "." ++ nameText property))
  | _ => cases h

/-- What stands in a list with dots before it is spread out. -/
theorem spread (h : e.Written) : (Expr.spread span e).Written where
  write _ _ _ _ _ := .refuse span .spread (op_writes .pushUndefined)
  operand _ _ _ := (Emits.refuse span .spread (op_writes .pushUndefined)).link
  called _ _ _ := .none
  bare _ _ _ := .none
  reference _ _ _ cause := .refused _ _ ((report_writes _ cause).answering none) rfl
  item E s hs rest hrest := by
    obtain ⟨c, f, hm, hl⟩ := h.value hs
    obtain ⟨d, g, hm', hl'⟩ := hrest
    refine ⟨_, _, ?_, hl.bind (hl'.map _)⟩
    rw [List.append_assoc]
    exact hm.seq ((op_writes .spread).before hm')

/-- Both ways to speak of a member, as code and as what writes it, take apart the same
base and the same key. -/
theorem member_agrees {E : WriteSite} {s : CodeSite} (hs : E.Agrees s) {base property : Expr}
    (hbase : base.Written) (hproperty : property.Written) (computed optional : Bool) :
    (Member.of base property computed optional (fun use => base.lower s use)
      (property.lower s .value)).Agrees
      (MemberWriter.of base property computed optional (base.write E "") (base.writeLink E)
        (property.write E "")) where
  ofSuper := rfl
  isPrivate := rfl
  optional := rfl
  object := hbase.value hs
  operand := hbase.operand hs
  key := property.asKey_emits computed (hproperty.value hs)

/-- Parentheses end a chain, and what stands in them may still be called, removed
and assigned to. -/
theorem paren (h : e.Written) : (Expr.paren span e).Written where
  write _ _ hs _ _ := h.value hs
  operand _ _ hs := (h.value hs).link
  called E s hs := by
    cases e with
    | member span base property computed optional =>
      have hmember := h.called hs
      change Option.Rel _ (if optional || base.isOptionalChain then none else _)
        (if optional || base.isOptionalChain then none else _)
      split
      · exact .none
      · cases hmember with
        | some hboth => exact .some ⟨hboth.1, rfl⟩
    | _ => exact .none
  bare _ _ hs := h.bare hs
  reference _ _ hs cause := h.reference hs cause
  item _ _ hs rest hrest := appended (e := .paren span e) (h.value hs) hrest

/-- A member is read through a chain that ends with it. -/
theorem member {base property : Expr} {computed optional : Bool} (hbase : base.Written)
    (hproperty : property.Written) :
    (Expr.member span base property computed optional).Written := by
  have hagrees {E : WriteSite} {s : CodeSite} (hs : E.Agrees s) :=
    member_agrees hs hbase hproperty computed optional
  have hvalue {E : WriteSite} {s : CodeSite} (hs : E.Agrees s) (use : Use) (huse : use ≠ .link) :
      Emits ((Expr.member span base property computed optional).lower s use)
        ((Expr.member span base property computed optional).write E use.name) := by
    obtain ⟨c, f, hm, hl⟩ := (hagrees hs).read_emits
    cases use with
    | link => exact absurd rfl huse
    | value | named => exact ⟨_, _, hm.writes, hl.map _⟩
  refine ⟨fun E s hs => hvalue hs, fun E s hs => ?_, fun E s hs => .some ⟨hagrees hs, rfl⟩,
    fun E s hs => .some (hagrees hs), fun E s hs cause => ?_, fun E s hs rest hrest => ?_⟩
  · obtain ⟨c, f, hm, hl⟩ := (hagrees hs).read_emits
    exact ⟨c, f, hm, hl.map _⟩
  · change EmitsReference (if optional || base.isOptionalChain then _ else _)
      (if optional || base.isOptionalChain then _ else _)
    split
    · exact .refused _ _ ((report_writes span cause).answering none) rfl
    · exact (hagrees hs).reference_emits
  · exact appended (hvalue hs .value Use.noConfusion) hrest

/-- A template is a string to which the values and the texts between them are joined. -/
theorem template {t : Template} (h : ∀ e ∈ t.expressions, e.Written) :
    (Expr.template t).Written := by
  refine of_emits rfl rfl fun E s hs use => ?_
  obtain ⟨span, quasis, expressions⟩ := t
  cases quasis with
  | nil => exact .of_ok (string_writes "")
  | cons q quasis =>
    obtain ⟨codes, f, hm, hl⟩ := Expr.writeJoined_emits hs quasis h
    exact ⟨_, f, (string_writes q.cooked).before hm, hl.map _⟩

/-- A template as a tag sees it is three arrays. -/
private theorem parts_emits {E : WriteSite} {s : CodeSite} (hs : E.Agrees s) {t : Template}
    (h : ∀ e ∈ t.expressions, e.Written) :
    Emits (Template.lowerParts s t) (Template.writeParts E t) := by
  obtain ⟨span, quasis, expressions⟩ := t
  obtain ⟨codes, f, hm, hl⟩ := Expr.writeEach_emits hs h
  have htexts (text : TemplateElement → Text) :
      Writes (put (arrayCode (quasis.map fun q => Code.string (text q))))
        (arrayCode (quasis.map fun q => Code.string (text q))) none := by
    refine put_writes ?_
    rw [arrayCode, Code.isStraight, List.all_append, List.flatMap_map, List.all_flatMap]
    exact Bool.and_eq_true_iff.mpr ⟨rfl, List.all_eq_true.mpr fun q _ => rfl⟩
  refine ⟨_, f, ?_, hl.map _⟩
  rw [List.append_assoc]
  exact (htexts (·.cooked)).before ((htexts (·.raw)).before ((op_writes .pushArray).before hm))

/-- A tag that is a member is called with the object it is a member of. -/
theorem tagged {tag : Expr} {quasi : Template} (htag : tag.Written)
    (hquasi : ∀ e ∈ quasi.expressions, e.Written) : (Expr.tagged span tag quasi).Written := by
  refine of_emits rfl rfl fun E s hs use => ?_
  have hparts := parts_emits hs hquasi
  have hcalled := htag.called hs
  rw [Expr.lower_tagged, Expr.write_tagged]
  generalize tag.calledMember? s = m, tag.calledWriter? E = x at hcalled
  cases hcalled with
  | some h => exact h.1.tag_emits hs span hparts
  | none =>
    obtain ⟨c, f, hm, hl⟩ := htag.value hs
    obtain ⟨d, g, hm', hl'⟩ := hparts
    refine ⟨_, _, ?_, hl.bind (hl'.map _)⟩
    rw [List.append_assoc]
    exact hm.seq (hm'.ending (hs.placed_writes .tag span))

theorem array {elements : List Expr} (h : ∀ e ∈ elements, e.Written) :
    (Expr.array span elements).Written := by
  refine of_emits rfl rfl fun E s hs use => ?_
  obtain ⟨c, f, hm, hl⟩ := Expr.writeItems_emits hs h
  exact ⟨_, f, (op_writes .pushArray).before hm, hl.map _⟩

theorem object {properties : List Property} (h : ∀ p ∈ properties, p.Written) :
    (Expr.object span properties).Written := by
  refine of_emits rfl rfl fun E s hs use => ?_
  obtain ⟨c, f, hm, hl⟩ := Property.writeList_emits hs h
  exact ⟨_, f, (op_writes .pushObject).before hm, hl.map _⟩

/-- A call as a link. Of what is called, a member keeps its object and `super` has
the constructor of the superclass. -/
private theorem call_emits {E : WriteSite} {s : CodeSite} (hs : E.Agrees s) {callee : Expr}
    {arguments : List Expr} {optional : Bool} (hcallee : callee.Written)
    (harguments : ∀ e ∈ arguments, e.Written) (use : Use) :
    ∃ c f, Prolongs (E.call span callee optional (callee.calledWriter? E) (callee.write E "")
        (callee.writeLink E) (writeArguments (Expr.writeItems E arguments))) c f ∧
      LowersTo ((Expr.call span callee arguments optional).lower s use) (use.finish c) f := by
  have hitems := Expr.writeItems_emits hs harguments
  obtain ⟨a, g, hpush, hlitems⟩ := Expr.writeArguments_emits hs harguments
  rw [Expr.lower_call]
  unfold WriteSite.call
  split
  -- A super call pushes its arguments and is followed by the fields.
  · obtain ⟨c, f, hm, hl⟩ := hs.superCall_emits span
    refine ⟨_, _, ?_, hlitems.bind (hl.map _)⟩
    exact .after hpush (.of_writes hm)
  · have hcalled := hcallee.called hs
    generalize callee.calledMember? s = m, callee.calledWriter? E = x at hcalled
    cases hcalled with
    -- A member is called on its object, and the two sides agree on which callees are members.
    | @some m x h =>
      obtain ⟨m, direct⟩ := m
      obtain ⟨x, direct'⟩ := x
      obtain ⟨hmember, hdirect⟩ := h
      cases hdirect
      obtain ⟨c, f, hm, hl⟩ := hmember.call_emits direct optional hs span hitems
      exact ⟨c, f, hm, hl.map _⟩
    | none =>
      by_cases heval : (callee.isEval && !optional) = true
      · -- What is called by the name of `eval` is no chain, so that its code is complete
        -- as it stands.
        cases callee with
        | identifier n =>
          simp only [heval, if_true]
          have hload := text_writes .load n.text
          have hcall := hload.before (hpush.ending (hs.placed_writes .directEval span))
          have hfinish (c : Code) (hc : c.Closed) : use.finish c = c := by
            cases use with
            | link => rfl
            | value | named => exact hc.sealed
          have hall := Prolongs.of_writes hcall
          simp only [bind_assoc] at hall
          refine ⟨_, _, hall, ?_⟩
          rw [hfinish _ hcall.closed, ← List.append_assoc]
          exact (LowersTo.made _).bind (hlitems.map _)
        | _ => cases heval
      · simp only [heval, Bool.false_eq_true, if_false]
        obtain ⟨c, f, hoperand, hl⟩ := hcallee.operand hs
        have hcall := Prolongs.of_writes (hpush.ending (hs.placed_writes .call span))
        have hall := hoperand.next ((exitIf_links optional).next hcall)
        refine ⟨_, _, ?_, hl.bind (hlitems.map _)⟩
        simpa only [bind_assoc, Option.none_or, List.append_assoc] using hall

/-- A call ends a chain, so what leads out of the chain is closed behind it and not at the
call. -/
theorem call {callee : Expr} {arguments : List Expr} {optional : Bool} (hcallee : callee.Written)
    (harguments : ∀ e ∈ arguments, e.Written) :
    (Expr.call span callee arguments optional).Written := by
  refine of_operand rfl (fun E s hs use huse => ?_) fun E s hs => ?_
  · obtain ⟨c, f, hm, hl⟩ := call_emits hs hcallee harguments use
    cases use with
    | link => exact absurd rfl huse
    | value | named => exact ⟨_, f, hm.writes, hl⟩
  · obtain ⟨c, f, hm, hl⟩ := call_emits hs hcallee harguments .link
    exact ⟨c, f, hm, hl⟩

theorem construct {callee : Expr} {arguments : List Expr} (hcallee : callee.Written)
    (harguments : ∀ e ∈ arguments, e.Written) : (Expr.construct span callee arguments).Written := by
  refine of_emits rfl rfl fun E s hs use => ?_
  obtain ⟨c, f, hm, hl⟩ := hcallee.value hs
  obtain ⟨d, g, hpush, hl'⟩ := Expr.writeArguments_emits hs harguments
  refine ⟨_, _, ?_, hl.bind (hl'.map _)⟩
  have hall := hm.seq (hpush.ending (hs.placed_writes .construct span))
  simp only [List.append_assoc] at hall ⊢
  exact hall

/-- An import is a call of `import` with one argument or two. -/
theorem importCall {source : Expr} {options : Option Expr} (hsource : source.Written)
    (hoptions : ∀ e ∈ options, e.Written) : (Expr.importCall span source options).Written := by
  refine of_emits rfl rfl fun E s hs use => ?_
  obtain ⟨c, f, hm, hl⟩ := hsource.value hs
  have hoption : EmitsAs (fun c => c.toList.flatMap (· ++ Code.op .append))
      (Expr.lowerOption s .value options) (Expr.writeAppended E options) := by
    refine Expr.lowerOption_emits hs Use.value_ne_link (Expr.writeAppended E) hoptions (.pure ())
      fun e c f hm => ?_
    have happend := hm.ending (op_writes .append)
    simp only [Option.toList_some, List.flatMap_cons, List.flatMap_nil,
      List.append_nil] at happend ⊢
    exact happend
  obtain ⟨o, g, hm', hl'⟩ := hoption
  refine ⟨_, _, ?_, hl.bind (hl'.map _)⟩
  have hitems := hm.seq ((op_writes .append).before (hm'.ending (hs.placed_writes .call span)))
  have hall := (text_writes .load "import").before ((op_writes .pushArray).before hitems)
  simp only [arrayCode, List.flatMap_cons, List.append_assoc] at hall ⊢
  exact hall

/-- What is deleted is a member, a name or a value, and each is written in its own way.
Other operators are one operation. -/
theorem unary {o : Kind} (h : e.Written) : (Expr.unary span o e).Written := by
  refine of_emits rfl rfl fun E s hs use => ?_
  have hbare := h.bare hs
  obtain ⟨c, f, hm, hl⟩ := h.value hs
  rw [Expr.lower_unary, Expr.write_unary]
  split
  · generalize e.bareMember? s = m, e.bareWriter? E = x at hbare
    cases hbare with
    | some hmember => exact hmember.remove_emits span
    | none =>
      have hremove := hm.ending (op_writes .remove)
      generalize e.withoutParens = inner
      cases inner with
      | identifier n => exact .of_ok (op_writes .pushFalse)
      | _ => exact ⟨_, f, hremove, hl.map _⟩
  · cases o.unaryOpcode? with
    | some o => exact ⟨_, f, hm.ending (op_writes o), hl.map _⟩
    | none => exact .refuse span _ (hm.ending (op_writes .void))

theorem await (h : e.Written) : (Expr.await span e).Written := by
  refine of_emits rfl rfl fun E s hs use => ?_
  obtain ⟨c, f, hm, hl⟩ := h.value hs
  exact ⟨_, f, hm.ending (op_writes .await), hl.map _⟩

/-- An update reads its target and sets it, before its value is taken or behind that. -/
theorem update {o : Kind} {before : Bool} (h : e.Written) : (Expr.update span o e before).Written :=
  of_emits rfl rfl fun _ _ hs _ => (h.reference hs _).update _ before

/-- Three kinds of operators: the comma, those that decide by the left operand, and those
that are one operation. -/
theorem binary {o : Kind} (hleft : left.Written) (hright : right.Written) :
    (Expr.binary span o left right).Written := by
  refine of_emits rfl rfl fun E s hs use => ?_
  obtain ⟨c, f, hm, hl⟩ := hleft.value hs
  obtain ⟨d, g, hm', hl'⟩ := hright.value hs
  rw [Expr.lower_binary, Expr.write_binary]
  split
  · refine ⟨_, _, ?_, hl.bind (hl'.map _)⟩
    rw [List.append_assoc]
    exact hm.seq ((op_writes .pop).before hm')
  · cases o.shortCircuit? with
    | some decided =>
      refine ⟨_, _, ?_, hl.bind (hl'.map _)⟩
      have hskip := ((op_writes .pop).before hm').bypassed decided
      simpa only [bind_assoc] using hm.seq hskip
    | none =>
      cases o.binaryOpcode? with
      | some o =>
        refine ⟨_, _, ?_, hl.bind (hl'.map _)⟩
        rw [List.append_assoc]
        exact hm.seq (hm'.ending (op_writes o))
      | none => exact .refuse span _ (hm.seq (hm'.ending (op_writes .add)))

/-- Both branches drop the value that decided between them. -/
theorem conditional {test consequent alternate : Expr} (htest : test.Written)
    (hconsequent : consequent.Written) (halternate : alternate.Written) :
    (Expr.conditional span test consequent alternate).Written := by
  refine of_emits rfl rfl fun E s hs use => ?_
  obtain ⟨c, f, hm, hl⟩ := htest.value hs
  obtain ⟨d, g, hyes, hlyes⟩ := hconsequent.value hs
  obtain ⟨d', g', hno, hlno⟩ := halternate.value hs
  refine ⟨_, _, ?_, hl.bind (hlyes.bind (hlno.map _))⟩
  have hchoice := ((op_writes .pop).before hyes).either .jumpFalse ((op_writes .pop).before hno)
  have hall := hm.seq hchoice
  simp only [Code.choice, bind_assoc, List.append_assoc] at hall ⊢
  exact hall

/-- An assignment, to a pattern that takes the value apart or to a single target. -/
theorem assign {o : Kind} {target : Pattern} {value : Expr} (htarget : target.Written)
    (hvalue : value.Written) : (Expr.assign span o target value).Written := by
  refine of_emits rfl rfl fun E s hs use => ?_
  obtain ⟨v, g, hv, hlv⟩ := hvalue.value hs
  rw [Expr.lower_assign, Expr.write_assign]
  split
  -- A pattern takes its value apart; a reference is located first, and may be refused.
  · obtain ⟨d, g', hm', hl'⟩ := htarget.write hs
    refine ⟨_, _, ?_, hlv.bind (hl'.map _)⟩
    rw [List.append_assoc]
    exact hv.seq ((pick_writes 1).before hm')
  · cases htarget.reference hs with
    | refused c g' hm hl => exact ⟨_, _, hm.bind hv, .bind_refused hl _⟩
    | target t c f hm hl =>
      obtain ⟨n, h, hn, hln⟩ := hvalue.write hs t.use t.use_ne_link
      by_cases hassign : (o == .punct .assign) = true
      · simp only [hassign, if_true]
        refine ⟨_, _, ?_, hl.bind (hln.map _)⟩
        rw [List.append_assoc]
        exact hm.bind (hn.ending t.set_writes)
      · simp only [hassign, Bool.false_eq_true, if_false]
        -- A compound assignment is written with its operator: one that decides, one that computes,
        -- or one that has no opcode and is reported.
        cases o.binary.shortCircuit? with
        | some decided =>
          refine ⟨_, _, ?_, hl.bind (hln.map _)⟩
          refine (hm.bind (t.writeUnless_writes decided hn)).map_code ?_
          simp only [Reference.assignUnless, List.append_assoc, List.nil_append]
        | none =>
          cases o.binary.binaryOpcode? with
          | some o =>
            refine ⟨_, _, ?_, hl.bind (hlv.map _)⟩
            have hset := hv.ending ((op_writes o).ending t.set_writes)
            refine (hm.bind (t.get_writes.before hset)).map_code ?_
            simp only [List.append_assoc]
          | none =>
            have hset := hv.ending ((op_writes .add).ending t.set_writes)
            have hreport := t.get_writes.before ((report_writes span (.operator o)).seq hset)
            exact ⟨_, _, hm.bind hreport, hl.bind (.refuse_or span _ _ _)⟩

/-- Everything that another iterator yields. -/
private theorem delegate_writes (async : Bool) :
    Writes (do
      op (if async then .asyncIterator else .iterator)
      let start ← here
      op (if async then .awaitNext else .next)
      let done ← jump .jumpTrue
      op .pop
      op .yield
      op .pop
      jumpTo .jump start
      patch done
      op .pop
      sink 1
      op .pop) (delegateCode async) none := by
  have hturn := (op_writes .pop).before ((op_writes .yield).ending (op_writes .pop))
  have hloop := (op_writes (if async then .awaitNext else .next)).repeated .jumpTrue hturn
  have hend := (op_writes .pop).before ((sink_writes 1).ending (op_writes .pop))
  have hall := (op_writes (if async then .asyncIterator else .iterator)).before
    (Answers.before hloop hend)
  simpa only [delegateCode, Code.repeated, bind_assoc, List.append_assoc] using hall

/-- A delegating `yield` is a loop over the iterator of its operand. -/
theorem yield {argument : Option Expr} {delegate : Bool} (h : ∀ e ∈ argument, e.Written) :
    (Expr.yield span argument delegate).Written := by
  refine of_emits rfl rfl fun E s hs use => ?_
  obtain ⟨o, f, hm, hl⟩ := Expr.writeOption_emits hs Use.value_ne_link h
  refine ⟨_, _, ?_, hl.map _⟩
  rw [Expr.write_yield, hs.async]
  cases delegate with
  | true => exact hm.ending (delegate_writes s.async)
  | false => exact hm.ending (op_writes .yield)

theorem function {f : Function} (h : f.Written) : (Expr.function f).Written :=
  of_emits rfl rfl fun _ _ hs use => h.write hs use

theorem classExpr {c : Class} (h : c.Written) : (Expr.classExpr c).Written :=
  of_emits rfl rfl fun _ _ hs use => h hs use

/-- An arrow function, which shares the site's instance with its surroundings. -/
theorem arrow {params : Params} {body : Body} {value : Option Expr} {async : Bool} {env : Env}
    (hparams : params.Written) (hbody : body.Written) (hvalue : ∀ e ∈ value, e.Written) :
    (Expr.arrow span params body value async env).Written := by
  refine of_emits rfl rfl fun E s hs use => ?_
  have hinner := hs.inArrow async
  have hresult : Emits
      (if body.isMissing then Expr.lowerValue (s.inArrow async) value
        else body.lower (s.inArrow async))
      (if body.isMissing then Expr.writeValue (E.inArrow async) value
        else body.write (E.inArrow async)) := by
    split
    · cases value with
      | none => exact .refuse {} .missingPart (op_writes .pushUndefined)
      | some e => exact (hvalue e rfl).value hinner
    · exact hbody.write hinner
  obtain ⟨c, f, hopening, hl⟩ := (hbody.hoisted hs).prologue_emits env.scope
  obtain ⟨d, g, hm, hl'⟩ := hparams hinner
  obtain ⟨d', g', hm', hl''⟩ := hresult
  have hleave := (op_writes .giveBack).ending (op_writes .popScope)
  have hobject := hs.functionObject_writes (if async then .pushAsyncLambda else .pushLambda) span
    use.name env.closure (hopening.seq (hm.seq (hm'.ending hleave)))
  rw [Expr.lower_arrow, Expr.write_arrow]
  refine ⟨_, _, ?_, hl.bind (hl'.bind (hl''.map_ite _))⟩
  simpa only [bind_assoc, List.append_assoc] using hobject

end Expr.Written

/-! ## Properties, patterns and parameters -/

namespace Property.Written

variable {span : Span}

/-- A property with a key. A method is told the object it belongs to before it is put
there. -/
theorem keyed {key value : Expr} {computed : Bool} {kind : PropertyKind} (hkey : key.Written)
    (hvalue : value.Written) : (Property.keyed span key computed kind value).Written := by
  intro E s hs
  obtain ⟨c, f, hm, hl⟩ := key.asKey_emits computed (hkey.value hs)
  obtain ⟨d, g, hm', hl'⟩ := hvalue.write hs _ (key.keyUse_ne_link computed)
  have hvalue := hm.seq (hm'.ending (op_writes .initField))
  have hmethod := hm.seq (hm'.ending ((pick_writes 3).before
    ((op_writes .setClass).ending (op_writes (methodOpcode false kind)))))
  simp only [← List.append_assoc] at hvalue hmethod
  cases kind with
  | value => exact ⟨_, _, hvalue, hl.bind (hl'.map _)⟩
  | method | getter | setter | constructor => exact ⟨_, _, hmethod, hl.bind (hl'.map _)⟩

theorem short {name : Option Name} : (Property.short span name).Written := by
  intro E s _
  have hload := (text_writes .load (nameText name)).ending (op_writes .initField)
  refine .of_ok ?_
  rw [List.append_assoc]
  exact (string_writes (nameText name)).before hload

theorem spread {e : Expr} (h : e.Written) : (Property.spread span e).Written := by
  intro E s hs
  obtain ⟨c, f, hm, hl⟩ := h.value hs
  exact ⟨_, f, hm.ending (op_writes .spread), hl.map _⟩

end Property.Written

namespace Pattern.Written

variable {span : Span}

/-- A single target is a name or a member; anything else is refused and its value dropped. -/
theorem target {e : Expr} (h : e.Written) : (Pattern.target e).Written where
  write E s hs := by
    have hbind := (h.reference hs .destructuringTarget).using
      (fun r => r.code ++ r.target.bind) (op .pop) (fun _ => rfl) (fun t => t.bind_writes)
      ⟨_, _, op_writes .pop⟩
    cases e with
    | identifier n => exact .of_ok ((text_writes .store n.text).ending (op_writes .pop))
    | _ => exact hbind
  reference _ _ hs := h.reference hs .assignmentTarget

/-- An array pattern takes one value after the other from an iterator. -/
theorem array {elements : List Element} {rest : Option Pattern}
    (helements : ∀ e ∈ elements, e.Written) (hrest : ∀ p ∈ rest, p.Written) :
    (Pattern.array span elements rest).Written where
  write E s hs := by
    obtain ⟨c, f, hm, hl⟩ := Element.writeList_emits hs helements
    obtain ⟨d, g, hm', hl'⟩ := Pattern.writeRest_emits hs hrest
    refine ⟨_, _, ?_, hl.bind (hl'.map _)⟩
    have hall := (op_writes .iterator).before (hm.seq (hm'.ending (op_writes .pop)))
    simp only [List.append_assoc] at hall ⊢
    exact hall
  reference _ _ _ := .refused _ _ ((report_writes span .assignmentTarget).answering none) rfl

/-- An object pattern that has a rest keeps a list of the keys it has read. -/
theorem object {properties : List PatternProperty} {rest : Option Pattern}
    (hproperties : ∀ p ∈ properties, p.Written) (hrest : ∀ p ∈ rest, p.Written) :
    (Pattern.object span properties rest).Written where
  write E s hs := by
    cases rest with
    | none =>
      obtain ⟨c, f, hm, hl⟩ := PatternProperty.writeList_emits hs false hproperties
      exact ⟨_, f, hm.ending (op_writes .pop), hl.map _⟩
    | some p =>
      obtain ⟨c, f, hm, hl⟩ := PatternProperty.writeList_emits hs true hproperties
      obtain ⟨d, g, hm', hl'⟩ := (hrest p rfl).write hs
      refine ⟨_, _, ?_, hl.bind (hl'.map _)⟩
      have hdrop : Writes (put (Code.drop 2)) (Code.drop 2) none := put_writes rfl
      have hpass := hm.seq ((op_writes .restObject).before (hm'.ending hdrop))
      have hall := (op_writes .pushArray).before hpass
      simp only [List.append_assoc] at hall ⊢
      exact hall
  reference _ _ _ := .refused _ _ ((report_writes span .assignmentTarget).answering none) rfl

end Pattern.Written

theorem Element.Written.hole : Element.hole.Written := by
  intro E s _
  exact .of_ok ((op_writes .next).before ((op_writes .pop).ending (op_writes .pop)))

/-- An element is the next value, or its default where that is `undefined`. -/
theorem Element.Written.bound {span : Span} {target : Pattern} {fallback : Option Expr}
    (htarget : target.Written) (hfallback : ∀ e ∈ fallback, e.Written) :
    (Element.bound span target fallback).Written := by
  intro E s hs
  obtain ⟨c, f, hm, hl⟩ := Expr.writeFallback_emits hs target.use_ne_link hfallback
  obtain ⟨d, g, hm', hl'⟩ := htarget.write hs
  refine ⟨_, _, ?_, hl.bind (hl'.map _)⟩
  have hall := (op_writes .next).before ((op_writes .pop).before (hm.seq hm'))
  simp only [List.append_assoc] at hall ⊢
  exact hall

/-- The key of a property is kept for the rest of the pattern if there is one. -/
theorem PatternProperty.Written.mk {span : Span} {key : Expr} {computed shorthand : Bool}
    {value : Pattern} {fallback : Option Expr} (hkey : key.Written) (hvalue : value.Written)
    (hfallback : ∀ e ∈ fallback, e.Written) :
    PatternProperty.Written ⟨span, key, computed, value, fallback, shorthand⟩ := by
  intro E s hs listed
  obtain ⟨c, f, hm, hl⟩ := key.asKey_emits computed (hkey.value hs)
  obtain ⟨d, g, hm', hl'⟩ := Expr.writeFallback_emits hs value.use_ne_link hfallback
  obtain ⟨d', g', hm'', hl''⟩ := hvalue.write hs
  refine ⟨_, _, ?_, hl.bind (hl'.bind (hl''.map _))⟩
  have hstore := (op_writes .getField).before (hm'.seq hm'')
  cases listed with
  | true =>
    have hlist := (pick_writes 3).before ((pick_writes 2).before
      ((op_writes .append).ending (op_writes .pop)))
    have hall := (pick_writes 2).before (hm.seq (hlist.before hstore))
    simp only [propertyShape, listedPropertyCode, if_true, bind_assoc,
      List.append_assoc] at hall ⊢
    exact hall
  | false =>
    have hall := (pick_writes 1).before (hm.seq hstore)
    simp only [propertyShape, propertyCode, Bool.false_eq_true,
      if_false, List.append_assoc] at hall ⊢
    exact hall

/-- The parameters of a call are taken from the array of its arguments as an array pattern
takes them. -/
theorem Params.Written.list {span : Span} {items : List Element} {rest : Option Pattern}
    (hitems : ∀ e ∈ items, e.Written) (hrest : ∀ p ∈ rest, p.Written) :
    (Params.list span items rest).Written := by
  intro E s hs
  change Emits (if items.isEmpty && rest.isNone then _ else _)
    (if items.isEmpty && rest.isNone then _ else _)
  split
  · exact .nil
  · obtain ⟨c, f, hm, hl⟩ := Element.writeList_emits hs hitems
    obtain ⟨d, g, hm', hl'⟩ := Pattern.writeRest_emits hs hrest
    refine ⟨_, _, ?_, hl.bind (hl'.map _)⟩
    have hopen := (op_writes .iterator).before (hm.seq (hm'.ending (op_writes .pop)))
    have hall := (text_writes .load "arguments").before hopen
    simpa only [List.append_assoc] using hall

end EcmaStack

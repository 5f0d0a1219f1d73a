import EcmaStack.Proofs.Closure.References
import EcmaStack.Proofs.Tree.Grammatical

/-!
# Free names and references

Names **agree** with references when they are the names of those references that
no scope in force declares, other than a decorator's references to the class it
decorates. Lists and optional parts agree part by part, and what a function-like
node captures agrees with the references inside it, seen from around the node
(`Agrees.capture`).

The chain of a place ends with the scope of the function around it. Names are
looked up as far as the first scope of a function, so that a lookup sees the
whole chain is a property of its own (`Scope.Nested`).
-/

namespace EcmaStack

open Scope (BindsAll)

/-! ## Chains and places inside one function -/

/-- Every scope of the chain but the outermost is a block: nothing is hidden behind the scope of
a function. -/
def Scope.Nested (chain : List Scope) : Prop :=
  ∀ s ∈ chain.dropLast, s.kind = .block

namespace Scope

variable {scope : Scope} {chain : List Scope}

theorem Nested.single : Nested [scope] :=
  fun _ hs => nomatch hs

/-- A block within scopes that are nested. -/
theorem Nested.cons (h : Nested chain) (hscope : scope.kind = .block) :
    Nested (scope :: chain) := by
  intro s hs
  cases chain with
  | nil => cases hs
  | cons t chain =>
    rcases List.mem_cons.mp hs with rfl | hs
    · exact hscope
    · exact h s hs

theorem Nested.tail (h : Nested (scope :: chain)) : Nested chain := by
  intro s hs
  cases chain with
  | nil => cases hs
  | cons t chain => exact h s (List.mem_cons_of_mem scope hs)

/-- In nested scopes a name is bound if one of them declares it: none of them hides the
others. -/
theorem binds_iff_of_nested {x : String} (h : Nested chain) :
    binds x chain = true ↔ ∃ s ∈ chain, s.declares x = true := by
  induction chain with
  | nil => simp [binds]
  | cons s chain ih =>
    rw [binds_cons, ih h.tail, List.exists_mem_cons_iff]
    cases chain with
    | nil => simp
    | cons t chain =>
      have hkind : s.kind ≠ .function := by simp [h s List.mem_cons_self]
      simp only [ne_eq, hkind, not_false_eq_true, true_and]

end Scope

namespace Standing

/-- Where names are looked up that stand here, and functions are made. -/
def place (w : Standing) : Place :=
  ⟨w.ahead.toList ++ w.chain, w.chain⟩

/-- The scopes stay inside one function. -/
structure Regular (w : Standing) : Prop where
  chain : Scope.Nested w.chain
  ahead : ∀ s ∈ w.ahead, s.kind = .block

variable {w : Standing} {chain : List Scope}

/-- Nothing but scopes around: the resolver and the text agree on all of them. -/
theorem Regular.plain (h : Scope.Nested chain) : (Standing.plain chain).Regular :=
  ⟨h, fun _ hs => nomatch hs⟩

theorem Regular.here (h : w.Regular) : Scope.Nested w.place.here := by
  obtain ⟨chain, ahead⟩ := w
  cases ahead with
  | none => exact h.chain
  | some s => exact h.chain.cons (h.ahead s rfl)

/-- Entering a scope is entering it in the place. -/
theorem place_enter (w : Standing) (scope : Option Scope) :
    (w.enter scope).place = w.place.enter scope := by
  cases scope with
  | none => rfl
  | some s => rfl

/-- Where the decorators of a class stand, as the resolver has it. -/
theorem place_decorators (w : Standing) (env : Env) :
    (w.decorators env).place = w.place.decorators env := by
  unfold decorators Place.decorators
  cases env.nameScope with
  | none => rfl
  | some s => rfl

end Standing

/-- A name is free where it is not `arguments` and no scope of the place declares it. -/
theorem Place.mem_reference {p : Place} {x y : String} (hp : Scope.Nested p.here) :
    x ∈ p.reference y ↔ x = y ∧ y ≠ "arguments" ∧ ∀ s ∈ p.here, s.declares y = false := by
  have hbinds : Scope.binds y p.here = false ↔ ∀ s ∈ p.here, s.declares y = false := by
    rw [← Bool.not_eq_true, Scope.binds_iff_of_nested hp]
    simp only [not_exists, not_and, Bool.not_eq_true]
  rw [← hbinds, Place.reference]
  split
  · next h =>
    rw [Bool.or_eq_true, beq_iff_eq] at h
    simp only [List.not_mem_nil, false_iff, not_and, Bool.not_eq_false]
    exact fun _ hy => h.resolve_left hy
  · next h =>
    rw [Bool.or_eq_true, beq_iff_eq, not_or, Bool.not_eq_true] at h
    simp only [List.mem_singleton, h.1, h.2, ne_eq, not_false_eq_true, and_self, and_true]

variable {w : Standing} {env : Env} {scope : Scope}

theorem Env.standing_place (env : Env) : env.standing.place = env.place := by
  unfold Env.standing Env.place
  cases env.scope with
  | none => rfl
  | some s => rfl

/-- What opens one scope has this scope alone around its parts. -/
theorem Env.Opens.standing_eq (h : env.Opens scope) : env.standing = .plain [scope] := by
  rw [Env.standing, h.scope_eq]
  rfl

theorem Env.Opens.standing_regular (h : env.Opens scope) : env.standing.Regular :=
  h.standing_eq ▸ .plain .single

/-- The scopes around a function-like node. -/
theorem Env.Opens.outside_eq (h : env.Opens scope) :
    (w.place.outside env).here = env.nameScope.toList ++ w.chain := by
  unfold Place.outside
  rw [h.scope_eq]
  cases env.nameScope with
  | none => rfl
  | some s => rfl

/-- Where a function-like node is made is inside one function too. -/
theorem Env.Opens.outside_nested (h : env.Opens scope) (hw : w.Regular) :
    Scope.Nested (env.nameScope.toList ++ w.chain) := by
  cases hname : env.nameScope with
  | none => exact hw.chain
  | some s => exact hw.chain.cons (h.nameKind s hname)

theorem Env.Opens.decorators_regular (h : env.Opens scope) (hw : w.Regular) :
    (w.decorators env).Regular := by
  unfold Standing.decorators
  cases hname : env.nameScope with
  | none => exact hw
  | some s => exact ⟨hw.chain, fun t ht => Option.some.inj ht ▸ h.nameKind s hname⟩

/-- What a class is derived from is read where the name of the class is known. -/
theorem Env.Opens.heritage_regular (h : env.Opens scope) (hw : w.Regular) :
    (w.enter env.nameScope).Regular := by
  cases hname : env.nameScope with
  | none => exact hw
  | some s => exact .plain (hw.chain.cons (h.nameKind s hname))

/-! ## Names and references -/

/-- No name stays twice. -/
theorem nodup_eraseDups (names : List String) : names.eraseDups.Nodup := by
  cases names with
  | nil => exact List.nodup_nil
  | cons x rest =>
    rw [List.eraseDups_cons, List.nodup_cons, List.mem_eraseDups]
    refine ⟨fun h => ?_, nodup_eraseDups _⟩
    simp at h
termination_by names.length
decreasing_by exact Nat.lt_succ_of_le (List.length_filter_le _ _)

/-- The names are those of the references that no scope declares, apart from the
references of decorators to the decorated class. The name `arguments` is not
captured. -/
def Agrees (names : List String) (references : List NameReference) : Prop :=
  ∀ x, x ∈ names ↔ x ≠ "arguments" ∧ ∃ r ∈ references, r.name = x ∧ r.IsUnbound ∧ r.IsApart

namespace Agrees

variable {α : Type} {a b : List String} {r s : List NameReference} {chain : List Scope}

theorem nil : Agrees [] [] := by
  simp [Agrees]

/-- What two parts leave free is what both together leave free. -/
theorem append (h : Agrees a r) (k : Agrees b s) : Agrees (a ++ b) (r ++ s) := by
  intro x
  rw [List.mem_append, h x, k x, ← and_or_left]
  simp only [List.mem_append, or_and_right, exists_or]

/-- A part that is there under a condition. -/
theorem onlyIf {c : Bool} (h : Agrees a r) :
    Agrees (if c then a else []) (if c then r else []) := by
  cases c with
  | true => exact h
  | false => exact nil

/-- Naming a free name twice does not make it freer. -/
theorem eraseDups (h : Agrees a r) : Agrees a.eraseDups r :=
  fun x => List.mem_eraseDups.trans (h x)

/-- Parts in a list agree one by one. -/
theorem list {frees : List α → List String} {refs : List α → List NameReference}
    {free : α → List String} {ref : α → List NameReference} {xs : List α} (hfrees : frees [] = [])
    (hrefs : refs [] = []) (hfree : ∀ x rest, frees (x :: rest) = free x ++ frees rest)
    (href : ∀ x rest, refs (x :: rest) = ref x ++ refs rest)
    (h : ∀ x ∈ xs, Agrees (free x) (ref x)) : Agrees (frees xs) (refs xs) := by
  induction xs with
  | nil =>
    rw [hfrees, hrefs]
    exact nil
  | cons x rest ih =>
    rw [hfree, href]
    exact (h x List.mem_cons_self).append (ih fun y hy => h y (List.mem_cons_of_mem x hy))

/-- A part that may be missing agrees if it does where it is there. -/
theorem option {frees : Option α → List String} {refs : Option α → List NameReference}
    {o : Option α} (hfrees : frees none = []) (hrefs : refs none = [])
    (h : ∀ x ∈ o, Agrees (frees (some x)) (refs (some x))) :
    Agrees (frees o) (refs o) := by
  cases o with
  | none =>
    rw [hfrees, hrefs]
    exact nil
  | some x => exact h x rfl

/-- A single reference: the resolver lists its name exactly if no scope around it binds
that, but where a decorator meets the name of its class. -/
theorem reference (hw : w.Regular) (n : Name) :
    Agrees (w.place.reference n.text) (w.references (some n)) := by
  have hlookup : (∀ s ∈ w.place.here, s.declares n.text = false) ↔
      (∀ s ∈ w.chain, s.declares n.text = false) ∧ ∀ s ∈ w.ahead, s.declares n.text = false := by
    rw [and_comm]
    simp only [Standing.place, List.forall_mem_append, Option.mem_toList, Option.mem_def]
  intro x
  rw [Place.mem_reference hw.here]
  constructor
  · rintro ⟨rfl, hname, hunbound⟩
    have ⟨hchain, hahead⟩ := hlookup.mp hunbound
    exact ⟨hname, ⟨n.text, w.chain, w.ahead⟩, List.mem_singleton.mpr rfl, rfl, hchain, hahead⟩
  · rintro ⟨hname, r, hr, rfl, hchain, hahead⟩
    cases List.mem_singleton.mp hr
    exact ⟨rfl, hname, hlookup.mpr ⟨hchain, hahead⟩⟩

/-- A name that is bound is free nowhere. -/
theorem bound {p : Place} {n : Name} (h : Scope.binds n.text p.here = true) :
    Agrees (p.reference n.text) [] := by
  unfold Place.reference
  rw [h, Bool.or_true]
  exact nil

/-- The names a function-like node captures stand for the references inside it,
whatever is around it. -/
theorem capture (h : Agrees env.closure r) (hopens : env.Opens scope) (hw : w.Regular) :
    Agrees (w.place.capture env) (w.around env r) := by
  intro x
  have hcapture : x ∈ w.place.capture env ↔ x ∈ env.closure ∧ x ≠ "arguments" ∧
      ∀ s ∈ env.nameScope.toList ++ w.chain, s.declares x = false := by
    have houtside := hopens.outside_eq (w := w)
    have hplace := houtside ▸ hopens.outside_nested hw
    simp only [Place.capture, List.mem_flatMap, Place.mem_reference hplace, houtside]
    constructor
    · rintro ⟨y, hy, rfl, hx⟩
      exact ⟨hy, hx⟩
    · rintro ⟨hx, hfree⟩
      exact ⟨x, hx, rfl, hfree⟩
  rw [hcapture, h x]
  constructor
  · rintro ⟨⟨hname, r, hr, rfl, hinner, hapart⟩, -, houter⟩
    refine ⟨hname, r.outward _, List.mem_map_of_mem hr, rfl, fun s hs => ?_, hapart⟩
    exact (List.mem_append.mp hs).elim (hinner s) (houter s)
  · rintro ⟨hname, r', hr', rfl, hunbound, hapart⟩
    obtain ⟨r, hr, rfl⟩ := List.mem_map.mp hr'
    refine ⟨⟨hname, r, hr, rfl, fun s hs => ?_, hapart⟩, hname, fun s hs => ?_⟩
    · exact hunbound s (List.mem_append_left _ hs)
    · exact hunbound s (List.mem_append_right _ hs)

end Agrees

/-! ## Lists and optional parts -/

theorem Expr.list_agrees {es : List Expr} (h : ∀ e ∈ es, Agrees (e.free w.place) (e.references w)) :
    Agrees (Expr.freeList w.place es) (Expr.referencesList w es) :=
  .list rfl rfl (fun _ _ => rfl) (fun _ _ => rfl) h

theorem Expr.option_agrees {o : Option Expr}
    (h : ∀ e ∈ o, Agrees (e.free w.place) (e.references w)) :
    Agrees (Expr.freeOption w.place o) (Expr.referencesOption w o) :=
  .option rfl rfl h

theorem Template.agrees {t : Template}
    (h : ∀ e ∈ t.expressions, Agrees (e.free w.place) (e.references w)) :
    Agrees (t.free w.place) (t.references w) := by
  obtain ⟨span, quasis, expressions⟩ := t
  exact Expr.list_agrees h

theorem Property.list_agrees {ps : List Property}
    (h : ∀ x ∈ ps, Agrees (x.free w.place) (x.references w)) :
    Agrees (Property.freeList w.place ps) (Property.referencesList w ps) :=
  .list rfl rfl (fun _ _ => rfl) (fun _ _ => rfl) h

theorem Decorator.list_agrees {ds : List Decorator}
    (h : ∀ d ∈ ds, Agrees (d.expression.free w.place) (d.expression.references w)) :
    Agrees (Decorator.freeList w.place ds) (Decorator.referencesList w ds) := by
  refine .list rfl rfl (fun _ _ => rfl) (fun _ _ => rfl) fun d hd => ?_
  obtain ⟨span, e⟩ := d
  exact h ⟨span, e⟩ hd

theorem Stmt.list_agrees {items : List Stmt}
    (h : ∀ b ∈ items, Agrees (b.free w.place) (b.references w)) :
    Agrees (Stmt.freeList w.place items) (Stmt.referencesList w items) :=
  .list rfl rfl (fun _ _ => rfl) (fun _ _ => rfl) h

theorem Stmt.option_agrees {o : Option Stmt}
    (h : ∀ b ∈ o, Agrees (b.free w.place) (b.references w)) :
    Agrees (Stmt.freeOption w.place o) (Stmt.referencesOption w o) :=
  .option rfl rfl h

theorem Node.option_agrees {o : Option Node}
    (h : ∀ n ∈ o, Agrees (n.free w.place) (n.references w)) :
    Agrees (Node.freeOption w.place o) (Node.referencesOption w o) :=
  .option rfl rfl h

theorem Block.option_agrees {o : Option Block}
    (h : ∀ b ∈ o, Agrees (b.free w.place) (b.references w)) :
    Agrees (Block.freeOption w.place o) (Block.referencesOption w o) :=
  .option rfl rfl h

theorem CatchClause.option_agrees {o : Option CatchClause}
    (h : ∀ c ∈ o, Agrees (c.free w.place) (c.references w)) :
    Agrees (CatchClause.freeOption w.place o) (CatchClause.referencesOption w o) :=
  .option rfl rfl h

theorem CaseClause.list_agrees {cases : List CaseClause}
    (htests : ∀ c ∈ cases, ∀ e ∈ c.test, Agrees (e.free w.place) (e.references w))
    (hbodies : ∀ c ∈ cases, ∀ b ∈ c.consequent, Agrees (b.free w.place) (b.references w)) :
    Agrees (CaseClause.freeList w.place cases) (CaseClause.referencesList w cases) := by
  refine .list rfl rfl (fun _ _ => rfl) (fun _ _ => rfl) fun c hc => ?_
  obtain ⟨span, test, consequent⟩ := c
  exact (Expr.option_agrees (htests _ hc)).append (Stmt.list_agrees (hbodies _ hc))

theorem Declarator.list_agrees {list : List Declarator}
    (htargets : ∀ d ∈ list, Agrees (d.target.free w.place) (d.target.references w true))
    (hinitializers : ∀ d ∈ list, ∀ e ∈ d.initializer, Agrees (e.free w.place) (e.references w)) :
    Agrees (Declarator.freeList w.place list) (Declarator.referencesList w list) := by
  refine .list rfl rfl (fun _ _ => rfl) (fun _ _ => rfl) fun d hd => ?_
  obtain ⟨span, target, initializer⟩ := d
  exact (htargets _ hd).append (Expr.option_agrees (hinitializers _ hd))

/-- A function that may be missing, as the method of a class. -/
theorem Function.option_agrees {o : Option Function}
    (h : ∀ f ∈ o, Agrees (f.free w.place) (w.around f.env f.inner)) :
    Agrees (o.toList.flatMap fun f => w.place.capture f.env) (Function.referencesOption w o) := by
  cases o with
  | none => exact .nil
  | some f =>
    obtain ⟨span, name, params, body, async, generator, env⟩ := f
    rw [Option.toList_some, List.flatMap_singleton]
    exact h _ rfl

theorem ClassElement.list_agrees {elements : List ClassElement}
    (h : ∀ x ∈ elements, Agrees (x.free w.place) (x.references w)) :
    Agrees (elements.flatMap (ClassElement.free w.place))
    (ClassElement.referencesList w elements) :=
  .list rfl rfl (fun _ _ => List.flatMap_cons) (fun _ _ => rfl) h

/-- What an arrow function does: its statements, and only without them its expression. -/
theorem Body.orValue_agrees {b : Body} {value : Option Expr}
    (hbody : Agrees (b.free w.place) (b.references w))
    (hvalue : ∀ e ∈ value, Agrees (e.free w.place) (e.references w)) :
    Agrees (b.freeOrValue w.place value)
      (if b.isMissing then Expr.referencesOption w value else b.references w) := by
  cases b with
  | missing => exact Expr.option_agrees hvalue
  | block span directives items => exact hbody

/-- A body without a value behind it. -/
theorem Body.orNone_agrees {b : Body} (h : Agrees (b.free w.place) (b.references w)) :
    Agrees (b.freeOrValue w.place none) (b.references w) := by
  cases b with
  | missing => exact .nil
  | block span directives items => exact h

/-! ## Atoms, patterns and what they bind -/

/-- Literals refer to nothing, and a name refers to itself. -/
theorem Expr.atom_agrees {e : Expr} (h : e.isAtom = true) (hw : w.Regular) :
    Agrees (e.free w.place) (e.references w) := by
  cases e with
  | identifier n => exact .reference hw n
  | missing | privateName | nullLiteral | boolean | number | bigint | string | regexp | thisRef
  | superRef | metaProperty => exact .nil
  | _ => cases h

theorem Standing.references_agrees (hw : w.Regular) (name : Option Name) :
    Agrees (w.place.referenceOption name) (w.references name) := by
  cases name with
  | none => exact .nil
  | some n =>
    simpa only [Place.referenceOption, Option.toList_some, List.flatMap_singleton] using .reference
      hw n

theorem ExportSpecifier.list_agrees {specifiers : List ExportSpecifier} (hw : w.Regular) :
    Agrees (specifiers.flatMap fun s => w.place.referenceOption s.inner)
    (specifiers.flatMap fun s => w.references s.inner) :=
  .list rfl rfl (fun _ _ => List.flatMap_cons) (fun _ _ => List.flatMap_cons) fun s _ =>
    Standing.references_agrees hw s.inner

/-- An identifier that is bound is free nowhere, and no reference; any other target is what it
is as an expression. -/
theorem Pattern.target_agrees {e : Expr} {binding : Bool}
    (h : Agrees (e.free w.place) (e.references w))
    (hbound : binding = true → BindsAll w.place.here (Pattern.target e).boundNames) :
    Agrees (Pattern.free w.place (.target e)) (Pattern.references w binding (.target e)) := by
  cases e with
  | identifier n =>
    cases binding with
    | true => exact .bound (hbound rfl n List.mem_cons_self)
    | false => exact h
  | _ => exact h

/-- The elements of a list bind what the list binds. -/
theorem Element.list_agrees {items : List Element} (binding : Bool)
    (hbound : binding = true → BindsAll w.place.here (Element.boundNames items))
    (h : ∀ x ∈ items, (binding = true → BindsAll w.place.here (Element.boundNames [x])) →
      Agrees (x.free w.place) (x.references w binding)) :
    Agrees (Element.freeList w.place items) (Element.referencesList w binding items) := by
  induction items with
  | nil => exact .nil
  | cons x rest ih =>
    have hparts (hb : binding = true) : BindsAll w.place.here (Element.boundNames [x]) ∧
        BindsAll w.place.here (Element.boundNames rest) := by
      cases x with
      | hole => exact ⟨fun _ hn => (nomatch hn), hbound hb⟩
      | bound span target fallback =>
        simp only [Element.boundNames, List.append_nil]
        exact List.forall_mem_append.mp (hbound hb)
    refine .append (h x List.mem_cons_self fun hb => (hparts hb).1) ?_
    exact ih (fun hb => (hparts hb).2) fun y hy => h y (List.mem_cons_of_mem x hy)

/-- The properties of a pattern. Where the pattern binds, its own names are bound already. -/
theorem PatternProperty.list_agrees {items : List PatternProperty} (binding : Bool)
    (hbound : binding = true → BindsAll w.place.here (PatternProperty.boundNames items))
    (h : ∀ x ∈ items, (binding = true → BindsAll w.place.here x.value.boundNames) →
      Agrees (x.free w.place) (x.references w binding)) :
    Agrees (PatternProperty.freeList w.place items)
    (PatternProperty.referencesList w binding items) := by
  induction items with
  | nil => exact .nil
  | cons x rest ih =>
    obtain ⟨span, key, computed, value, fallback, shorthand⟩ := x
    have hparts (hb : binding = true) := List.forall_mem_append.mp (hbound hb)
    refine .append (h _ List.mem_cons_self fun hb => (hparts hb).1) ?_
    exact ih (fun hb => (hparts hb).2) fun y hy => h y (List.mem_cons_of_mem _ hy)

/-- A rest that is missing binds no name. -/
theorem Pattern.bindsAll_option {o : Option Pattern} {chain : List Scope}
    (h : ∀ x ∈ o, BindsAll chain x.boundNames) :
    BindsAll chain (Pattern.boundNamesOption o) := by
  cases o with
  | none => exact fun n hn => nomatch hn
  | some x => exact h x rfl

theorem Pattern.option_agrees {o : Option Pattern} (binding : Bool)
    (hbound : binding = true → BindsAll w.place.here (Pattern.boundNamesOption o))
    (h : ∀ x ∈ o, (binding = true → BindsAll w.place.here x.boundNames) →
      Agrees (x.free w.place) (x.references w binding)) :
    Agrees (Pattern.freeOption w.place o) (Pattern.referencesOption w binding o) := by
  cases o with
  | none => exact .nil
  | some x => exact h x rfl hbound

end EcmaStack

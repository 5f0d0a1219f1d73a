import EcmaStack.Grammar.Operators
import EcmaStack.Proofs.Grouping.Laws
import EcmaStack.Proofs.Layout.Program
import EcmaStack.Proofs.Tree.Formed

/-!
# How operators group

An operator with two operands is **grouped** when its operands bind at least as tightly as the
tiers of operators demand, and when it stands between them: it is the next token after the first
operand, and the second operand starts at the token after it. An operand in parentheses is no
operator, whatever is in the parentheses.
-/

namespace EcmaStack

/-! ## Operands -/

/-- The operator of an expression with two operands. -/
def Expr.operator? : Expr → Option Kind
  | .binary _ op _ _ => some op
  | _ => none

/-- Whether an expression binds more loosely than every operator but the comma. -/
def Expr.isLoose : Expr → Bool
  | .assign .. | .conditional .. | .arrow .. | .yield .. => true
  | .binary _ op _ _ => op == .punct .comma
  | _ => false

/-- Whether an operator may not be an operand of another one for one of them is `??`, and the
other `&&` or `||`. -/
def Kind.clashes : Kind → Kind → Bool
  | .punct .coalesce, .punct .logicalAnd | .punct .coalesce, .punct .logicalOr => true
  | .punct .logicalAnd, .punct .coalesce | .punct .logicalOr, .punct .coalesce => true
  | _, _ => false

/-- From one expression to another there is one token: where the first one ends, scanning reads
the operator, and then a token where the other one starts. None of them overlaps the one before.
-/
def Expr.FollowedBy (source : Text) (left : Expr) (op : Kind) (right : Expr) : Prop :=
  ∃ (n : Nat) (t : Token) (c : Cursor), left.span.stop = n ∧ scanToken (.seek source n) = (t, c) ∧
    t.kind = op ∧
    right.span.start = (scanToken c).1.start ∧ n ≤ t.start ∧ t.start < t.stop ∧ t.stop ≤
      (scanToken c).1.start

/-- An operator with its operands, grouped as the tiers demand. -/
structure Operation (source : Text) (span : Span) (op : Kind) (left right : Expr) : Prop where
  operator : op = .punct .comma ∨ 0 < op.binaryPrecedence
  leftTier : op ≠ .punct .comma → op ≠ .punct .power → ∀ o ∈ left.operator?, op.binaryPrecedence ≤
    o.binaryPrecedence
  rightTier : op ≠ .punct .comma → op ≠ .punct .power → ∀ o ∈ right.operator?, op.binaryPrecedence <
    o.binaryPrecedence
  base : op = .punct .power → left.operator? = none ∧ Parse.isBareUnary left = false
  exponent : op = .punct .power → ∀ o ∈ right.operator?, o = .punct .power
  sequence : op = .punct .comma → left.operator? ≠ some (.punct .comma)
  unmixed : ∀ o, o ∈ left.operator? ∨ o ∈ right.operator? → op.clashes o = false
  tight : op ≠ .punct .comma → left.isLoose = false ∧ right.isLoose = false
  between : left.FollowedBy source op right
  extent : span = ⟨left.span.start, right.span.stop⟩

/-! ## Regular nodes -/

/-- An expression has a slot for each of its parts: each expression of a template stands behind
a text, and an arrow function has either statements or an expression. -/
def Expr.Regular : Expr → Prop
  | .template t => t.expressions.length ≤ t.quasis.length
  | .arrow _ _ body value _ _ => body = .missing ∨ value = none
  | _ => True

namespace Node

/-- A node has a slot for each of its parts but the key of a shorthand property, which is a name. -/
def Regular : Node → Prop
  | .expr e | .pattern (.target e) => e.Regular
  | .patternProperty p => p.shorthand = true → ∃ n, p.key = .identifier n
  | _ => True

/-! ## Grouped trees -/

/-- A node that is an operator with two operands is grouped, and any other node is regular. -/
def Grouped (source : Text) : Node → Prop
  | .expr (.binary span op left right) | .pattern (.target (.binary span op left right)) =>
    Operation source span op left right
  | n => n.Regular

/-- Whether a node is an operator with two operands. -/
def isOperation : Node → Bool
  | .expr (.binary ..) | .pattern (.target (.binary ..)) => true
  | _ => false

/-- Whether nothing is owed of a node. -/
def owesNothing : Node → Bool
  | .expr (.binary ..) | .pattern (.target (.binary ..)) | .expr (.template _) | .pattern
    (.target (.template _))
  | .expr (.arrow ..) | .pattern (.target (.arrow ..)) => false
  | .patternProperty p => !p.shorthand
  | _ => true

/-- Every operator in the nodes is grouped, and every node is regular. -/
def Orderly (source : Text) (nodes : List Node) : Prop :=
  ∀ n ∈ nodes, ∀ m ∈ n.walk, m.Grouped source

variable {source : Text} {n : Node} {nodes more : List Node}

/-- A grouped node is regular: grouping says more than that. -/
theorem Grouped.regular (h : n.Grouped source) : n.Regular := by
  unfold Grouped at h
  split at h
  · trivial
  · trivial
  · exact h

/-- A node of which nothing is asked is regular, -/
theorem regular_of_owesNothing (h : n.owesNothing = true) : n.Regular := by
  cases n with
  | expr e => cases e <;> trivial
  | pattern p =>
    cases p with
    | target e => cases e <;> trivial
    | array => trivial
    | object => trivial
  | patternProperty p =>
    intro hshort
    rw [owesNothing, hshort] at h
    cases h
  | _ => trivial

/-- and grouped. -/
theorem grouped_of_owesNothing (h : n.owesNothing = true) : n.Grouped source := by
  unfold Grouped
  split
  · cases h
  · cases h
  · exact regular_of_owesNothing h

namespace Orderly

theorem nil : Orderly source [] :=
  fun _ h => nomatch h

/-- Nodes are orderly if they are so piece by piece. -/
theorem append (h : Orderly source nodes) (k : Orderly source more) :
    Orderly source (nodes ++ more) :=
  fun n hn => (List.mem_append.mp hn).elim (h n) (k n)

theorem cons (h : Orderly source [n]) (k : Orderly source more) : Orderly source (n :: more) :=
  h.append k

theorem pair {m : Node} (h : Orderly source [n]) (k : Orderly source [m]) : Orderly source [n, m] :=
  h.cons k

theorem map {α : Type} {f : α → Node} {items : List α} (h : ∀ a ∈ items, Orderly source [f a]) :
    Orderly source (items.map f) := by
  intro n hn
  obtain ⟨a, ha, rfl⟩ := List.mem_map.mp hn
  exact h a ha (f a) List.mem_cons_self

theorem maybe {α : Type} {f : α → Node} {o : Option α} (h : ∀ a ∈ o, Orderly source [f a]) :
    Orderly source (Node.maybe f o) := by
  cases o with
  | none => exact nil
  | some a => exact h a rfl

/-- A node with orderly slots, which is grouped if it is an operator and otherwise regular. -/
theorem close (h : Orderly source n.slots) (hn : n.Grouped source) : Orderly source [n] := by
  intro m hm x hx
  cases List.mem_singleton.mp hm
  rw [walk_eq] at hx
  rcases List.mem_cons.mp hx with rfl | hx
  · exact hn
  · obtain ⟨c, hc, hx⟩ := List.mem_flatMap.mp hx
    exact h c (List.mem_filter.mp hc).1 x hx

/-- A node of which nothing is owed, by its slots. -/
theorem node (h : Orderly source nodes) (hslots : n.slots = nodes) (hn : n.owesNothing = true) :
    Orderly source [n] :=
  close (hslots ▸ h) (grouped_of_owesNothing hn)

/-- A node that has no slots is orderly if nothing is asked of itself. -/
theorem leaf (hslots : n.slots = []) (hn : n.owesNothing = true) : Orderly source [n] :=
  nil.node hslots hn

/-- The parts of a node are orderly when the node is. -/
theorem slots (h : Orderly source [n]) : Orderly source n.slots := by
  intro c hc x hx
  cases hmissing : c.isMissing with
  | false =>
    have hchild : c ∈ n.children := List.mem_filter.mpr ⟨hc, by simp [hmissing]⟩
    exact h n List.mem_cons_self x (mem_walk_of_children hchild hx)
  | true =>
    have hleaf : c.slots = [] ∧ c.owesNothing = true := by
      unfold isMissing at hmissing
      split at hmissing <;> first | exact ⟨rfl, rfl⟩ | cases hmissing
    exact leaf hleaf.1 hleaf.2 c List.mem_cons_self x hx

end Orderly

end Node

/-- An expression of which nothing is owed is no operator. -/
theorem Expr.operator?_of_owesNothing {x : Expr} (h : (Node.expr x).owesNothing = true) :
    x.operator? = none := by
  cases x <;> first | rfl | cases h

end EcmaStack

/-!
## Names, patterns and parameters are read in order

The rules for names, keys, patterns and parameter lists keep in step and answer trees in which
operators are grouped, when the goals they ask for are answered so (`Rules.Grouping`).
-/

namespace EcmaStack

open Node (Orderly)

/-! ## What is asked of whoever answers goals -/

/-- Operators in an expression are grouped, and it may stand on either side of any operator. -/
structure Expr.Operand (source : Text) (x : Expr) : Prop where
  orderly : Orderly source [.expr x]
  operator : x.operator? = none
  tight : x.isLoose = false

/-- Operators in an expression are grouped, and its own one, if it is one, binds at least as
tightly as asked for. -/
structure Expr.Tier (source : Text) (least : Nat) (x : Expr) : Prop where
  orderly : Orderly source [.expr x]
  operator : ∀ o ∈ x.operator?, least ≤ o.binaryPrecedence
  tight : x.isLoose = false

/-- Operators in an expression are grouped, and it is no comma sequence. -/
structure Expr.Single (source : Text) (x : Expr) : Prop where
  orderly : Orderly source [.expr x]
  sequence : x.operator? ≠ some (.punct .comma)

namespace Expr.Operand

variable {source : Text} {x : Expr}

/-- An operand stands on every tier. -/
theorem tier (h : x.Operand source) (least : Nat) : x.Tier source least := by
  refine ⟨h.orderly, fun o ho => ?_, h.tight⟩
  rw [h.operator] at ho
  cases ho

/-- An expression that does not bind loosely and of which nothing else is owed, by its parts. -/
theorem node {nodes : List Node} (h : Orderly source nodes) (hslots : x.slots = nodes)
    (hx : (Node.expr x).owesNothing = true) (htight : x.isLoose = false) : x.Operand source :=
  ⟨Node.Orderly.node h hslots hx, Expr.operator?_of_owesNothing hx, htight⟩

/-- An expression without slots is an operand, unless it is one that binds loosely. -/
theorem leaf (hslots : x.slots = []) (hx : (Node.expr x).owesNothing = true)
    (htight : x.isLoose = false) :
    x.Operand source :=
  node .nil hslots hx htight

end Expr.Operand

namespace Expr.Single

variable {source : Text} {x : Expr}

/-- An expression of which nothing else is owed, by its parts. -/
theorem node {nodes : List Node} (h : Orderly source nodes) (hslots : x.slots = nodes)
    (hx : (Node.expr x).owesNothing = true) : x.Single source :=
  ⟨Node.Orderly.node h hslots hx, fun hsequence =>
    nomatch (Expr.operator?_of_owesNothing hx).symm.trans hsequence⟩

/-- Operators that bind more tightly than a comma are no comma sequence. -/
theorem of_tier {least : Nat} (h : x.Tier source least) (hleast : 0 < least) : x.Single source :=
  ⟨h.orderly, fun hop => absurd (h.operator _ hop) (Nat.not_le_of_gt hleast)⟩

end Expr.Single

namespace Parse

/-- At the token in hand no operator goes on that binds at least as tightly as asked for. -/
def Stops (e : Surroundings) (least : Nat) (t : ParseState) : Prop :=
  t.token.kind.binaryPrecedence = 0 ∨ t.token.kind.binaryPrecedence < least ∨
    (t.token.kind = .keyword .inWord ∧ e.region.allowIn = false)

end Parse

open Parse

/-- Whoever answers goals keeps in step and answers with trees whose operators are grouped.
Operators are read as far as they are asked for, and an assignment is no comma sequence. -/
structure Rules.Grouping (r : Rules) : Prop where
  charted : r.Charted
  expression : ∀ e, Delivers r.expression e fun x => Orderly e.source [.expr x]
  assignment : ∀ e, Delivers r.assignment e (Expr.Single e.source)
  binary : ∀ e least, Delivers (r.binary least) e (Expr.Tier e.source least)
  stops : ∀ e least s, s.InStep e.source → Holds (r.binary least) e s fun _ t => Stops e least t
  unary : ∀ e, Delivers r.unary e (Expr.Operand e.source)
  leftHandSide : ∀ e, Delivers r.leftHandSide e (Expr.Operand e.source)
  construct : ∀ e, Delivers r.construct e (Expr.Operand e.source)
  target : ∀ e binding, Delivers (r.target binding) e fun o =>
    ∀ p ∈ o, Orderly e.source [.pattern p]
  statement : ∀ e, Delivers r.statement e fun x => Orderly e.source [.stmt x]
  item : ∀ e, Delivers r.item e fun x => Orderly e.source [.stmt x]

namespace Rules.Grouping

variable {r : Rules} {e : Surroundings}

/-- An assignment as an expression. -/
theorem value (h : r.Grouping) (e : Surroundings) :
    Delivers r.assignment e fun x => Orderly e.source [.expr x] :=
  (h.assignment e).mono fun _ hx => hx.orderly

end Rules.Grouping

namespace Parse

variable {r : Rules} {e : Surroundings} {source : Text}

/-! ## Names and keys -/

theorem name_orderly (n : Name) : Orderly source [.name n] :=
  .leaf rfl rfl

theorem maybe_name_orderly (o : Option Name) : Orderly source (Node.maybe .name o) :=
  .maybe fun n _ => name_orderly n

theorem identifierReference_orderly : Delivers identifierReference e (Expr.Operand e.source) := by
  refine .skip fun t => .ite (fun _ => .unexpected) fun _ => .ite (fun _ => .fail) fun _ => ?_
  refine .skip fun _ => .ite (fun _ => .fail) fun _ => .skip fun _ => ?_
  split <;> exact .pure (.leaf rfl rfl rfl)

theorem memberName_orderly : Delivers memberName e fun x => Orderly e.source [.expr x] := by
  refine .skip fun t => .ite (fun _ => ?_) fun _ => .ite (fun _ => ?_) fun _ => .unexpected
  · exact .skip fun _ => .ite (fun _ => .skip fun _ => .pure (.leaf rfl rfl)) fun _ => .fail
  · exact .skip fun _ => .pure (.leaf rfl rfl)

theorem numberLiteral_orderly (t : Token) :
    Delivers (numberLiteral t) e (Expr.Operand e.source) := by
  refine .skip fun raw => .ite (fun _ => ?_) fun _ => ?_
  · split
    · exact .pure (.leaf rfl rfl rfl)
    · exact .failAt
  · split
    · exact .pure (.leaf rfl rfl rfl)
    · exact .failAt

/-- A key in brackets is a single expression, so what is in it groups by itself. -/
theorem propertyKey_orderly (h : r.Grouping) :
    Delivers (propertyKey r) e fun o => ∀ k ∈ o, Orderly e.source [.expr k.1] := by
  refine .skip fun t => ?_
  split
  · exact .skip fun _ => .skip fun _ => .pure (present (.leaf rfl rfl))
  · exact .skip fun _ => (numberLiteral_orderly t).bind fun k hk => .pure (present hk.orderly)
  · exact .skip fun _ => (numberLiteral_orderly t).bind fun k hk => .pure (present hk.orderly)
  · exact .skip fun _ => (Delivers.within (h.value _)).bind fun k hk => .skip fun _ =>
      .pure (present hk)
  · exact .skip fun _ => .pure (present (.leaf rfl rfl))
  · refine .ite (fun _ => ?_) fun _ => .pure absent
    exact .skip fun _ => .pure (present (.leaf rfl rfl))

/-! ## Patterns and parameters -/

theorem fallback_orderly (h : r.Grouping) :
    Delivers (fallback r) e fun o => ∀ d ∈ o, Orderly e.source [.expr d] := by
  refine .skip fun _ => .ite (fun _ => ?_) fun _ => .pure absent
  exact .skip fun _ => (Delivers.within (h.value _)).bind fun d hd => .pure (present hd)

theorem patternElement_orderly (h : r.Grouping) (binding : Bool) :
    Delivers (patternElement r binding) e fun o => ∀ x ∈ o, Orderly e.source [.element x] := by
  refine .skip fun start => (h.target e binding).bind fun o ho => ?_
  cases o with
  | none => exact .pure absent
  | some p =>
    refine (fallback_orderly h).bind fun d hd => .skip fun _ => ?_
    exact .pure (present (((ho p rfl).cons (.maybe hd)).node rfl rfl))

/-- Items and perhaps a rest. -/
private def Listed {α : Type} (source : Text) (node : α → Node) (parts : List α × Option Pattern) :
    Prop :=
  (∀ a ∈ parts.1, Orderly source [node a]) ∧ ∀ p ∈ parts.2, Orderly source [.pattern p]

/-- The items of a list and its rest are the slots of the pattern. -/
private theorem Listed.nodes {α : Type} {node : α → Node} {items : List α} {rest : Option Pattern}
    (h : Listed source node (items, rest)) :
    Orderly source (items.map node ++ Node.maybe .pattern rest) :=
  (Orderly.map h.1).append (.maybe h.2)

theorem arrayElements_orderly (h : r.Grouping) (binding : Bool) :
    Delivers (arrayElements r binding) e fun o => ∀ x ∈ o, Listed e.source .element x := by
  refine .collecting (Q := fun x => Orderly e.source [.element x]) fun items hitems => ?_
  refine .skip fun _ => .ite (fun _ => .pure (present ⟨reversed hitems, absent⟩)) fun _ => ?_
  refine .skip fun _ => .ite (fun _ => ?_) fun _ => .skip fun _ => .ite (fun _ => ?_) fun _ => ?_
  · exact .skip fun _ => .pure (extended (.leaf rfl rfl) hitems)
  · refine .skip fun _ => (h.target e binding).bind fun o ho => ?_
    cases o with
    | none => exact .pure absent
    | some rest =>
      refine .skip fun _ => .ite (fun _ => ?_) fun _ => .pure absent
      exact .pure (present ⟨reversed hitems, ho⟩)
  · refine (patternElement_orderly h binding).bind fun o ho => ?_
    cases o with
    | none => exact .pure absent
    | some x =>
      have hmore : ∀ a ∈ x :: items, Orderly e.source [.element a] := extended (ho x rfl) hitems
      refine .skip fun _ => .ite (fun _ => ?_) fun _ => .skip fun _ => .ite (fun _ => ?_) fun _ =>
        .pure absent
      · exact .pure (present ⟨reversed hmore, absent⟩)
      · exact .skip fun _ => .pure hmore

theorem arrayPattern_orderly (h : r.Grouping) (binding : Bool) :
    Delivers (arrayPattern r binding) e fun o => ∀ p ∈ o, Orderly e.source [.pattern p] := by
  refine .attempt (.skip fun start => (arrayElements_orderly h binding).bind fun o ho => ?_)
  cases o with
  | none => exact .pure absent
  | some parts =>
    exact .skip fun _ => .skip fun _ => .pure (present ((ho _ rfl).nodes.node rfl rfl))

theorem bindingTarget_orderly :
    Delivers (do return (← bindingIdentifier).map fun n => Pattern.target (.identifier n)) e
    fun o => ∀ p ∈ o, Orderly e.source [.pattern p] := by
  refine .skip fun o => .pure ?_
  cases o with
  | none => exact absent
  | some n => exact present (.leaf rfl rfl)

/-- A shorthand property holds one name in two slots. -/
theorem patternProperty_orderly (h : r.Grouping) (binding : Bool) :
    Delivers (patternProperty r binding) e fun o =>
    ∀ p ∈ o, Orderly e.source [.patternProperty p] := by
  refine .skip fun start => .skip fun _ => .skip fun _ => .ite (fun _ => ?_) fun _ => ?_
  · refine .skip fun o => ?_
    cases o with
    | none => exact .pure absent
    | some n =>
      refine (fallback_orderly h).bind fun d hd => .skip fun _ => .pure (present ?_)
      have htarget : Orderly e.source [.pattern (.target (.identifier n))] := .leaf rfl rfl
      exact (htarget.cons (.maybe hd)).close fun _ => ⟨n, rfl⟩
  · refine (propertyKey_orderly h).bind fun o ho => ?_
    cases o with
    | none => exact .pure absent
    | some k =>
      obtain ⟨key, computed⟩ := k
      refine .skip fun _ => .ite (fun _ => .pure absent) fun _ => .skip fun _ => ?_
      refine (h.target e binding).bind fun o' ho' => ?_
      cases o' with
      | none => exact .pure absent
      | some p =>
        refine (fallback_orderly h).bind fun d hd => .skip fun _ => .pure (present ?_)
        exact ((ho _ rfl).cons ((ho' p rfl).cons (.maybe hd))).node rfl rfl

theorem objectRest_orderly (h : r.Grouping) (binding : Bool) :
    Delivers (objectRest r binding) e fun o => ∀ p ∈ o, Orderly e.source [.pattern p] :=
  .ite (fun _ => bindingTarget_orderly) fun _ => h.target e false

theorem objectProperties_orderly (h : r.Grouping) (binding : Bool) :
    Delivers (objectProperties r binding) e fun o =>
    ∀ x ∈ o, Listed e.source .patternProperty x := by
  refine .collecting (Q := fun x => Orderly e.source [.patternProperty x]) fun items hitems => ?_
  refine .skip fun _ => .ite (fun _ => .pure (present ⟨reversed hitems, absent⟩)) fun _ => ?_
  refine .skip fun _ => .ite (fun _ => ?_) fun _ => ?_
  · refine .skip fun _ => (objectRest_orderly h binding).bind fun o ho => ?_
    cases o with
    | none => exact .pure absent
    | some rest =>
      refine .skip fun _ => .ite (fun _ => ?_) fun _ => .pure absent
      exact .pure (present ⟨reversed hitems, ho⟩)
  · refine (patternProperty_orderly h binding).bind fun o ho => ?_
    cases o with
    | none => exact .pure absent
    | some p =>
      have hmore : ∀ a ∈ p :: items, Orderly e.source [.patternProperty a] :=
        extended (ho p rfl) hitems
      refine .skip fun _ => .ite (fun _ => ?_) fun _ => .skip fun _ => .ite (fun _ => ?_) fun _ =>
        .pure absent
      · exact .pure (present ⟨reversed hmore, absent⟩)
      · exact .skip fun _ => .pure hmore

theorem objectPattern_orderly (h : r.Grouping) (binding : Bool) :
    Delivers (objectPattern r binding) e fun o => ∀ p ∈ o, Orderly e.source [.pattern p] := by
  refine .attempt (.skip fun start => (objectProperties_orderly h binding).bind fun o ho => ?_)
  cases o with
  | none => exact .pure absent
  | some parts =>
    exact .skip fun _ => .skip fun _ => .pure (present ((ho _ rfl).nodes.node rfl rfl))

/-! ## What can be assigned to -/

/-- What stands in parentheses is orderly by itself. -/
theorem withoutParens_orderly {x : Expr} (hx : Orderly source [.expr x]) :
    Orderly source [.expr x.withoutParens] :=
  Expr.withoutParens_of (P := fun x => Orderly source [.expr x]) (fun _ _ h => h.slots) hx

/-- What can be assigned to is the expression itself, without the parentheses around it. -/
theorem simpleTarget?_orderly {x y : Expr} (hx : Orderly source [.expr x])
    (hy : x.simpleTarget? = some y) :
    Orderly source [.expr y] := by
  have h := withoutParens_orderly hx
  rw [Expr.simpleTarget?] at hy
  split at hy
  · cases hy
    exact .leaf rfl rfl
  · next heq =>
    rw [heq] at h
    dsimp only at hy
    split at hy
    · cases hy
    · cases hy
      exact h
  · cases hy

/-- An expression that is taken for a pattern stays the same. -/
theorem asPattern_orderly {x : Expr} (hx : Orderly e.source [.expr x]) :
    Delivers (asPattern x) e fun p => Orderly e.source [.pattern p] := by
  unfold asPattern
  split
  · exact .pure (.leaf rfl rfl)
  · exact .pure (hx.slots.node rfl rfl)
  · exact .fail

/-- A target is read as an expression, which was grouped then. -/
theorem simpleTarget_orderly (h : r.Grouping) :
    Delivers (simpleTarget r) e fun o => ∀ p ∈ o, Orderly e.source [.pattern p] := by
  refine .skip fun k => ?_
  split
  case h_4 => exact .pure absent
  -- whatever the word, what follows is read as one expression
  all_goals
    refine .attempt ((h.leftHandSide e).bind fun x hx => ?_)
    cases htarget : x.simpleTarget? with
    | none => exact .pure absent
    | some y =>
      exact (asPattern_orderly (simpleTarget?_orderly hx.orderly htarget)).bind fun p hp =>
        .pure (present hp)

theorem patternTarget_orderly (h : r.Grouping) (binding : Bool) :
    Delivers (patternTarget r binding) e fun o => ∀ p ∈ o, Orderly e.source [.pattern p] := by
  refine .skip fun k => ?_
  split
  · exact arrayPattern_orderly h binding
  · exact objectPattern_orderly h binding
  · exact .ite (fun _ => bindingTarget_orderly) fun _ => simpleTarget_orderly h

/-! ## Parameters -/

/-- Parameters are patterns with defaults. -/
theorem parameterItems_orderly (h : r.Grouping) (speculative : Bool) :
    Delivers (parameterItems r speculative) e fun o => ∀ x ∈ o, Listed e.source .element x := by
  have hmiss {σ : Type} {I : σ → Prop} :
      Delivers (if speculative then Pure.pure (.done none) else unexpected)
      e (Turn.Holds I fun o : Option (List Element × Option Pattern) => ∀ x ∈ o,
        Listed e.source .element x) :=
    .ite (fun _ => .pure absent) fun _ => .unexpected
  refine .collecting (Q := fun x => Orderly e.source [.element x]) fun items hitems => ?_
  refine .skip fun _ => .ite (fun _ => .pure (present ⟨reversed hitems, absent⟩)) fun _ => ?_
  refine .skip fun _ => .ite (fun _ => ?_) fun _ => ?_
  · refine .skip fun _ => (h.target e true).bind fun o ho => ?_
    cases o with
    | none => exact hmiss
    | some rest =>
      refine .skip fun _ => .ite (fun _ => ?_) fun _ => .ite (fun _ => .pure absent) fun _ => .fail
      exact .pure (present ⟨reversed hitems, ho⟩)
  · refine (patternElement_orderly h true).bind fun o ho => ?_
    cases o with
    | none => exact hmiss
    | some x =>
      have hmore : ∀ a ∈ x :: items, Orderly e.source [.element a] := extended (ho x rfl) hitems
      refine .skip fun _ => .ite (fun _ => .pure hmore) fun _ => .skip fun _ =>
        .ite (fun _ => ?_) fun _ => hmiss
      exact .skip fun _ => .pure hmore

theorem parameterList_orderly (h : r.Grouping) (speculative : Bool) :
    Delivers (parameterList r speculative) e fun o => ∀ p ∈ o, Orderly e.source [.params p] := by
  refine .skip fun _ => .ite (fun _ => ?_) fun _ => .ite (fun _ => .pure absent) fun _ =>
    .unexpected
  refine .skip fun start => .skip fun _ =>
    (Delivers.within (parameterItems_orderly h speculative)).bind fun o ho => ?_
  cases o with
  | none => exact .pure absent
  | some parts =>
    exact .skip fun _ => .skip fun _ => .pure (present ((ho _ rfl).nodes.node rfl rfl))

theorem parameters_orderly (h : r.Grouping) :
    Delivers (parameters r) e fun p => Orderly e.source [.params p] := by
  refine (parameterList_orderly h false).bind fun o ho => ?_
  cases o with
  | none => exact .unexpected
  | some p => exact .pure (ho p rfl)

end Parse

end EcmaStack

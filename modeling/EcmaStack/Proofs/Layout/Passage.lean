import EcmaStack.Proofs.Progress.Reads
import EcmaStack.Proofs.Scope.Gains
import EcmaStack.Proofs.Tree.Formed

/-!
# Ranges inside ranges

A node **encloses** its children when each has a range that is not empty and lies in its own. A
node is **laid** between two offsets when its range is not empty and lies between them, and
every node of its tree encloses its children. That goes up a tree: a node is laid over a range
when its parts are laid between the ends of the range (`Laid.close`).

Beside the ranges `Laid` records that the nodes of the tree have the scopes that nodes of their
kind should have (`GivesScopes`). Only the parent tells the function of a declaration, which has
no scope for its own name, from a function expression.
-/

namespace EcmaStack

/-- The scopes of a function-like node: one for its own name, if it should have one, and a
function scope. -/
structure Env.Fits (named : Bool) (e : Env) : Prop where
  own : e.nameScope.map (·.kind) = if named then some .block else none
  function : e.scope.map (·.kind) = some .function

namespace Node

/-- The range of a node holds the ranges of its children, none of which is empty. -/
def Encloses (n : Node) : Prop :=
  ∀ c ∈ n.children, n.span.start ≤ c.span.start ∧ c.span.start < c.span.stop ∧ c.span.stop ≤
    n.span.stop

/-- A node has the scopes that nodes of its kind have, a function being an expression. -/
def HasScopes : Node → Prop
  | .program p => p.scope.map (·.kind) = some .function
  | .expr (.function f) => f.env.Fits f.name.isSome
  | .expr (.arrow _ _ _ _ _ env) | .classElement (.staticBlock _ _ env) => env.Fits false
  | .expr (.classExpr c) => c.env.Fits c.name.isSome
  | .stmt (.block b) => b.scope.map (·.kind) = some .block
  | .stmt (.switch _ _ _ scope) | .stmt (.forLoop _ _ _ _ _ scope) | .stmt (.forIn _ _ _ _ scope)
  | .stmt (.forOf _ _ _ _ _ scope) => scope.map (·.kind) = some .block
  | .catchClause c => c.scope.map (·.kind) = some .block
  | _ => True

/-- The children of a node have the scopes they should have. The function of a declaration has
no scope for its name. -/
def GivesScopes : Node → Prop
  | .stmt (.function _ f) => f.env.Fits false
  | n => ∀ c ∈ n.children, c.HasScopes

/-- A tree that lies between two offsets, and whose nodes all enclose their children and give
them their scopes. -/
structure Laid (lo hi : Nat) (n : Node) : Prop where
  start : (lo : Int) ≤ n.span.start
  filled : n.span.start < n.span.stop
  stop : n.span.stop ≤ hi
  encloses : ∀ m ∈ n.walk, m.Encloses
  scopes : ∀ m ∈ n.walk, m.GivesScopes

namespace Laid

variable {lo hi : Nat} {n m : Node}

/-- What lies within some bounds lies within wider ones. -/
theorem widen {lo' hi' : Nat} (h : n.Laid lo hi) (hlo : lo' ≤ lo) (hhi : hi ≤ hi') :
    n.Laid lo' hi' := by
  have hstart := h.start
  have hstop := h.stop
  exact { h with start := by omega, stop := by omega }

/-- What holds of a node and of the trees of its children holds throughout its tree. -/
private theorem walk_of_children {P : Node → Prop} (hn : P n)
    (hc : ∀ c ∈ n.children, ∀ m ∈ c.walk, P m) :
    ∀ m ∈ n.walk, P m := by
  intro m hm
  rw [walk_eq] at hm
  rcases List.mem_cons.mp hm with rfl | hm
  · exact hn
  · obtain ⟨c, hmem, hm⟩ := List.mem_flatMap.mp hm
    exact hc c hmem m hm

/-- A node is laid over its range when its parts are laid between the ends of the range. -/
theorem close {k : Nat} (hspan : n.span = ⟨k, hi⟩) (hlo : lo ≤ k) (hfilled : k < hi)
    (hslots : ∀ c ∈ n.slots, c.isMissing = true ∨ c.Laid k hi) (hscopes : n.GivesScopes) :
    n.Laid lo hi := by
  have hchildren : ∀ c ∈ n.children, c.Laid k hi := by
    intro c hc
    obtain ⟨hmem, hthere⟩ := List.mem_filter.mp hc
    rcases hslots c hmem with hmissing | hlaid
    · simp [hmissing] at hthere
    · exact hlaid
  refine ⟨?_, ?_, ?_, walk_of_children ?_ fun c hc => (hchildren c hc).encloses,
    walk_of_children hscopes fun c hc => (hchildren c hc).scopes⟩
  · rw [hspan]
    exact Int.ofNat_le.mpr hlo
  · rw [hspan]
    exact Int.ofNat_lt.mpr hfilled
  · rw [hspan]
  · intro c hc
    have hlaid := hchildren c hc
    rw [hspan]
    exact ⟨hlaid.start, hlaid.filled, hlaid.stop⟩

/-- A node with one part, whose range it has. -/
theorem wrap (h : n.Laid lo hi) (hspan : m.span = n.span) (hslots : m.slots = [n])
    (hscopes : m.GivesScopes) :
    m.Laid lo hi := by
  have hchildren : ∀ c ∈ m.children, c = n := by
    intro c hc
    have hmem := (List.mem_filter.mp hc).1
    rw [hslots] at hmem
    exact List.mem_singleton.mp hmem
  refine ⟨hspan ▸ h.start, hspan ▸ h.filled, hspan ▸ h.stop, walk_of_children ?_ fun c hc =>
    hchildren c hc ▸ h.encloses,
    walk_of_children hscopes fun c hc => hchildren c hc ▸ h.scopes⟩
  intro c hc
  rw [hspan, hchildren c hc]
  exact ⟨Int.le_refl _, h.filled, Int.le_refl _⟩

/-- A tree with another root is laid as well, if the root has the same range and the same
children. -/
theorem relabel (h : n.Laid lo hi) (hspan : m.span = n.span) (hchildren : m.children = n.children)
    (hscopes : m.GivesScopes) : m.Laid lo hi := by
  have hsame {P : Node → Prop} (hP : ∀ x ∈ n.walk, P x) : ∀ c ∈ m.children, ∀ x ∈ c.walk, P x :=
    fun c hc x hx => hP x (mem_walk_of_children (hchildren ▸ hc) hx)
  refine ⟨hspan ▸ h.start, hspan ▸ h.filled, hspan ▸ h.stop, walk_of_children ?_ (hsame h.encloses),
    walk_of_children hscopes (hsame h.scopes)⟩
  have hroot := h.encloses n n.mem_walk_self
  rw [Encloses, hspan, hchildren]
  exact hroot

/-- A child is laid where its parent is. -/
theorem child {c : Node} (h : n.Laid lo hi) (hc : c ∈ n.children) : c.Laid lo hi := by
  obtain ⟨hstart, hfilled, hstop⟩ := h.encloses n n.mem_walk_self c hc
  exact ⟨Int.le_trans h.start hstart, hfilled, Int.le_trans hstop h.stop,
    fun m hm => h.encloses m (mem_walk_of_children hc hm), fun m hm =>
    h.scopes m (mem_walk_of_children hc hm)⟩

/-- Every node of a tree lies between the offsets between which the tree lies. -/
theorem within {n : Node} (h : n.Laid lo hi) :
    ∀ m ∈ n.walk, (lo : Int) ≤ m.span.start ∧ m.span.stop ≤ hi := by
  intro m hm
  rw [walk_eq] at hm
  rcases List.mem_cons.mp hm with rfl | hm
  · exact ⟨h.start, h.stop⟩
  · obtain ⟨c, hc, hm⟩ := List.mem_flatMap.mp hm
    have hsmaller := sizeOf_lt_of_mem_children hc
    exact within (h.child hc) m hm
termination_by sizeOf n

end Laid

end Node

end EcmaStack

/-!
## What was read between two states

A **passage** leads from one state of a parser to a later one, and says what was read on the
way: nodes, which lie between the token that was in hand at the start and the end of the last
token read; names that were declared; and scopes that were opened and closed again. What the
nodes themselves declare and open is among these names and scopes. So a passage on which nothing
but nodes was read is told by the list of its nodes, and is a **stretch**.

Passages compose (`Passage.trans`). Where a passage reads the parts of a node, with the names
and scopes of that node, and the node has the range of the passage, it is a stretch of that one
node (`Passage.close`).
-/

namespace EcmaStack

open Scope (frames Numbered)

/-! ## Parts -/

/-- What is read: nodes, declared names and scopes, those in the nodes among them. -/
structure Part where
  nodes : List Node
  declarations : List Declaration
  opened : List (Option Nat × Scope)

namespace Part

/-- Nodes where a chain of scopes is in force, and nothing else. -/
def of (chain : List Scope.Frame) (nodes : List Node) : Part :=
  ⟨nodes, nodes.flatMap (·.declarations chain), nodes.flatMap (·.opened chain)⟩

/-- Names that are declared where a chain of scopes is in force. -/
def declaring (kind : DeclKind) (chain : List Scope.Frame) (names : List Name) : Part :=
  ⟨[], declared kind chain names, []⟩

/-- What was read in a scope, with the scope. -/
def enclosed (chain : List Scope.Frame) (scope : Option Scope) (part : Part) : Part :=
  ⟨part.nodes, part.declarations, Scope.layers (innermost chain) scope.toList ++ part.opened⟩

/-- So told by what was answered: the scope as it was closed, beside what was answered in it. -/
def closing {α : Type} (part : List Scope.Frame → α → Part) (chain : List Scope.Frame)
    (x : α × Option Scope) : Part :=
  (part (Scope.inside x.2.toList chain) x.1).enclosed chain x.2

/-- A node by its parts, with all that is declared and opened in it. -/
def inner (chain : List Scope.Frame) (n : Node) : Part :=
  ⟨n.slots, n.declarations chain, n.opened chain⟩

instance : Append Part :=
  ⟨fun p q => ⟨p.nodes ++ q.nodes, p.declarations ++ q.declarations, p.opened ++ q.opened⟩⟩

variable {chain : List Scope.Frame} {p q : Part}

@[simp] theorem nodes_append : (p ++ q).nodes = p.nodes ++ q.nodes := rfl

@[simp] theorem declarations_append :
    (p ++ q).declarations = p.declarations ++ q.declarations := rfl

@[simp] theorem opened_append : (p ++ q).opened = p.opened ++ q.opened := rfl

/-- The part that is made of nodes is made piece by piece. -/
theorem of_append (nodes more : List Node) :
    of chain nodes ++ of chain more = of chain (nodes ++ more) := by
  show Part.mk _ _ _ = Part.mk _ _ _
  simp [List.flatMap_append, of]

theorem append_nothing : p ++ of chain [] = p := by
  show Part.mk _ _ _ = _
  simp [of]

theorem append_undeclared {kind : DeclKind} : p ++ declaring kind chain [] = p :=
  @append_nothing chain p

theorem nothing_append : of chain [] ++ p = p := by
  show Part.mk _ _ _ = _
  simp [of]

theorem append_assoc (r : Part) : p ++ q ++ r = p ++ (q ++ r) := by
  show Part.mk _ _ _ = Part.mk _ _ _
  simp

/-- The same nodes, declarations and scopes, perhaps told in another order. -/
structure Same (p q : Part) : Prop where
  nodes : p.nodes = q.nodes
  declarations : ∀ d, d ∈ p.declarations ↔ d ∈ q.declarations
  opened : p.opened.Perm q.opened

end Part

/-! ## Passages -/

/-- The token in hand stands in the source after what has been read, and the open scopes are
told apart. -/
structure ParseState.Ready (source : Text) (s : ParseState) : Prop where
  placed : s.Placed source
  behind : s.previousEnd ≤ s.token.start
  numbered : Numbered s.fresh s.scopes

/-- From a state to a later one a part was read, and at least one token if so it is said. -/
structure Passage (source : Text) (taken : Bool) (s t : ParseState) (part : Part) : Prop where
  ready : t.Ready source
  began : taken = true → s.token.start < t.previousEnd
  onward : s.token.start ≤ t.token.start
  ended : s.previousEnd ≤ t.previousEnd
  laid : ∀ n ∈ part.nodes, n.isMissing = true ∨ (n.Laid s.token.start t.previousEnd ∧ n.HasScopes)
  scopes : Scoped s t part.declarations part.opened

/-- A passage on which nodes were read and nothing else. -/
abbrev Stretch (source : Text) (taken : Bool) (s t : ParseState) (nodes : List Node) : Prop :=
  Passage source taken s t (.of (frames s.scopes) nodes)

/-- A stretch of one node, which extends over all of it. -/
structure Extent (source : Text) (s t : ParseState) (n : Node) : Prop where
  stretch : Stretch source true s t [n]
  span : n.span = ⟨s.token.start, t.previousEnd⟩

/-- A node starts where the token stood at which it was begun. -/
theorem Extent.offset {source : Text} {s t : ParseState} {n : Node} (h : Extent source s t n) :
    n.span.offset = s.token.start := by
  rw [h.span]
  exact Int.toNat_natCast _

/-- A node is not empty: one token at least was taken for it. -/
theorem Extent.filled {source : Text} {s t : ParseState} {n : Node} (h : Extent source s t n) :
    n.span.start < n.span.stop := by
  rw [h.span]
  exact Int.ofNat_lt.mpr (h.stretch.began rfl)

namespace Node

/-- A node that declares nothing and opens no scope, so that the same scopes are in force at its
parts. -/
structure Plain (n : Node) : Prop where
  scopes : n.scopes = []
  declared : ∀ chain, n.declared chain = []
  inner : ∀ chain c, n.inner chain c = chain
  owns : n.HasScopes
  gives : (∀ c ∈ n.children, c.HasScopes) → n.GivesScopes

/-- Whether a node is one that neither declares anything nor has a scope, by its form. -/
def isPlain : Node → Bool
  | .expr (.function _) | .expr (.arrow ..) | .expr (.classExpr _) => false
  | .pattern (.target (.function _)) | .pattern (.target (.arrow ..)) | .pattern
    (.target (.classExpr _)) => false
  | .stmt (.block _) | .stmt (.switch ..) | .stmt (.forLoop ..) | .stmt (.forIn ..) | .stmt
    (.forOf ..) => false
  | .stmt (.declaration _) | .stmt (.function ..) | .stmt (.classDecl ..) | .stmt
    (.importDecl ..) => false
  | .program _ | .catchClause _ | .classElement (.staticBlock ..) => false
  | _ => true

/-- A node whose parts all stand in its one scope, which is of a kind, and which declares
nothing. -/
structure Encloser (kind : ScopeKind) (scope : Option Scope) (n : Node) : Prop where
  scopes : n.scopes = scope.toList
  declared : ∀ chain, n.declared chain = []
  inner : ∀ chain c, n.inner chain c = Scope.inside scope.toList chain
  owns : scope.map (·.kind) = some kind → n.HasScopes
  gives : (∀ c ∈ n.children, c.HasScopes) → n.GivesScopes

/-- A node without parts. -/
structure Leaf (n : Node) : Prop where
  slots : n.slots = []
  plain : n.Plain

variable {n : Node} {chain : List Scope.Frame}

/-- Most kinds of nodes declare nothing and open no scope. Which do can be looked up. -/
theorem plain_of_isPlain (h : n.isPlain = true) : n.Plain := by
  cases n with
  | program => cases h
  | catchClause => cases h
  | expr x => cases x <;> first | exact ⟨rfl, fun _ => rfl, fun _ _ => rfl, trivial, id⟩ | cases h
  | stmt x => cases x <;> first | exact ⟨rfl, fun _ => rfl, fun _ _ => rfl, trivial, id⟩ | cases h
  | classElement x =>
    cases x <;> first | exact ⟨rfl, fun _ => rfl, fun _ _ => rfl, trivial, id⟩ | cases h
  | pattern x =>
    cases x with
    | target y =>
      cases y <;> first | exact ⟨rfl, fun _ => rfl, fun _ _ => rfl, trivial, id⟩ | cases h
    | _ => exact ⟨rfl, fun _ => rfl, fun _ _ => rfl, trivial, id⟩
  | _ => exact ⟨rfl, fun _ => rfl, fun _ _ => rfl, trivial, id⟩

/-- What is declared in a plain node is declared in what stands in it. -/
theorem Plain.declarations (h : n.Plain) :
    n.declarations chain = n.slots.flatMap (·.declarations chain) := by
  rw [declarations_eq, h.declared, List.nil_append]
  simp only [h.inner]

/-- So it is with the scopes that are opened. -/
theorem Plain.opened (h : n.Plain) : n.opened chain = n.slots.flatMap (·.opened chain) := by
  rw [opened_eq, h.scopes, Scope.layers, List.nil_append]
  simp only [h.inner]

/-- A plain node by its parts is its parts. -/
theorem Plain.parts (h : n.Plain) : Part.inner chain n = .of chain n.slots := by
  rw [Part.inner, h.declarations, h.opened]
  rfl

/-- A node that encloses its parts in a scope, by its parts. -/
theorem Encloser.same {kind : ScopeKind} {scope : Option Scope} (h : n.Encloser kind scope) :
    ((Part.of (Scope.inside scope.toList chain) n.slots).enclosed chain scope).Same
    (.inner chain n) := by
  refine ⟨rfl, fun d => ?_, ?_⟩
  · rw [Part.inner, declarations_eq, h.declared, List.nil_append]
    simp only [h.inner]
    exact Iff.rfl
  · rw [Part.inner, opened_eq, h.scopes]
    simp only [h.inner]
    exact .refl _

/-- A node that declares names where it stands, by its parts. -/
theorem declaring_same {kind : DeclKind} {names : List Name} {nodes : List Node}
    (hslots : n.slots = nodes) (hdeclared : n.declared chain = EcmaStack.declared kind chain names)
    (hscopes : n.scopes = []) (hinner : ∀ c, n.inner chain c = chain) :
    (Part.of chain nodes ++ Part.declaring kind chain names).Same (.inner chain n) := by
  refine ⟨?_, fun d => ?_, ?_⟩
  · rw [Part.inner, hslots]
    exact List.append_nil nodes
  · rw [Part.inner, declarations_eq, hdeclared, hslots]
    simp [Part.of, Part.declaring, hinner, or_comm]
  · rw [Part.inner, opened_eq, hscopes, hslots]
    simp [Part.of, Part.declaring, hinner]

/-- A name has nothing in it. -/
theorem name_leaf (n : Name) : (Node.name n).Leaf :=
  ⟨rfl, rfl, fun _ => rfl, fun _ _ => rfl, trivial, id⟩

@[simp] theorem name_declarations (n : Name) : (Node.name n).declarations chain = [] := by
  rw [(name_leaf n).plain.declarations]
  rfl

@[simp] theorem name_opened (n : Name) : (Node.name n).opened chain = [] := by
  rw [(name_leaf n).plain.opened]
  rfl

@[simp] theorem names_declarations (o : Option Name) :
    (maybe .name o).flatMap (·.declarations chain) = [] := by
  cases o with
  | none => rfl
  | some n => simp [maybe]

@[simp] theorem names_opened (o : Option Name) : (maybe .name o).flatMap (·.opened chain) = [] := by
  cases o with
  | none => rfl
  | some n => simp [maybe]

end Node

section

variable {source : Text} {s t u : ParseState} {taken more : Bool} {p q : Part}
    {nodes others : List Node} {n m : Node}

namespace Passage

/-- After a passage the same scopes are open. -/
theorem sameFrames (h : Passage source taken s t p) : frames t.scopes = frames s.scopes :=
  h.scopes.frames

/-- One passage after another. -/
theorem trans (h : Passage source taken s t p) (k : Passage source more t u q) :
    Passage source (taken || more) s u (p ++ q) where
  ready := k.ready
  began hany := by
    have hended := k.ended
    have honward := h.onward
    rcases Bool.or_eq_true_iff.mp hany with htaken | hmore
    · have := h.began htaken
      omega
    · have := k.began hmore
      omega
  onward := Nat.le_trans h.onward k.onward
  ended := Nat.le_trans h.ended k.ended
  laid n hn := by
    rcases List.mem_append.mp hn with hn | hn
    · exact (h.laid n hn).imp_right fun ⟨hlaid, howns⟩ =>
        ⟨hlaid.widen (Nat.le_refl _) k.ended, howns⟩
    · exact (k.laid n hn).imp_right fun ⟨hlaid, howns⟩ =>
        ⟨hlaid.widen h.onward (Nat.le_refl _), howns⟩
  scopes := h.scopes.trans k.scopes

/-- It may be forgotten that a token was taken. -/
theorem weaken (h : Passage source taken s t p) : Passage source false s t p :=
  { h with began := nofun }

/-- The same was read, told in another way. -/
theorem congr (h : Passage source taken s t p) (hsame : p.Same q) : Passage source taken s t q :=
  { h with laid := hsame.nodes ▸ h.laid, scopes := h.scopes.congr hsame.declarations hsame.opened }

/-! ## A node in place of its parts -/

/-- A node is laid where its parts were read, and from where it starts on. -/
theorem laidFrom {chain : List Scope.Frame} {lo first : Nat}
    (h : Passage source true s t (.inner chain n)) (hspan : n.span = ⟨first, t.previousEnd⟩)
    (hlo : lo ≤ first) (hfirst : first ≤ s.token.start)
    (hgives : (∀ c ∈ n.children, c.HasScopes) → n.GivesScopes) : n.Laid lo t.previousEnd := by
  have hbegan := h.began rfl
  refine .close hspan hlo (by omega) (fun c hc => ?_) (hgives fun c hc => ?_)
  · exact (h.laid c hc).imp_right fun hc => hc.1.widen hfirst (Nat.le_refl _)
  · obtain ⟨hmem, hthere⟩ := List.mem_filter.mp hc
    rcases h.laid c hmem with hmissing | hc
    · simp [hmissing] at hthere
    · exact hc.2

/-- A node that is laid where a passage leads stands for what it declares and opens. -/
theorem standing (h : Passage source taken s t p) (k : Passage source true t u q)
    (hlaid : n.Laid s.token.start u.previousEnd) (howns : n.HasScopes)
    (hdeclarations : ∀ d, d ∈ q.declarations ↔ d ∈ n.declarations (frames s.scopes))
    (hopened : q.opened.Perm (n.opened (frames s.scopes))) :
    Passage source true s u (p ++ Part.of (frames s.scopes) [n]) := by
  have hboth : Passage source true s u (p ++ q) := Bool.or_true taken ▸ h.trans k
  refine { hboth with laid := ?_, scopes := hboth.scopes.congr ?_ ?_ }
  · intro m hm
    rcases List.mem_append.mp hm with hm | hm
    · exact hboth.laid m (List.mem_append_left _ hm)
    · rw [List.mem_singleton.mp hm]
      exact .inr ⟨hlaid, howns⟩
  · intro d
    simp [hdeclarations, Part.of]
  · simpa [Part.of] using hopened.append_left p.opened

/-- A node whose parts were read from some point on, and which starts there or before. -/
theorem closeFrom (h : Passage source taken s t p)
    (k : Passage source true t u (.inner (frames s.scopes) n)) {first : Nat}
    (hspan : n.span = ⟨first, u.previousEnd⟩) (hstart : s.token.start ≤ first)
    (hfirst : first ≤ t.token.start) (howns : n.HasScopes)
    (hgives : (∀ c ∈ n.children, c.HasScopes) → n.GivesScopes) :
    Passage source true s u (p ++ Part.of (frames s.scopes) [n]) :=
  h.standing k (k.laidFrom hspan hstart hfirst hgives) howns (fun _ => Iff.rfl) (.refl _)

end Passage

namespace Stretch

/-- Nothing has been read yet. -/
theorem start (hs : s.Ready source) : Stretch source false s s [] :=
  ⟨hs, nofun, Nat.le_refl _, Nat.le_refl _, nofun, .refl hs.numbered⟩

/-- Two stretches, one behind the other. -/
theorem trans (h : Stretch source taken s t nodes) (k : Stretch source more t u others) :
    Stretch source (taken || more) s u (nodes ++ others) := by
  have hboth := Passage.trans h k
  rwa [h.sameFrames, Part.of_append] at hboth

/-- Where the second has taken a token, both together have. -/
theorem andThen (h : Stretch source taken s t nodes) (k : Stretch source true t u others) :
    Stretch source true s u (nodes ++ others) := by
  have hboth := h.trans k
  rwa [Bool.or_true] at hboth

theorem weaken (h : Stretch source taken s t nodes) : Stretch source false s t nodes :=
  Passage.weaken h

/-- On the way from one state to the next nothing but tokens was read. -/
theorem pass (h : Passage source taken s t p) (k : Stretch source more t u []) :
    Passage source (taken || more) s u p := by
  have hboth := Passage.trans h k
  rwa [Part.append_nothing] at hboth

end Stretch

/-- A passage is a stretch of one node, where its parts were read from start to end. -/
theorem Passage.close (h : Passage source true s t (.inner (frames s.scopes) n))
    (hs : s.Ready source) (hspan : n.span = ⟨s.token.start, t.previousEnd⟩) (howns : n.HasScopes)
    (hgives : (∀ c ∈ n.children, c.HasScopes) → n.GivesScopes) : Extent source s t n := by
  refine ⟨?_, hspan⟩
  have hclosed := (Stretch.start hs).closeFrom h hspan (Nat.le_refl _) (Nat.le_refl _) howns hgives
  rwa [Part.of_append] at hclosed

/-- A node that encloses its parts in the scope they were read in. -/
theorem Passage.closeScope {kind : ScopeKind} {scope : Option Scope}
    (h : Passage source true s t
      ((Part.of (Scope.inside scope.toList (frames s.scopes)) nodes).enclosed (frames s.scopes)
        scope))
    (hs : s.Ready source) (hslots : n.slots = nodes)
    (hspan : n.span = ⟨s.token.start, t.previousEnd⟩) (hkind : scope.map (·.kind) = some kind)
    (hencloser : n.Encloser kind scope) : Extent source s t n := by
  subst hslots
  exact (h.congr hencloser.same).close hs hspan (hencloser.owns hkind) hencloser.gives

namespace Stretch

/-- A node whose parts were read last, and which starts there or before. -/
theorem closeFrom (h : Stretch source taken s t nodes)
    (k : Passage source true t u (.inner (frames t.scopes) n)) {first : Nat}
    (hspan : n.span = ⟨first, u.previousEnd⟩) (hstart : s.token.start ≤ first)
    (hfirst : first ≤ t.token.start) (howns : n.HasScopes)
    (hgives : (∀ c ∈ n.children, c.HasScopes) → n.GivesScopes) :
    Stretch source true s u (nodes ++ [n]) := by
  rw [h.sameFrames] at k
  have hclosed := Passage.closeFrom h k hspan hstart hfirst howns hgives
  rwa [Part.of_append] at hclosed

/-- A node that declares nothing and opens no scope stands for its parts. -/
theorem node (h : Stretch source true s t nodes) (hs : s.Ready source) {n : Node}
    (hslots : n.slots = nodes) (hspan : n.span = ⟨s.token.start, t.previousEnd⟩)
    (hform : n.isPlain = true) : Extent source s t n := by
  have hplain := Node.plain_of_isPlain hform
  refine Passage.close ?_ hs hspan hplain.owns hplain.gives
  rw [hplain.parts, hslots]
  exact h

/-- A node without parts, told by something that was read. -/
theorem leaf (h : Stretch source taken s t nodes) (hn : n.Leaf) {start stop : Nat}
    (hspan : n.span = ⟨start, stop⟩) (hstart : s.token.start ≤ start) (hfilled : start < stop)
    (hstop : stop ≤ t.previousEnd) :
    Stretch source taken s t (nodes ++ [n]) := by
  have hlaid : n.Laid s.token.start t.previousEnd := by
    refine .widen (.close hspan hstart hfilled (fun c hc => ?_) (hn.plain.gives fun c hc => ?_))
      (Nat.le_refl _) hstop
    · rw [hn.slots] at hc
      cases hc
    · have hmem := (List.mem_filter.mp hc).1
      rw [hn.slots] at hmem
      cases hmem
  refine { h with laid := ?_, scopes := ?_ }
  · intro x hx
    rcases List.mem_append.mp hx with hx | hx
    · exact h.laid x hx
    · rw [List.mem_singleton.mp hx]
      exact .inr ⟨hlaid, hn.plain.owns⟩
  · have hscopes := h.scopes
    simpa [Part.of, hn.plain.declarations, hn.plain.opened, hn.slots] using hscopes

/-- Another node in place of the last, where it says the same. -/
theorem relabel (h : Stretch source taken s t (nodes ++ [n])) (hthere : n.isMissing = false)
    (hsame : ∀ {lo hi}, n.Laid lo hi → n.HasScopes → m.Laid lo hi ∧ m.HasScopes)
    (hdeclarations : ∀ {chain}, m.declarations chain = n.declarations chain)
    (hopened : ∀ {chain}, m.opened chain = n.opened chain) :
    Stretch source taken s t (nodes ++ [m]) := by
  refine { h with laid := ?_, scopes := ?_ }
  · intro x hx
    rcases List.mem_append.mp hx with hx | hx
    · exact h.laid x (List.mem_append_left _ hx)
    · rw [List.mem_singleton.mp hx]
      rcases h.laid n (List.mem_append_right _ List.mem_cons_self) with hmissing | ⟨hn, howns⟩
      · rw [hthere] at hmissing
        cases hmissing
      · exact .inr (hsame hn howns)
  · have hscopes := h.scopes
    simpa [Part.of, hdeclarations, hopened] using hscopes

/-- A plain node with one part, whose range it has. -/
theorem wrap (h : Stretch source taken s t (nodes ++ [n])) (hthere : n.isMissing = false)
    (hspan : m.span = n.span) (hslots : m.slots = [n]) (hform : m.isPlain = true) :
    Stretch source taken s t (nodes ++ [m]) := by
  have hplain := Node.plain_of_isPlain hform
  refine h.relabel hthere (fun hn howns => ⟨hn.wrap hspan hslots (hplain.gives fun c hc => ?_),
    hplain.owns⟩) ?_ ?_
  · have hmem := (List.mem_filter.mp hc).1
    rw [hslots] at hmem
    exact List.mem_singleton.mp hmem ▸ howns
  · intro chain
    rw [hplain.declarations, hslots, List.flatMap_singleton]
  · intro chain
    rw [hplain.opened, hslots, List.flatMap_singleton]

/-- The one part of a plain node in place of that node. -/
theorem unwrap (h : Stretch source taken s t (nodes ++ [m])) (hthere : n.isMissing = false)
    (hslots : m.slots = [n]) (hform : m.isPlain = true) (hmissing : m.isMissing = false)
    (hgives : m.GivesScopes → ∀ c ∈ m.children, c.HasScopes) :
    Stretch source taken s t (nodes ++ [n]) := by
  have hplain := Node.plain_of_isPlain hform
  have hchild : n ∈ m.children := by
    refine List.mem_filter.mpr ⟨hslots ▸ List.mem_cons_self, ?_⟩
    rw [hthere]
    rfl
  refine h.relabel hmissing (fun hm _ => ⟨hm.child hchild, hgives (hm.scopes m m.mem_walk_self) n
    hchild⟩) ?_ ?_
  · intro chain
    rw [hplain.declarations, hslots, List.flatMap_singleton]
  · intro chain
    rw [hplain.opened, hslots, List.flatMap_singleton]

/-- A part may be missing. -/
theorem missing (h : Stretch source taken s t nodes) (hn : n.isMissing = true) :
    Stretch source taken s t (nodes ++ [n]) := by
  refine { h with laid := ?_, scopes := ?_ }
  · intro x hx
    rcases List.mem_append.mp hx with hx | hx
    · exact h.laid x hx
    · rw [List.mem_singleton.mp hx]
      exact .inl hn
  · have hscopes := h.scopes
    simpa [Part.of, Node.declarations_of_isMissing hn, Node.opened_of_isMissing hn] using hscopes

end Stretch

end

end EcmaStack

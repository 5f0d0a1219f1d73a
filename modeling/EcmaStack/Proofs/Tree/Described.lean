import EcmaStack.Proofs.Grouping.Statements
import EcmaStack.Tree.Description
import Mathlib.Data.List.Perm.Basic

/-!
# Descriptions list what walks visit

A walk goes by the slots of nodes, which are chosen kind by kind, and a description by their
fields. In a tree of regular nodes both come by the same nodes, and by each below the same node
(`Node.described_of_regular`): only the keys of shorthand properties are described and not
visited. Every program that is read is such a tree (`walk_described`).

A document is read with no knowledge of the tree it describes. The record of a node is known by
the type it tells (`Datum.isNodeMap`); scopes and ranges are described by records as well, but
these tell no type.
-/

namespace EcmaStack

/-! ## Nodes in a document -/

namespace Datum

/-- Whether a value describes a node. -/
def isNodeMap : Datum → Bool
  | .record fields => (fields.lookup "type").isSome
  | _ => false

mutual

/-- The descriptions of nodes in a value, each before those inside it; these can be left out. -/
def nodeMaps (inner : Bool) : Datum → List Datum
  | .list items => itemMaps inner items
  | .record fields =>
    if isNodeMap (.record fields) then
      .record fields :: (if inner then fieldMaps inner fields else [])
    else fieldMaps inner fields
  | _ => []

/-- The descriptions of nodes in the items of a list. -/
def itemMaps (inner : Bool) : List Datum → List Datum
  | [] => []
  | d :: rest => d.nodeMaps inner ++ itemMaps inner rest

/-- The descriptions of nodes in the fields of a record. -/
def fieldMaps (inner : Bool) : List (String × Datum) → List Datum
  | [] => []
  | (_, d) :: rest => d.nodeMaps inner ++ fieldMaps inner rest

end

/-- The type and the range of the node that is described. -/
def sight (d : Datum) : String × Span :=
  ((d.get "type").asText, ⟨(((d.get "location").get "begin").get "offset").asInt,
    (((d.get "location").get "end").get "offset").asInt⟩)

/-- Whether a value describes a shorthand property of a pattern. -/
def isShorthand (d : Datum) : Bool :=
  (d.get "type").asText == "PatternProperty" && (d.get "shorthand").asBool

/-- The descriptions of the nodes right below a node, but the key of a shorthand property. -/
def childMaps : Datum → List Datum
  | .record fields =>
    fieldMaps false (if isShorthand (.record fields) then fields.filter (·.1 != "key") else fields)
  | _ => []

/-- The descriptions of the nodes in the keys of shorthand properties. -/
def shorthandKeys (d : Datum) : List Datum :=
  (d.nodeMaps true).flatMap fun m => if m.isShorthand then (m.get "key").nodeMaps true else []

variable {inner : Bool}

/-- The maps among values that are made one by one. -/
theorem itemMaps_map {α : Type} {f : α → Datum} {xs : List α} :
    itemMaps inner (xs.map f) = xs.flatMap fun x => (f x).nodeMaps inner := by
  induction xs with
  | nil => rfl
  | cons x xs ih => rw [List.map_cons, itemMaps, ih, List.flatMap_cons]

/-- A record that names no type is no node, and what stands in it is found as if it were
not there. -/
theorem nodeMaps_record {fields : List (String × Datum)} (h : fields.lookup "type" = none) :
    (Datum.record fields).nodeMaps inner = fieldMaps inner fields := by
  rw [nodeMaps, isNodeMap, h]
  rfl

end Datum

open Datum (nodeMaps fieldMaps itemMaps)

/-! ## Values that describe no node -/

section Plain

variable {inner : Bool}

/-- A scope is described by names and numbers, so there is no node in it. -/
theorem nodeMaps_scope (s : Scope) : s.describe.nodeMaps inner = [] := by
  have hvariables : itemMaps inner (s.bindings.map Variable.describe) = [] := by
    rw [Datum.itemMaps_map]
    exact List.flatMap_eq_nil_iff.mpr fun _ _ => rfl
  rw [Scope.describe, Datum.nodeMaps_record rfl]
  simp only [fieldMaps, nodeMaps, hvariables, List.append_nil]

/-- Nor is there one in a text, -/
theorem nodeMaps_ofText (t : Text) : (Datum.ofText t).nodeMaps inner = [] := by
  rw [Datum.ofText]
  split <;> rfl

/-- nor in a list of texts. -/
theorem nodeMaps_texts (ss : List String) : (Datum.texts ss).nodeMaps inner = [] := by
  rw [Datum.texts, nodeMaps, Datum.itemMaps_map]
  exact List.flatMap_eq_nil_iff.mpr fun _ _ => rfl

/-- Nor in what may be missing, if there is none in what may be there. -/
theorem nodeMaps_maybe {α : Type} {f : α → Datum} (o : Option α)
    (h : ∀ a, (f a).nodeMaps inner = []) :
    ((o.map f).getD .null).nodeMaps inner = [] := by
  cases o with
  | none => rfl
  | some a => exact h a

/-- The values in some fields describe no nodes. -/
def Field.AllPlain (fields : List (String × Field)) : Prop :=
  ∀ f ∈ fields, ∀ d, f.2 = .value d → ∀ inner, d.nodeMaps inner = []

namespace Field

variable {key : String} {fields more : List (String × Field)}

@[simp] theorem allPlain_nil : AllPlain [] := nofun

@[simp] theorem allPlain_append : AllPlain (fields ++ more) ↔ AllPlain fields ∧ AllPlain more :=
  List.forall_mem_append

@[simp] theorem allPlain_value {d : Datum} :
    AllPlain ((key, .value d) :: fields) ↔ (∀ inner, d.nodeMaps inner = []) ∧ AllPlain fields := by
  simp [AllPlain]

@[simp] theorem allPlain_node {n : Option Node} :
    AllPlain ((key, .node n) :: fields) ↔ AllPlain fields := by
  simp [AllPlain]

@[simp] theorem allPlain_nodes {ns : List Node} :
    AllPlain ((key, .nodes ns) :: fields) ↔ AllPlain fields := by
  simp [AllPlain]

@[simp] theorem allPlain_one {n : Node} : AllPlain ((key, .one n) :: fields) ↔ AllPlain fields :=
  allPlain_node

@[simp] theorem allPlain_maybe {α : Type} {f : α → Node} {o : Option α} :
    AllPlain ((key, .maybe f o) :: fields) ↔ AllPlain fields :=
  allPlain_node

@[simp] theorem allPlain_list {α : Type} {f : α → Node} {xs : List α} :
    AllPlain ((key, .list f xs) :: fields) ↔ AllPlain fields :=
  allPlain_nodes

@[simp] theorem allPlain_text {s : String} :
    AllPlain ((key, .text s) :: fields) ↔ AllPlain fields :=
  allPlain_value.trans (and_iff_right fun _ => rfl)

@[simp] theorem allPlain_literal {t : Text} :
    AllPlain ((key, .literal t) :: fields) ↔ AllPlain fields :=
  allPlain_value.trans (and_iff_right fun _ => nodeMaps_ofText t)

@[simp] theorem allPlain_flag {b : Bool} : AllPlain ((key, .flag b) :: fields) ↔ AllPlain fields :=
  allPlain_value.trans (and_iff_right fun _ => rfl)

@[simp] theorem allPlain_integer {n : Option Int} :
    AllPlain ((key, .integer n) :: fields) ↔ AllPlain fields :=
  allPlain_value.trans (and_iff_right fun _ => nodeMaps_maybe _ fun _ => rfl)

@[simp] theorem allPlain_scope {s : Option Scope} :
    AllPlain ((key, describeScope s) :: fields) ↔ AllPlain fields :=
  allPlain_value.trans (and_iff_right fun _ => nodeMaps_maybe _ nodeMaps_scope)

end Field

@[simp] theorem Env.fields_plain (e : Env) : Field.AllPlain e.fields := by
  cases e with
  | mk scope nameScope closure =>
    cases nameScope <;> simp [Env.fields, nodeMaps_texts, nodeMaps_scope]

/-- The fields of an expression that are not parts of it hold no nodes: they are texts,
numbers and flags. -/
theorem Expr.fields_plain (e : Expr) : Field.AllPlain e.fields := by
  cases e <;> simp [Expr.fields, nodeMaps]

theorem Pattern.fields_plain (p : Pattern) : Field.AllPlain p.fields := by
  cases p with
  | target e => exact e.fields_plain
  | array | object => simp [Pattern.fields]

theorem Stmt.fields_plain (s : Stmt) : Field.AllPlain s.fields := by
  cases s <;> simp [Stmt.fields]

theorem ClassElement.fields_plain (e : ClassElement) : Field.AllPlain e.fields := by
  cases e <;> simp [ClassElement.fields]

theorem Node.fields_plain (n : Node) : Field.AllPlain n.fields := by
  cases n
  case stmt s => exact s.fields_plain
  case expr e => exact e.fields_plain
  case pattern p => exact p.fields_plain
  case classElement e => exact e.fields_plain
  case property p => cases p <;> simp [Node.fields]
  case element e => cases e <;> simp [Node.fields]
  case params p => cases p <;> simp [Node.fields]
  case body b => cases b <;> simp [Node.fields]
  case importSpecifier s => cases s <;> simp [Node.fields]
  all_goals simp [Node.fields]

end Plain

/-! ## The description of a node -/

/-- The value of a field, with the nodes in it described. -/
def Field.describe (locate : Span → Datum) : Field → Datum
  | .value d => d
  | .node n => (n.map (Node.describe locate)).getD .null
  | .nodes ns => .list (ns.map (Node.describe locate))

namespace Node

variable {n : Node} {inner : Bool} {locate : Span → Datum}

/-- The type, the range and the fields. -/
theorem describe_eq (h : n.isMissing = false) :
    n.describe locate = .record (("type", .text n.typeName) ::
    ("location", locate n.span) :: n.fields.map fun f => (f.1, f.2.describe locate)) := by
  rw [describe, h, if_neg Bool.false_ne_true]
  congr 3
  rw [← List.attach_map_val (l := n.fields)]
  refine List.map_congr_left fun ⟨⟨key, field⟩, _⟩ _ => ?_
  cases field with
  | value d => rfl
  | node c => cases c <;> rfl
  | nodes cs => exact congrArg (fun ds => (key, Datum.list ds)) List.attach_map_val

/-- What is missing is described as nothing. -/
theorem describe_missing (h : n.isMissing = true) : n.describe locate = .null := by
  rw [describe, h, if_pos rfl]

/-- The nodes described in some fields are their parts. -/
theorem fieldMaps_describe {fields : List (String × Field)} (h : Field.AllPlain fields) :
    fieldMaps inner (fields.map fun f => (f.1, f.2.describe locate)) =
      (fields.flatMap fun f => f.2.parts).flatMap fun c => (c.describe locate).nodeMaps inner := by
  induction fields with
  | nil => rfl
  | cons f fields ih =>
    obtain ⟨key, field⟩ := f
    have hrest : Field.AllPlain fields := fun f hf => h f (List.mem_cons_of_mem _ hf)
    have hfield : (field.describe locate).nodeMaps inner =
        field.parts.flatMap fun c => (c.describe locate).nodeMaps inner := by
      cases field with
      | value d => exact h _ List.mem_cons_self d rfl inner
      | node n => cases n <;> simp [Field.describe, Field.parts, nodeMaps]
      | nodes ns => rw [Field.describe, nodeMaps, Datum.itemMaps_map, Field.parts]
    rw [List.map_cons, fieldMaps, ih hrest, List.flatMap_cons, List.flatMap_append, hfield]

/-- What is missing is not described, and what is there is described by one record. -/
theorem nodeMaps_outer (h : n.isMissing = false) :
    (n.describe locate).nodeMaps false = [n.describe locate] := by
  rw [describe_eq h]
  rfl

/-- A record describes a node and the nodes in its parts. -/
theorem nodeMaps_describe (h : n.isMissing = false) : (n.describe locateOffsets).nodeMaps true =
    n.describe locateOffsets :: n.parts.flatMap fun c =>
    (c.describe locateOffsets).nodeMaps true := by
  have hfields : fieldMaps true (n.fields.map fun f => (f.1, f.2.describe locateOffsets)) = _ :=
    fieldMaps_describe n.fields_plain
  rw [describe_eq h, parts, ← hfields]
  rfl

/-- A description tells the type and the span of its node. -/
theorem sight_describe (h : n.isMissing = false) :
    (n.describe locateOffsets).sight = (n.typeName, n.span) := by
  rw [describe_eq h]
  rfl

end Node

/-! ## Slots and parts -/

@[simp] theorem Env.fields_parts (e : Env) : (e.fields.flatMap fun f => f.2.parts) = [] := by
  cases e with
  | mk scope nameScope closure => cases nameScope <;> rfl

/-- Walking goes from text to value and back; describing lists the texts first. Both come
by the same parts. -/
theorem Template.slots_perm {quasis : List TemplateElement} {es : List Expr}
    (h : es.length ≤ quasis.length) :
    (Template.slots quasis es).Perm (quasis.map .templateElement ++ es.map .expr) := by
  induction quasis generalizing es with
  | nil =>
    cases List.length_eq_zero_iff.mp (Nat.le_zero.mp h)
    exact .nil
  | cons q quasis ih =>
    cases es with
    | nil => exact (ih (Nat.zero_le _)).cons _
    | cons e es =>
      exact (((ih (Nat.le_of_succ_le_succ h)).cons _).trans List.perm_middle.symm).cons _

/-- Some nodes without those that are missing. -/
def Node.there (nodes : List Node) : List Node :=
  nodes.filter fun c => !c.isMissing

/-- The slots of an expression are the parts of its fields, in another order. -/
theorem Expr.slots_perm {e : Expr} (h : e.Regular) :
    (Node.there e.slots).Perm (Node.there (e.fields.flatMap fun f => f.2.parts)) := by
  cases e
  case template t =>
    refine List.Perm.filter _ ((Template.slots_perm h).trans ?_)
    simp [Expr.fields]
  case arrow span params body value async env =>
    -- the statements are missing, or the value
    cases body with
    | missing =>
      have hmissing : (Node.body .missing).isMissing = true := rfl
      simp [Expr.slots, Expr.fields, Body.orValue, Node.there, List.filter_cons, hmissing]
    | block =>
      rcases h with hbody | rfl
      · cases hbody
      · simp [Expr.slots, Expr.fields, Body.orValue, Node.maybe]
  case classExpr c =>
    refine List.Perm.filter _ ?_
    simp only [Expr.fields, Expr.slots, List.flatMap_append, List.flatMap_cons, List.flatMap_nil,
      Field.parts_maybe, Field.parts_list, Env.fields_parts, List.append_nil, List.append_assoc]
    -- the decorators are described last
    refine List.perm_append_comm.trans ?_
    simp only [List.append_assoc]
    exact .refl _
  all_goals simp [Expr.slots, Expr.fields]

/-- So it is for a pattern, -/
theorem Pattern.slots_perm {p : Pattern} (h : (Node.pattern p).Regular) :
    (Node.there p.slots).Perm (Node.there (p.fields.flatMap fun f => f.2.parts)) := by
  cases p with
  | target e => exact Expr.slots_perm h
  | array | object => simp [Pattern.slots, Pattern.fields]

/-- for a statement, -/
theorem Stmt.slots_perm (s : Stmt) : s.slots.Perm (s.fields.flatMap fun f => f.2.parts) := by
  cases s
  case doWhile span body test => exact List.Perm.swap _ _ _
  all_goals simp [Stmt.slots, Stmt.fields]

/-- and for an element of a class. -/
theorem ClassElement.slots_perm (e : ClassElement) :
    e.slots.Perm (e.fields.flatMap fun f => f.2.parts) := by
  cases e
  case missing => exact .nil
  case staticBlock => simp [ClassElement.slots, ClassElement.fields]
  -- the decorators are described last
  all_goals
    simp only [ClassElement.slots, ClassElement.fields, List.flatMap_cons, List.flatMap_nil,
      Field.parts_one, Field.parts_flag, Field.parts_text, Field.parts_maybe, Field.parts_list,
      List.append_nil, List.nil_append]
    exact List.perm_append_comm

namespace Node

/-- Whether a node is a shorthand property of a pattern. -/
def isShorthand : Node → Bool
  | .patternProperty p => p.shorthand
  | _ => false

/-- The key that a node has a part for, but no slot. -/
def hiddenKey : Node → List Node
  | .patternProperty p => if p.shorthand then [.expr p.key] else []
  | _ => []

/-- The parts of a regular node are its children and what is hidden. -/
theorem there_parts {n : Node} (h : n.Regular) :
    (there n.parts).Perm (n.hiddenKey ++ n.children) := by
  cases n
  case expr e => exact (Expr.slots_perm h).symm
  case pattern p => exact (Pattern.slots_perm h).symm
  case stmt s => exact (Stmt.slots_perm s).symm.filter _
  case classElement e => exact (ClassElement.slots_perm e).symm.filter _
  case patternProperty p =>
    cases hshort : p.shorthand with
    | true =>
      obtain ⟨k, hk⟩ := h hshort
      have hkey : (Node.expr p.key).isMissing = false := by
        rw [hk]
        rfl
      simp [hiddenKey, children, slots, parts, fields, there, List.filter_cons, hshort, hkey]
    | false => simp [hiddenKey, children, slots, parts, fields, there, hshort]
  case property p => cases p <;> simp [hiddenKey, children, slots, parts, fields, there]
  case element e => cases e <;> simp [hiddenKey, children, slots, parts, fields, there]
  case params p => cases p <;> simp [hiddenKey, children, slots, parts, fields, there]
  case body b => cases b <;> simp [hiddenKey, children, slots, parts, fields, there]
  case importSpecifier s => cases s <;> simp [hiddenKey, children, slots, parts, fields, there]
  all_goals simp [hiddenKey, children, slots, parts, fields, there]

end Node

/-! ## Trees of regular nodes -/

namespace Node

variable {n : Node}

/-- The type and the range of a node. -/
def sight (n : Node) : String × Span :=
  (n.typeName, n.span)

/-- A description tells the type and the range of a node, and right below it, in some order, are
descriptions of the children of the node. -/
inductive DescribedBy : Node → Datum → Prop
  | intro {n : Node} {d : Datum} (below : List (Node × Datum)) :
      d.sight = n.sight → below.map Prod.fst = n.children → (below.map Prod.snd).Perm d.childMaps →
      (∀ x ∈ below, DescribedBy x.1 x.2) → DescribedBy n d

/-- Only a property of a pattern is described as one. -/
theorem typeName_patternProperty (h : n.typeName = "PatternProperty") :
    ∃ p, n = .patternProperty p := by
  cases n
  case patternProperty p => exact ⟨p, rfl⟩
  case expr e => cases e <;> simp [typeName, Expr.typeName] at h
  case pattern p =>
    cases p
    case target e => cases e <;> simp [typeName, Pattern.typeName, Expr.typeName] at h
    all_goals simp [typeName, Pattern.typeName] at h
  case stmt s => cases s <;> simp [typeName, Stmt.typeName] at h
  case classElement e => cases e <;> simp [typeName, ClassElement.typeName] at h
  case property p => cases p <;> simp [typeName] at h
  case importSpecifier s => cases s <;> simp [typeName] at h
  all_goals simp [typeName] at h

/-- Whether a property is written in short can be told from its description. -/
theorem isShorthand_describe (hn : n.isMissing = false) :
    (n.describe locateOffsets).isShorthand = n.isShorthand := by
  by_cases htype : n.typeName = "PatternProperty"
  · obtain ⟨p, rfl⟩ := typeName_patternProperty htype
    rw [describe_eq hn]
    rfl
  · have hother : n.isShorthand = false := by
      cases n
      case patternProperty p => exact absurd rfl htype
      all_goals rfl
    have hsight := congrArg Prod.fst (sight_describe hn)
    rw [hother, Datum.isShorthand, show ((n.describe locateOffsets).get "type").asText =
      n.typeName from hsight, beq_eq_false_iff_ne.mpr htype, Bool.false_and]

/-- The descriptions of all nodes in a node. -/
def maps (n : Node) : List Datum :=
  (n.describe locateOffsets).nodeMaps true

/-- Those of them that stand for keys of shorthand properties. -/
def keyMaps (n : Node) : List Datum :=
  (n.describe locateOffsets).shorthandKeys

/-- What is missing has no maps. -/
theorem maps_missing (h : n.isMissing = true) : n.maps = [] := by
  rw [maps, describe_missing h]
  rfl

theorem keyMaps_missing (h : n.isMissing = true) : n.keyMaps = [] := by
  rw [keyMaps, describe_missing h]
  rfl

/-- The maps of a node are its own and those of its parts. -/
theorem maps_eq (h : n.isMissing = false) :
    n.maps = n.describe locateOffsets :: n.parts.flatMap maps :=
  nodeMaps_describe h

/-- The key of a shorthand property in its description. -/
theorem ownKey_describe (hn : n.isMissing = false) : (if (n.describe locateOffsets).isShorthand then
    ((n.describe locateOffsets).get "key").nodeMaps true else []) = n.hiddenKey.flatMap maps := by
  rw [isShorthand_describe hn]
  cases n
  case patternProperty p =>
    cases hshort : p.shorthand with
    | true =>
      rw [describe_eq hn]
      simp [isShorthand, hiddenKey, hshort]
      rfl
    | false => simp [isShorthand, hiddenKey, hshort]
  all_goals rfl

/-- The keys that walking leaves out are those of the node and those within its parts. -/
theorem keyMaps_eq (hn : n.isMissing = false) :
    n.keyMaps = n.hiddenKey.flatMap maps ++ n.parts.flatMap keyMaps := by
  rw [keyMaps, Datum.shorthandKeys, nodeMaps_describe hn, List.flatMap_cons, List.flatMap_assoc,
    ownKey_describe hn]
  rfl

/-- The key of a shorthand property is a name, in which no key is hidden. -/
theorem keyMaps_hiddenKey (h : n.Regular) : n.hiddenKey.flatMap keyMaps = [] := by
  cases n
  case patternProperty p =>
    cases hshort : p.shorthand with
    | true =>
      obtain ⟨k, hk⟩ := h hshort
      have hname : (Node.expr (.identifier k)).keyMaps = [] := by
        rw [keyMaps_eq rfl]
        rfl
      simp [hiddenKey, hshort, hk, hname]
    | false => simp [hiddenKey, hshort]
  all_goals rfl

/-- Missing parts do not count where nothing is made of them. -/
theorem flatMap_there {β : Type} {f : Node → List β} (hf : ∀ c, c.isMissing = true → f c = [])
    (nodes : List Node) :
    nodes.flatMap f = (there nodes).flatMap f := by
  induction nodes with
  | nil => rfl
  | cons c nodes ih =>
    cases hc : c.isMissing with
    | true =>
      rw [List.flatMap_cons, hf c hc, List.nil_append, ih, there, there,
        List.filter_cons_of_neg (by simp [hc])]
    | false =>
      rw [List.flatMap_cons, ih, there, there, List.filter_cons_of_pos (by simp [hc]),
        List.flatMap_cons]

/-- What is gathered from the parts of a regular node is gathered from its children and what is
hidden. -/
theorem flatMap_parts {β : Type} {f : Node → List β} (hf : ∀ c, c.isMissing = true → f c = [])
    (h : n.Regular) :
    (n.parts.flatMap f).Perm (n.hiddenKey.flatMap f ++ n.children.flatMap f) := by
  rw [flatMap_there hf, ← List.flatMap_append]
  exact (there_parts h).flatMap_right f

theorem isMissing_of_mem_children {c : Node} (h : c ∈ n.children) : c.isMissing = false := by
  simpa using (List.mem_filter.mp h).2

open scoped List in
/-- In a tree of regular nodes all that is described is visited, or the key of a shorthand
property. -/
theorem walk_perm (hn : n.isMissing = false) (hreg : ∀ m ∈ n.walk, m.Regular) :
    n.walk.map sight ++ n.keyMaps.map Datum.sight ~ n.maps.map Datum.sight := by
  induction hsize : sizeOf n using Nat.strongRecOn generalizing n with
  | _ size ih =>
    subst hsize
    have hroot : n.Regular := hreg n (mem_walk_self n)
    have hchildren : ∀ c ∈ n.children, c.walk.map sight ++
        c.keyMaps.map Datum.sight ~ c.maps.map Datum.sight :=
      fun c hc => ih _ (sizeOf_lt_of_mem_children hc) (isMissing_of_mem_children hc)
        (fun m hm => hreg m (mem_walk_of_children hc hm)) rfl
    -- A shorthand key is described with its property but not walked, so it is accounted for apart.
    have hkeys : n.keyMaps ~ n.hiddenKey.flatMap maps ++ n.children.flatMap keyMaps := by
      have hparts := flatMap_parts (fun c => keyMaps_missing) hroot
      rw [keyMaps_hiddenKey hroot, List.nil_append] at hparts
      rw [keyMaps_eq hn]
      exact hparts.append_left _
    have hmaps : n.maps ~ n.describe locateOffsets :: (n.hiddenKey.flatMap maps ++
        n.children.flatMap maps) := by
      rw [maps_eq hn]
      exact (flatMap_parts (fun c => maps_missing) hroot).cons _
    calc n.walk.map sight ++ n.keyMaps.map Datum.sight
      _ ~ n.sight :: (n.children.flatMap (fun c => c.walk.map sight) ++
            ((n.hiddenKey.flatMap maps).map Datum.sight ++
              n.children.flatMap fun c => c.keyMaps.map Datum.sight)) := by
        rw [walk_eq, List.map_cons, List.map_flatMap, List.cons_append]
        refine ((hkeys.map Datum.sight).append_left _).cons _ |>.trans ?_
        rw [List.map_append, List.map_flatMap (l := n.children)]
      _ ~ n.sight :: ((n.hiddenKey.flatMap maps).map Datum.sight ++
            (n.children.flatMap (fun c => c.walk.map sight) ++
              n.children.flatMap fun c => c.keyMaps.map Datum.sight)) :=
        (List.perm_append_comm_assoc _ _ _).cons _
      _ ~ n.sight :: ((n.hiddenKey.flatMap maps).map Datum.sight ++
            n.children.flatMap fun c => c.walk.map sight ++ c.keyMaps.map Datum.sight) :=
        ((List.flatMap_append_perm _ _ _).append_left _).cons _
      _ ~ n.sight :: ((n.hiddenKey.flatMap maps).map Datum.sight ++
        n.children.flatMap fun c => c.maps.map Datum.sight) :=
        ((List.Perm.flatMap_left _ hchildren).append_left _).cons _
      _ ~ n.maps.map Datum.sight := by
        refine ((hmaps.map Datum.sight).trans ?_).symm
        rw [List.map_cons, List.map_append, List.map_flatMap (l := n.children), sight_describe hn]
        exact .refl _

/-- The fields of a node that are not hidden. -/
def shownFields (n : Node) : List (String × Field) :=
  if n.isShorthand then n.fields.filter (·.1 != "key") else n.fields

/-- The parts that are shown are the children, but for the key of a shorthand property. -/
theorem there_shownFields (h : n.Regular) :
    (there (n.shownFields.flatMap fun f => f.2.parts)).Perm n.children := by
  have hparts := there_parts h
  cases hshort : n.isShorthand with
  | true =>
    cases n
    case patternProperty p =>
      change p.shorthand = true at hshort
      simp [shownFields, isShorthand, children, slots, fields, there, hshort]
    all_goals cases hshort
  | false =>
    have hhidden : n.hiddenKey = [] := by
      cases n
      case patternProperty p =>
        change p.shorthand = false at hshort
        simp [hiddenKey, hshort]
      all_goals rfl
    rw [hhidden] at hparts
    rw [shownFields, hshort]
    exact hparts

/-- So the maps right below a description are those of the children. -/
theorem childMaps_describe (hn : n.isMissing = false) (h : n.Regular) :
    (n.children.map (describe locateOffsets)).Perm (n.describe locateOffsets).childMaps := by
  have houter :
      ∀ nodes : List Node, (nodes.flatMap fun c => (c.describe locateOffsets).nodeMaps false) =
      (there nodes).map (describe locateOffsets) := by
    intro nodes
    rw [flatMap_there fun c hc => by rw [describe_missing hc]; rfl, List.map_eq_flatMap]
    refine List.flatMap_congr fun c hc => nodeMaps_outer ?_
    simpa using (List.mem_filter.mp hc).2
  have hchildMaps : (n.describe locateOffsets).childMaps =
      fieldMaps false (n.shownFields.map fun f => (f.1, f.2.describe locateOffsets)) := by
    have hshort := isShorthand_describe hn
    rw [describe_eq hn] at hshort ⊢
    rw [Datum.childMaps, hshort, shownFields]
    split
    · rw [List.filter_cons_of_pos rfl, List.filter_cons_of_pos rfl, List.filter_map]
      rfl
    · rfl
  rw [hchildMaps, fieldMaps_describe, houter]
  · exact ((there_shownFields h).map _).symm
  · intro f hf
    rw [shownFields] at hf
    split at hf
    · exact n.fields_plain f (List.mem_of_mem_filter hf)
    · exact n.fields_plain f hf

/-- By induction on the tree: a regular tree is described node by node. -/
theorem described_of_regular (hn : n.isMissing = false) (hreg : ∀ m ∈ n.walk, m.Regular) :
    n.DescribedBy (n.describe locateOffsets) := by
  induction hsize : sizeOf n using Nat.strongRecOn generalizing n with
  | _ size ih =>
    subst hsize
    refine .intro (n.children.map fun c => (c, c.describe locateOffsets)) (sight_describe hn)
      ?_ ?_ ?_
    · rw [List.map_map]
      exact List.map_id _
    · rw [List.map_map]
      exact childMaps_describe hn (hreg n (mem_walk_self n))
    · intro x hx
      obtain ⟨c, hc, rfl⟩ := List.mem_map.mp hx
      exact ih _ (sizeOf_lt_of_mem_children hc) (isMissing_of_mem_children hc)
        (fun m hm => hreg m (mem_walk_of_children hc hm)) rfl

end Node

/-! ## Programs that are read -/

/-- What is read is regular: a template has one text more than values, and shorthand
properties are names. -/
theorem regular_of_parseFile {file : SourceFile} {module : Bool} {compiler : PatternCompiler}
    {p : Program} (h : parseFile file module compiler = .ok p) :
    ∀ m ∈ (Node.program p).walk, m.Regular := by
  unfold parseFile at h
  split at h
  · next q hq =>
    cases h
    obtain ⟨⟨_, t⟩, hread, rfl⟩ := Scope.map_ok hq
    exact fun m hm => (Parse.program_orderly _ _ t hread _ List.mem_cons_self m hm).regular
  · cases h

/-- A program that is read is described node by node as it is visited: the description of each
node has those of its children right below it. What is visited, with the keys of shorthand
properties, is what is described. -/
theorem walk_described {file : SourceFile} {module : Bool} {compiler : PatternCompiler}
    {p : Program} (h : parseFile file module compiler = .ok p) :
    (Node.program p).DescribedBy ((Node.program p).describe locateOffsets) ∧
      ((Node.program p).walk.map Node.sight ++
        ((Node.program p).describe locateOffsets).shorthandKeys.map Datum.sight).Perm
        ((((Node.program p).describe locateOffsets).nodeMaps true).map Datum.sight) :=
  ⟨Node.described_of_regular rfl (regular_of_parseFile h),
    Node.walk_perm rfl (regular_of_parseFile h)⟩

/-- A script with a shorthand property, a hole, a template and an arrow function. -/
def variedScript : SourceFile :=
  .ofString "varied.js" "const {a, b: [, c]} = f(`x${1}y`, d => d)"

theorem walk_described_variedScript : ∃ p, parseFile variedScript false = .ok p ∧
    ((Node.program p).describe locateOffsets).shorthandKeys.map Datum.sight =
      [("Identifier", ⟨7, 8⟩)] ∧
    (Node.program p).DescribedBy ((Node.program p).describe locateOffsets) ∧
      ((Node.program p).walk.map Node.sight ++
        ((Node.program p).describe locateOffsets).shorthandKeys.map Datum.sight).Perm
        ((((Node.program p).describe locateOffsets).nodeMaps true).map Datum.sight) := by
  have hread : ((parseFile variedScript false).toOption.any fun p =>
      ((Node.program p).describe locateOffsets).shorthandKeys.map Datum.sight ==
      [("Identifier", ⟨7, 8⟩)]) = true := by
    decide +kernel
  cases hp : parseFile variedScript false with
  | ok p =>
    rw [hp] at hread
    exact ⟨p, rfl, by simpa [Except.toOption] using hread, walk_described hp⟩
  | error fault =>
    rw [hp] at hread
    cases hread

end EcmaStack

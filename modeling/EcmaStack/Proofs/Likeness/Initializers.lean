import EcmaStack.Proofs.Grammar.Statements
import EcmaStack.Proofs.Likeness.Tree
import EcmaStack.Proofs.Tree.Formed

/-!
# Initializing an instance does not initialize it again

Every call of the superclass's constructor is followed by the code that initializes the
instance: the fields and the private methods of the class. If such a call could stand in that
code itself, the code would have to hold itself. It cannot in a program that was read. What
initializes an instance is therefore the same whatever would follow a call in it, and writing it
into itself, over and over, changes nothing (`initializer_exact`).
-/

namespace EcmaStack

open Code

/-! ## Equal code -/

namespace Likeness

/-- Where being alike is being equal, so it is for what may be missing. -/
private theorem eq_of_rel {o o' : Option Code} (h : Option.Rel Eq o o') : o = o' := by
  cases h with
  | some h => rw [h]
  | none => rfl

/-- Every lowering is paired with itself. -/
private theorem paired_refl (x : Lowering) : Paired Eq x x := by
  cases x with
  | ok c => exact .ok rfl
  | error fault => exact .refused fault

/-- Sites that both keep source texts, or both leave them out, are alike where they give the
same code. -/
def equality (terse : Bool) : Likeness where
  terse := terse
  terse' := terse
  rel := Eq
  plain _ := rfl
  append ha hb := ha ▸ hb ▸ rfl
  sealed ha := ha ▸ rfl
  leave _ := rfl
  bypassed _ ha := ha ▸ rfl
  either _ ha hb := ha ▸ hb ▸ rfl
  forever ha := ha ▸ rfl
  repeated _ ha hb := ha ▸ hb ▸ rfl
  framed _ _ ha := ha ▸ rfl
  switch {d d' tests tests' bodies bodies'} hd htests hbodies := by
    obtain rfl : tests = tests' := List.forall₂_eq_eq_eq ▸ htests.imp fun _ _ => eq_of_rel
    obtain rfl : bodies = bodies' := List.forall₂_eq_eq_eq ▸ hbodies
    obtain rfl : d = d' := hd
    exact paired_refl _
  guarded ha hh hf := by rw [ha, eq_of_rel hh, eq_of_rel hf]
  enclosed ha _ := ha ▸ rfl
  object _ ha := ha ▸ rfl

end Likeness

/-- Two lowerings that are paired by equality are one. -/
theorem Paired.eq {x y : Lowering} (h : Paired Eq x y) : x = y := by
  cases h with
  | ok h => rw [h]
  | refused fault => rfl

/-! ## Initializers -/

/-- The site of what initializes an instance, when a call of the superclass's constructor there
initializes the instance once more. -/
def CodeSite.reentered (s : CodeSite) (again : Bool → Lowering) (async : Bool) : CodeSite :=
  { s.inFunction async with fields := some again }

/-- What initializes an instance, written into itself so many levels deep with something else at
the bottom. -/
def ClassElement.unrolled (s : CodeSite) (elements : List ClassElement) (bottom : Bool → Lowering) :
    Nat → Bool → Lowering
  | 0 => bottom
  | depth + 1 =>
    fun async => initializer (s.reentered (unrolled s elements bottom depth) async) elements

/-- The initializer of a class looks at no site for what follows a call of the superclass:
there is none in it. -/
theorem ClassElement.initializer_reentered {elements : List ClassElement} {derived : Bool}
    (h : ∀ e ∈ elements, e.Grammatical derived) (s : CodeSite) (again : Bool → Lowering)
    (async : Bool) :
    initializer (s.reentered again async) elements = initializer (s.inFunction async) elements := by
  have hsites : (s.reentered again async).Alike (.equality s.omitSource) false
      (s.inFunction async) :=
    { file := rfl, lineStarts := rfl, async := rfl, terse := rfl, terse' := rfl, fields := nofun }
  have halike : ∀ e ∈ elements, e.Alike (.equality s.omitSource) := fun e he => (h e he).alike
  exact (initializer_paired hsites halike).eq

/-- So unrolling it once more changes nothing. -/
theorem ClassElement.unrolled_succ {elements : List ClassElement} {derived : Bool}
    (h : ∀ e ∈ elements, e.Grammatical derived) (s : CodeSite) (bottom : Bool → Lowering)
    (depth : Nat) (async : Bool) :
    unrolled s elements bottom (depth + 1) async = initializer (s.inFunction async) elements :=
  initializer_reentered h s (unrolled s elements bottom depth) async

/-- In a class as it is lowered, what initializes an instance does not initialize
it again. -/
theorem Class.lower_eq_lowerWith (s : CodeSite) (use : Use) (c : Class) :
    c.lower s use =
      c.lowerWith s use (some fun async => ClassElement.initializer (s.inFunction async)
        c.body) := by
  cases c
  rfl

/-- Whether a node is a call of the superclass's constructor. -/
def Node.isSuperCall : Node → Bool
  | .expr (.call _ callee _ _) => callee.isSuper
  | _ => false

/-- Outside the constructors in it, an element other than the constructor calls no superclass's
constructor. -/
theorem Node.Formed.no_superCall {e : ClassElement} (h : (Node.classElement e).Formed false) :
    ∀ n ∈ (Node.classElement e).walkWhere (!·.isConstructor), n.isSuperCall = false := by
  intro n hn
  have hdescend : ∀ m : Node, (!m.isConstructor) = true → m.isConstructor = true → false =
      true := by
    intro m hm hconstructor
    rw [hconstructor] at hm
    exact hm
  obtain ⟨own, hown, hstands⟩ := h.walkWhere hdescend n hn
  obtain rfl : own = false := Bool.eq_false_iff.mpr fun htrue => Bool.false_ne_true (hown htrue)
  cases n with
  | expr x =>
    cases x with
    | call =>
      cases (hstands : Expr.Grammatical false _) with
      | atom hatom => cases hatom
      | call hsuper =>
        exact Bool.eq_false_iff.mpr fun hcallee => Bool.false_ne_true (hsuper hcallee)
    | _ => rfl
  | _ => rfl

/-- Whether a node is a derived class with something that is made for every instance. -/
def Node.initializesDerived : Node → Bool
  | .expr (.classExpr c) => c.body.any ClassElement.onInstance && c.superClass.isSome
  | _ => false

/-- What initializes the instances of a derived class is that class. -/
theorem Node.class_of_initializesDerived {n : Node} (h : n.initializesDerived = true) :
    ∃ c, n = .expr (.classExpr c) ∧ c.body.any ClassElement.onInstance = true ∧
    c.superClass.isSome = true := by
  unfold initializesDerived at h
  split at h
  · next c => exact ⟨c, rfl, Bool.and_eq_true_iff.mp h⟩
  · cases h

section

variable {file : SourceFile} {module : Bool} {compiler : PatternCompiler} {p : Program} {c : Class}

/-- In a program that was read no element of a class but its constructor calls the superclass's
constructor, arrow functions included. What initializes an instance is therefore the same
whatever a call in it would be followed by, and a class whose initializing code is written into
itself ends at the first level of it: the code is that of the class. -/
theorem initializer_exact (hparse : parseFile file module compiler = .ok p)
    (hc : .expr (.classExpr c) ∈ (Node.program p).walk) (s : CodeSite) :
    (∀ e ∈ c.body, ∀ n ∈ (Node.classElement e).walkWhere (!·.isConstructor),
      n.isSuperCall = false) ∧
    (∀ again async, ClassElement.initializer (s.reentered again async) c.body =
      ClassElement.initializer (s.inFunction async) c.body) ∧
    ∀ use bottom depth, c.lowerWith s use (some
      (ClassElement.unrolled s c.body bottom (depth + 1))) = c.lower s use := by
  have hformed : (Node.program p).Formed true := Node.Stands.formed (parseFile_grammatical hparse)
  obtain ⟨own, -, hstands⟩ := hformed.walk _ hc
  cases (hstands : Expr.Grammatical own _) with
  | atom hatom => cases hatom
  | classExpr hclass =>
    cases hclass with
    | mk _ _ _ helements _ =>
      refine ⟨fun e he => ?_, ClassElement.initializer_reentered helements s,
        fun use bottom depth => ?_⟩
      · exact Node.Formed.no_superCall (Node.Stands.anywhere ⟨_, helements e he⟩)
      · rw [Class.lower_eq_lowerWith, funext (ClassElement.unrolled_succ helements s bottom depth)]

/-- A derived class with a field and a private method, whose constructor calls the superclass's
constructor twice: directly, and in an arrow function. -/
def arrowConstructor : SourceFile :=
  .ofString "fields.js"
    "class A extends B { f = () => this.#m(); #m() {} constructor() { super(); (() => super())() } }"

theorem initializer_exact_arrowConstructor :
    ∃ p c, parseFile arrowConstructor false = .ok p ∧ .expr (.classExpr c) ∈ (Node.program p).walk ∧
      c.body.any ClassElement.onInstance = true ∧ c.superClass.isSome = true ∧
      ∀ s use bottom depth, c.lowerWith s
      use (some (ClassElement.unrolled s c.body bottom (depth + 1))) = c.lower s use := by
  have hcheck : ((parseFile arrowConstructor false).toOption.bind fun p =>
      (Node.program p).walk.find? Node.initializesDerived).isSome = true := by
    decide +kernel
  cases hparse : parseFile arrowConstructor false with
  | error e =>
    rw [hparse] at hcheck
    cases hcheck
  | ok p =>
    rw [hparse] at hcheck
    obtain ⟨n, hfind⟩ := Option.isSome_iff_exists.mp hcheck
    obtain ⟨c, rfl, hany, hsuper⟩ := Node.class_of_initializesDerived (List.find?_some hfind)
    have hmem := List.mem_of_find?_eq_some hfind
    exact ⟨p, c, rfl, hmem, hany, hsuper, fun s => (initializer_exact hparse hmem s).2.2⟩

end

end EcmaStack

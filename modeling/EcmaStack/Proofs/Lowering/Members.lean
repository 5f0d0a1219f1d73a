import EcmaStack.Proofs.Lowering.Pieces

/-!
# Members, functions and scopes on the machine

What the code of members, function objects and scopes does to the shape of the machine, for
whatever code stands in them.
-/

namespace EcmaStack

open Code

variable {exits : Exits} {m n : Nat}

/-! ## Uses -/

/-- What code for a use does: the next link of a chain may leave the chain, anything else is one
more value. -/
def Use.Typed : Use → Code → Prop
  | .link, c => Links c 0 1
  | _, c => Moves c 0 1

/-- Code that leaves one value fits every use. -/
theorem Use.typed_of_moves {c : Code} (h : Moves c 0 1) (use : Use) : use.Typed c := by
  cases use with
  | link => exact h.links
  | value | named => exact h

/-- A link of a chain that is finished as its use asks for fits that use. -/
theorem Use.typed_finish {c : Code} (h : Links c 0 1) (use : Use) : use.Typed (use.finish c) := by
  cases use with
  | link => exact h
  | value | named => exact h.sealed

/-- What is no link leaves one value and no jump open. -/
theorem Use.Typed.moves {c : Code} {use : Use} (h : use.Typed c) (huse : use ≠ .link) :
    Moves c 0 1 := by
  cases use with
  | link => exact absurd rfl huse
  | value | named => exact h

/-- Everything may be taken for a link. -/
theorem Use.Typed.links {c : Code} {use : Use} (h : use.Typed c) : Links c 0 1 := by
  cases use with
  | link => exact h
  | value => exact Moves.links h
  | named => exact Moves.links h

/-! ## Sites -/

/-- What initializes an instance leaves the stack as it was. -/
def CodeSite.Sound (s : CodeSite) : Prop :=
  ∀ fields, s.fields = some fields → ∀ async, Lowers (Moves · 0 0) (fields async)

namespace CodeSite

variable {s : CodeSite}

theorem Sound.inFunction (async : Bool) : (s.inFunction async).Sound := by
  intro fields h
  cases h

theorem Sound.inArrow (h : s.Sound) (async : Bool) : (s.inArrow async).Sound :=
  h

/-- A call of the superclass's constructor takes the array of arguments. -/
theorem superCall_lowers (h : s.Sound) (span : Span) : Lowers (Moves · 1 1) (s.superCall span) := by
  have hcall : Moves (s.placed .superCall span) 1 1 := moves_of_height? rfl
  rw [superCall]
  split
  · next fields hfields =>
    refine (h fields hfields s.async).bind fun c hc => ?_
    exact .ok (hcall.append (hc.lift 1))
  · exact .ok hcall

/-- What a derived class does without a constructor leaves the stack as it was. -/
theorem implicitSuperCall_lowers (h : s.Sound) (span : Span) :
    Lowers (Moves · 0 0) (s.implicitSuperCall span) := by
  have hpop : Moves (op .pop) 1 0 := moves_of_height? rfl
  refine (superCall_lowers h span).bind fun c hc => ?_
  exact .ok (((load_moves "arguments").append hc).append hpop)

end CodeSite

/-! ## Scopes -/

/-- The fragment opens one scope. -/
def Code.Opens (c : Code) : Prop :=
  ∀ σ, Leads ∅ c σ σ.enter

theorem Code.Opens.append {c d : Code} (hc : Opens c) (hd : Moves d 0 0) : Opens (c ++ d) :=
  fun σ => (hc σ).append (hd σ.enter)

theorem Variable.opening_moves (v : Variable) : Moves v.opening 0 0 := by
  rw [Variable.opening]
  split <;> exact moves_of_height? rfl

/-- Whether every function that is declared in a region has code. -/
def Hoisted.Sound (hoisted : List Hoisted) : Prop :=
  ∀ h ∈ hoisted, Lowers (Moves · 0 1) h.code

theorem Hoisted.Sound.nil : Hoisted.Sound [] := by
  intro h hmem
  cases hmem

/-- The functions of two lists of statements. -/
theorem Hoisted.Sound.append {first second : List Hoisted} (hfirst : Hoisted.Sound first)
    (hsecond : Hoisted.Sound second) : Hoisted.Sound (first ++ second) := by
  intro h hmem
  exact (List.mem_append.mp hmem).elim (hfirst h) (hsecond h)

/-- Making and storing the declared functions leaves the stack as it was. -/
theorem Hoisted.assign_lowers {hoisted : List Hoisted} (h : Hoisted.Sound hoisted) :
    Lowers (Moves · 0 0) (Hoisted.assign hoisted) := by
  induction hoisted with
  | nil => exact .ok .nil
  | cons first rest ih =>
    refine (h first List.mem_cons_self).bind fun c hc => ?_
    refine (ih fun other hmem => h other (List.mem_cons_of_mem _ hmem)).bind fun others hothers =>
      ?_
    have hpop : Moves (op .pop) 1 0 := moves_of_height? rfl
    exact .ok (((hc.append (store_moves first.name)).append hpop).append hothers)

/-- A variable that starts as a function starts as one of those declared. -/
theorem Variable.mem_of_hoisted? {v : Variable} {hoisted : List Hoisted} {h : Hoisted}
    (heq : v.hoisted? hoisted = some h) : h ∈ hoisted := by
  rw [Variable.hoisted?] at heq
  split at heq
  · exact List.mem_of_find?_eq_some heq
  · cases heq

/-- Opening a scope touches no operand. -/
theorem openScope_lowers (scope : Option Scope) {hoisted : List Hoisted}
    (h : Hoisted.Sound hoisted) :
    Lowers Opens (openScope scope hoisted) := by
  let bindings := (scope.map Scope.bindings).getD []
  have hassigned :
      Lowers (Moves · 0 0) (Hoisted.assign (bindings.filterMap (·.hoisted? hoisted))) := by
    refine Hoisted.assign_lowers fun f hmem => ?_
    obtain ⟨v, -, hv⟩ := List.mem_filterMap.mp hmem
    exact h f (Variable.mem_of_hoisted? hv)
  have hpush : Opens (op .pushScope) := fun σ => .pushScope
  refine hassigned.bind fun assigned hassigned => ?_
  exact .ok ((hpush.append (.flatMap fun v _ => v.opening_moves)).append hassigned)

/-- Nor does closing it, so what runs within it runs as it does without. -/
theorem inScope_lowers (scope : Option Scope) {hoisted : List Hoisted} {body : Lowering}
    (h : Hoisted.Sound hoisted) (hbody : Lowers (Runs exits · m n) body) :
    Lowers (Runs exits · m n) (inScope scope hoisted body) := by
  rw [inScope]
  split
  · refine (openScope_lowers scope h).bind fun opening hopening => ?_
    refine hbody.bind fun c hc => .ok ?_
    intro W σ hmeets
    have hopen := (hopening (σ.push m)).mono (Set.empty_subset W)
    exact (hopen.append (hc.inside hmeets)).append .popScope
  · exact hbody

/-! ## Functions -/

/-- The fragment is the body of a function: it starts with nothing on the stack and nothing
open, and never comes to its end. -/
def Code.Returns (c : Code) : Prop :=
  ∀ τ, Leads ∅ c {} τ

/-- A value is given back before the scope is closed. -/
theorem returns_inScope {opening body : Code} (hopening : Opens opening) (hbody : Moves body 0 1) :
    Returns (opening ++ body ++ op .giveBack ++ op .popScope) := by
  intro τ
  have hgive : Leads ∅ (op .giveBack) ((({} : StackShape).enter).push 1) τ.enter :=
    .stop (Or.inr rfl) (Nat.le_refl 1)
  exact (((hopening {}).append (hbody ({} : StackShape).enter)).append hgive).append .popScope

/-- A value is given back without a scope. -/
theorem returns_plain {body : Code} (hbody : Moves body 0 1) : Returns (body ++ op .giveBack) := by
  intro τ
  exact (hbody {}).append (.stop (Or.inr rfl) (Nat.le_refl 1))

/-- A function body that is passed over, and what makes the function object. -/
theorem enclosed_moves {body object : Code} (hbody : Returns body)
    (hobject : Moves object m (n + 1)) :
    Moves (enclosed body object) m (n + 1) :=
  fun σ => .enclosed (hbody (σ.push m)) (hobject σ) (Nat.le_add_left 1 (σ.depth + n))

theorem setClosure_moves (closure : List String) (n : Nat) :
    Moves (closure.flatMap (fun n => text .setClosure (.ofString n))) (n + 1) (n + 1) :=
  .flatMap fun _ _ => moves_of_height? rfl

/-- A function object is one value. Its body is jumped around, and gives back before it
ends. -/
theorem CodeSite.functionObject_moves (s : CodeSite) {o : Opcode} (ho : Moves (op o) 0 1)
    (span : Span) (name : Text) (closure : List String) {body : Code} (hbody : Returns body) :
    Moves (s.functionObject o span name closure body) 0 1 := by
  have hsource :
      Moves (if s.omitSource then [] else [⟨.setSource, [.text (s.sourceOf span)]⟩]) 1 1 := by
    split
    · exact .nil
    · exact moves_of_height? rfl
  have hname : Moves (if name.isEmpty then [] else string name ++ op .setName) 1 1 := by
    split
    · exact .nil
    · exact moves_of_height? rfl
  exact (((enclosed_moves hbody ho).append hsource).append hname).append
    (setClosure_moves closure 0)

/-! ## Members -/

/-- What is known of a member's parts: its object for every use, and its key. -/
structure Member.Sound (m : Member) : Prop where
  object : ∀ use, Lowers use.Typed (m.object use)
  key : Lowers (Moves · 0 1) m.key

namespace Member.Sound

variable {m : Member}

/-- Both ways to read a member take the object and the key. -/
theorem getter (m : Member) : Moves (op m.getter) 2 1 := by
  rw [Member.getter]
  split <;> exact moves_of_height? rfl

/-- Reading a member leaves its value, or leaves the chain. -/
theorem read (h : m.Sound) : Lowers (Links · 0 1) m.read := by
  rw [Member.read]
  split
  · have hget : Moves (op .getSuperField) 1 1 := moves_of_height? rfl
    exact h.key.bind fun key hkey => .ok (hkey.append hget).links
  · refine (h.object .link).bind fun object hobject => ?_
    refine h.key.bind fun key hkey => .ok ?_
    have hlink := (hobject.links).append (.optionalExit m.optional)
    exact (hlink.append (hkey.lift 1).links).append (getter m).links

/-- Deleting a member leaves one value, whichever way the chain is left. -/
theorem remove (h : m.Sound) (span : Span) : Lowers (Moves · 0 1) (m.remove span) := by
  rw [Member.remove]
  split
  · exact .refuse span .deletion
  · refine (h.object .link).bind fun object hobject => ?_
    refine h.key.bind fun key hkey => .ok ?_
    have hremove : Moves (op .removeField) 2 1 := moves_of_height? rfl
    have hlink := (hobject.links).append (.optionalExit m.optional)
    exact ((hlink.append (hkey.lift 1).links).append hremove.links).sealed

/-- A method call leaves its value where its object was. -/
theorem call (h : m.Sound) (direct optional : Bool) (s : CodeSite) (span : Span) {items : Lowering}
    (hitems : Lowers (Moves · 1 1) items) :
    Lowers (Links · 0 1) (m.call direct optional s span items) := by
  have hpush : Moves (op .pushArray) 0 1 := moves_of_height? rfl
  rw [Member.call]
  split
  · refine h.key.bind fun key hkey => ?_
    refine hitems.bind fun items hitems => .ok ?_
    have hguard : Links (if optional then pick 1 ++ op .getSuperField ++ unlessMissing 2 ++ op .pop
        else []) 1 1 := by
      split
      · have hread : Moves (pick 1 ++ op .getSuperField) 1 2 := moves_of_height? rfl
        have hpop : Moves (op .pop) 2 1 := moves_of_height? rfl
        exact (hread.links.append (.unlessMissing 1)).append hpop.links
      · exact .nil
    have hcall : Moves (s.placed .superMemberCall span) 2 1 := moves_of_height? rfl
    exact ((hkey.links.append hguard).append ((hpush.append hitems).lift 1).links).append
      hcall.links
  · refine (h.object _).bind fun object hobject => ?_
    refine h.key.bind fun key hkey => ?_
    refine hitems.bind fun items hitems => ?_
    have hobject := hobject.links.append (.optionalExit (m.optional && direct))
    have harguments := (hpush.append hitems).lift 2
    split
    · have hcall : Moves (s.placed .privateCall span) 3 1 := moves_of_height? rfl
      exact .ok (((hobject.append (hkey.lift 1).links).append harguments.links).append hcall.links)
    · have hpick : Moves (pick 1) 1 2 := moves_of_height? rfl
      have hguard : Links (if optional then unlessMissing 2 else []) 2 2 := by
        split
        · exact .unlessMissing 1
        · exact .nil
      have hcall : Moves (s.placed .memberCall span) 3 1 := moves_of_height? rfl
      have hread :=
        ((hobject.append hpick.links).append (hkey.lift 2).links).append ((getter m).lift 1).links
      exact .ok (((hread.append hguard).append harguments.links).append hcall.links)

/-- A tag that is a member takes the three parts of the template. -/
theorem tag (h : m.Sound) (s : CodeSite) (span : Span) {parts : Lowering}
    (hparts : Lowers (Moves · 0 3) parts) :
    Lowers (Moves · 0 1) (m.tag s span parts) := by
  rw [Member.tag]
  split
  · refine h.key.bind fun key hkey => ?_
    refine hparts.bind fun parts hparts => .ok ?_
    have hcall : Moves (s.placed .superMemberTag span) 4 1 := moves_of_height? rfl
    exact (hkey.append (hparts.lift 1)).append hcall
  · refine (h.object .value).bind fun object hobject => ?_
    refine h.key.bind fun key hkey => ?_
    refine hparts.bind fun parts hparts => ?_
    have hobject : Moves object 0 1 := hobject
    split
    · have hcall : Moves (s.placed .privateTag span) 5 1 := moves_of_height? rfl
      exact .ok (((hobject.append (hkey.lift 1)).append (hparts.lift 2)).append hcall)
    · have hpick : Moves (pick 1) 1 2 := moves_of_height? rfl
      have hget : Moves (op .getField) 3 2 := moves_of_height? rfl
      have hcall : Moves (s.placed .memberTag span) 5 1 := moves_of_height? rfl
      exact .ok (((((hobject.append hpick).append (hkey.lift 2)).append hget).append
        (hparts.lift 2)).append hcall)

/-- A member that is assigned to leaves object and key. -/
theorem reference (h : m.Sound) : Lowers Reference.Typed m.reference := by
  rw [Member.reference]
  split
  · exact h.key.bind fun key hkey => .ok hkey
  · refine (h.object .value).bind fun object hobject => ?_
    refine h.key.bind fun key hkey => .ok ?_
    have hboth : Moves (object ++ key) 0 2 := Moves.append hobject (hkey.lift 1)
    rw [Reference.Typed]
    split <;> exact hboth

end Member.Sound

end EcmaStack

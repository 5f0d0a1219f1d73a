import EcmaStack.Emission.Pieces
import EcmaStack.Proofs.Emission.Blocks
import Mathlib.Data.List.Forall2

/-!
# Writers and lowerings

A writer follows a lowering when the fragment it adds is the code that is lowered
to, and its report is the fault at which the lowering stops (`Emits`). After a
report the two go apart: the lowering has no code, while the writer goes on, and
must still patch what it reserves. Hence a lowering is said to yield a fragment
also where it stops (`LowersTo`); which fragment, is then left open.

Here this is shown for what is written around the parts of expressions: scopes,
keys, members, targets and functions.
-/

namespace EcmaStack

open Code Writing

variable {α β : Type} {a : α} {b : β} {c d : Code} {f g : Option WriteReport}

/-! ## What a lowering yields -/

/-- Lowering makes a value, or stops at a fault, with any value in its place. -/
inductive LowersTo : Except WriteFault α → α → Option WriteReport → Prop where
  | made (a : α) : LowersTo (.ok a) a none
  | refused (a : α) (g : WriteReport) : LowersTo (.error g.fault) a (some g)

namespace LowersTo

variable {l : Except WriteFault α} {k : α → Except WriteFault β}

/-- Where the lowering has an answer nothing was reported, and the answer is what was
written. -/
theorem of_ok {b : α} (h : LowersTo l a f) (hl : l = .ok b) : b = a ∧ f = none := by
  cases h with
  | made a =>
    cases hl
    exact ⟨rfl, rfl⟩
  | refused a g => cases hl

/-- Where the lowering refuses, the same was reported while writing went on. -/
theorem of_error {fault : WriteFault} (h : LowersTo l a f) (hl : l = .error fault) :
    ∃ g, f = some g ∧ fault = g.fault := by
  cases h with
  | made a => cases hl
  | refused a g =>
    cases hl
    exact ⟨g, rfl, rfl⟩

/-- A lowering that goes on with what it has made. The first fault wins on both sides. -/
theorem bind (h : LowersTo l a f) (hk : LowersTo (k a) b g) : LowersTo (l >>= k) b (f.or g) := by
  cases h with
  | made a => exact hk
  | refused a fault => exact .refused b fault

/-- What is made may be put into more code. -/
theorem map (h : LowersTo l a f) (F : α → β) : LowersTo (do return F (← l)) (F a) f := by
  cases h with
  | made a => exact .made (F a)
  | refused a fault => exact .refused (F a) fault

/-- A refusal, against some code that was written in place of what is refused. -/
theorem refuse (span : Span) (cause : WriteCause) (a : α) :
    LowersTo (EcmaStack.refuse span cause) a (some ⟨span.offset, cause⟩) :=
  .refused a ⟨span.offset, cause⟩

/-- A refusal is the first fault, whatever is reported behind it. -/
theorem refuse_or (span : Span) (cause : WriteCause) (a : α) (f : Option WriteReport) :
    LowersTo (EcmaStack.refuse span cause) a ((some ⟨span.offset, cause⟩).or f) :=
  .refused a ⟨span.offset, cause⟩

/-- One of two ways, and what is the same after each of them. -/
theorem bind_ite {p : Prop} [Decidable p] {l' : Except WriteFault α}
    (h : LowersTo (if p then l else l') a f) (hk : LowersTo (k a) b g) :
    LowersTo (if p then l >>= k else l' >>= k) b (f.or g) := by
  by_cases hp : p
  · rw [if_pos hp] at h ⊢
    exact h.bind hk
  · rw [if_neg hp] at h ⊢
    exact h.bind hk

/-- What goes on behind a choice goes on behind each branch. -/
theorem bind_ite_ite {p q : Prop} [Decidable p] [Decidable q] {l' l'' : Except WriteFault α}
    (h : LowersTo (if p then l else if q then l' else l'') a f) (hk : LowersTo (k a) b g) :
    LowersTo (if p then l >>= k else if q then l' >>= k else l'' >>= k) b (f.or g) := by
  by_cases hp : p
  · rw [if_pos hp] at h ⊢
    exact h.bind hk
  · rw [if_neg hp] at h ⊢
    exact h.bind_ite hk

/-- The same for code around a choice. -/
theorem map_ite {p : Prop} [Decidable p] {l' : Except WriteFault α}
    (h : LowersTo (if p then l else l') a f) (F : α → β) :
    LowersTo (if p then do return F (← l) else do return F (← l')) (F a) f := by
  by_cases hp : p
  · rw [if_pos hp] at h ⊢
    exact h.map F
  · rw [if_neg hp] at h ⊢
    exact h.map F

/-- Behind a refusal nothing is made any more. -/
theorem bind_refused {g : WriteReport} (h : l = .error g.fault) (b : β) :
    LowersTo (l >>= k) b (some g) := by
  subst h
  exact .refused b g

end LowersTo

/-- A writer adds the code that is made of what a lowering yields. -/
def EmitsAs (F : α → Code) (l : Except WriteFault α) (m : Writing Unit) : Prop :=
  ∃ a f, Writes m (F a) f ∧ LowersTo l a f

/-- A writer adds the code that a lowering yields. -/
def Emits (l : Lowering) (m : Writing Unit) : Prop :=
  ∃ c f, Writes m c f ∧ LowersTo l c f

/-- A link adds the code that a lowering yields. -/
def EmitsLink (l : Lowering) (link : Link) : Prop :=
  ∃ c f, Prolongs link c f ∧ LowersTo l c f

/-- A writer adds the code of a target and answers the target, or reports that
there is none. -/
inductive EmitsReference (l : Except WriteFault Reference) (m : Writing (Option Target)) :
    Prop where
  | target (t : Target) (c : Code) (f : Option WriteReport) (hm : Answers m (some t) c f)
    (hl : LowersTo l ⟨t, c⟩ f)
  | refused (c : Code) (g : WriteReport) (hm : Answers m none c (some g)) (hl : l = .error g.fault)

/-- Code that is made whatever happens. -/
theorem Emits.of_ok {m : Writing Unit} (h : Writes m c none) : Emits (.ok c) m :=
  ⟨c, none, h, .made c⟩

theorem Emits.nil : Emits (.ok []) (return) :=
  .of_ok (.pure ())

/-- Code behind code, on both sides. -/
theorem Emits.append {l l' : Lowering} {m m' : Writing Unit} (h : Emits l m) (h' : Emits l' m') :
    Emits (do
      let code ← l
      return code ++ (← l')) (do
      m
      m') := by
  obtain ⟨c, f, hm, hl⟩ := h
  obtain ⟨d, g, hm', hl'⟩ := h'
  exact ⟨c ++ d, f.or g, hm.bind hm', hl.bind (hl'.map _)⟩

/-- What is written without open slots may stand in a chain. -/
theorem Emits.link {l : Lowering} {m : Writing Unit} (h : Emits l m) :
    EmitsLink l fun jumps => do
      m
      return jumps := by
  obtain ⟨c, f, hm, hl⟩ := h
  exact ⟨c, f, .of_writes hm, hl⟩

/-- What is reported and refused. -/
theorem Emits.refuse {m : Writing Unit} (span : Span) (cause : WriteCause) (h : Writes m c f) :
    Emits (EcmaStack.refuse span cause) (do
      report span cause
      m) :=
  ⟨c, _, (report_writes span cause).bind h, .refuse_or span cause c f⟩

/-! ## Sites -/

/-- A site of a writer is that of a lowering, also in what initializes an
instance. -/
structure WriteSite.Agrees (E : WriteSite) (s : CodeSite) : Prop where
  code : E.code = { s with fields := none }
  fields : Option.Rel (fun write lower => ∀ async, Emits (lower async) (write async)) E.fields
    s.fields

namespace WriteSite.Agrees

variable {E : WriteSite} {s : CodeSite}

/-- In a function both sites know the same of it. -/
theorem inFunction (h : E.Agrees s) (async : Bool) :
    (E.inFunction async).Agrees (s.inFunction async) where
  code := congrArg (fun c : CodeSite => c.inFunction async) h.code
  fields := .none

/-- An arrow function keeps what its surroundings know. -/
theorem inArrow (h : E.Agrees s) (async : Bool) : (E.inArrow async).Agrees (s.inArrow async) where
  code := congrArg (fun c : CodeSite => c.inArrow async) h.code
  fields := h.fields

theorem async (h : E.Agrees s) : E.async = s.async :=
  congrArg CodeSite.async h.code

/-- The line and the column of an operation are counted in the same file. -/
theorem placed_writes (h : E.Agrees s) (o : Opcode) (span : Span) :
    Writes (E.placed o span) (s.placed o span) none := by
  have hcode : E.code.placed o span = s.placed o span := by
    rw [h.code]
    rfl
  rw [WriteSite.placed, hcode]
  exact put_writes rfl

/-- A call of the superclass's constructor, and behind it the fields of the class if the
site has any to initialize. -/
theorem superCall_emits (h : E.Agrees s) (span : Span) :
    Emits (s.superCall span) (E.superCall span) := by
  have hplaced := h.placed_writes .superCall span
  have hfields := h.fields
  unfold CodeSite.superCall WriteSite.superCall
  generalize E.fields = write, s.fields = lower at hfields
  cases hfields with
  | none => exact ⟨_, _, hplaced.answering (), .made _⟩
  | some hfields =>
    obtain ⟨c, f, hm, hl⟩ := hfields s.async
    rw [h.async]
    exact ⟨_, _, hplaced.bind hm, hl.map _⟩

/-- Finish a function object whose body has been written, and is passed over. -/
theorem functionObject_writes (h : E.Agrees s) {m : Writing Unit} (o : Opcode) (span : Span)
    (name : Text) (closure : List String) (hm : Writes m c f) :
    Writes (do
      let skip ← jump .jump
      let start ← here
      m
      patch skip
      E.functionHead o start span name
      writeClosure closure) (s.functionObject o span name closure c) f := by
  have homit : E.omitSource = s.omitSource := congrArg CodeSite.omitSource h.code
  have htext : E.code.sourceOf span = s.sourceOf span := by
    rw [h.code]
    rfl
  have hsource : Writes (when (!E.omitSource) do put [⟨.setSource, [.text (E.code.sourceOf span)]⟩])
      (if s.omitSource then [] else [⟨.setSource, [.text (s.sourceOf span)]⟩]) none := by
    rw [homit, htext]
    cases s.omitSource with
    | true => exact .pure ()
    | false => exact put_writes rfl
  have hname : Writes (when (!name.isEmpty) do
      Writing.string name
      op .setName) (if name.isEmpty then [] else Code.string name ++ Code.op .setName) none := by
    cases name.isEmpty with
    | true => exact .pure ()
    | false => exact (string_writes name).ending (op_writes .setName)
  have hclosure :
      Writes (writeClosure closure) (closure.flatMap (fun n => Code.text .setClosure (.ofString n)))
      none :=
    forM_writes (fun n => text_writes .setClosure (.ofString n)) closure
  have hobject := (hm.enclosed (op_writes o)).ending (hsource.ending (hname.ending hclosure))
  rw [Option.or_none] at hobject
  simpa only [CodeSite.functionObject, WriteSite.functionHead, bind_assoc,
    List.append_assoc] using hobject

end WriteSite.Agrees

/-! ## Scopes -/

/-- What writes a function that is declared in a region follows its lowering. -/
structure Hoisted.Agrees (h : Hoisted) (x : HoistedWriter) : Prop where
  site : h.site = x.site
  name : h.name = x.name
  emits : Emits h.code x.write

/-- The functions declared in a region, one after the other. -/
abbrev Hoisted.AllAgree : List Hoisted → List HoistedWriter → Prop :=
  List.Forall₂ Hoisted.Agrees

namespace Hoisted.AllAgree

variable {hoisted : List Hoisted} {writers : List HoistedWriter}

/-- The functions declared in a scope are made and stored in their order. -/
theorem assign_emits (h : AllAgree hoisted writers) :
    Emits (Hoisted.assign hoisted) (writers.forM fun x => do
      x.write
      text .store x.name
      op .pop) := by
  induction h with
  | nil => exact .nil
  | @cons h x _ _ hagrees _ ih =>
    obtain ⟨c, f, hm, hl⟩ := hagrees.emits
    obtain ⟨d, g, hm', hl'⟩ := ih
    have hstore := (hm.ending ((text_writes .store x.name).ending (op_writes .pop))).seq hm'
    refine ⟨_, _, ?_, hl.bind (hl'.map _)⟩
    rw [hagrees.name, List.forM_eq_forM, List.forM_cons]
    simpa only [bind_assoc, List.append_assoc, List.forM_eq_forM] using hstore

/-- A variable finds the same function on both sides. -/
theorem find (h : AllAgree hoisted writers) (v : Variable) :
    Option.Rel Hoisted.Agrees (v.hoisted? hoisted) (v.hoistedWriter? writers) := by
  have hsite (site : Nat) : Option.Rel Hoisted.Agrees (hoisted.find? (·.site == site))
      (writers.find? (·.site == site)) := by
    induction h with
    | nil => exact .none
    | cons hagrees _ ih =>
      rw [List.find?_cons, List.find?_cons, hagrees.site]
      split
      · exact .some hagrees
      · exact ih
  unfold Variable.hoisted? Variable.hoistedWriter?
  match v.kind, v.site with
  | .function, some site => exact hsite site
  | .function, none => exact .none
  | .var, _ | .param, _ | .letDecl, _ | .constDecl, _ | .using, _ | .awaitUsing, _ | .classDecl,
    _ | .importDecl, _ => exact .none

/-- A scope is opened, and what is declared in it by functions is there at once. -/
theorem prologue_emits (scope : Option Scope) (h : AllAgree hoisted writers) :
    Emits (openScope scope hoisted) (writePrologue scope writers) := by
  let bindings := (scope.map Scope.bindings).getD []
  have hfound : AllAgree (bindings.filterMap (·.hoisted? hoisted))
      (bindings.filterMap (·.hoistedWriter? writers)) := by
    induction bindings with
    | nil => exact .nil
    | cons v rest ih =>
      have hfind := h.find v
      rw [List.filterMap_cons, List.filterMap_cons]
      generalize v.hoisted? hoisted = found, v.hoistedWriter? writers = found' at hfind
      cases hfind with
      | none => exact ih
      | some hagrees => exact .cons hagrees ih
  obtain ⟨c, f, hm, hl⟩ := hfound.assign_emits
  have hopening : Writes (bindings.forM fun v => put v.opening) (bindings.flatMap Variable.opening)
      none := by
    refine forM_writes (fun v => put_writes ?_) bindings
    unfold Variable.opening
    split <;> rfl
  refine ⟨_, _, ?_, hl.map _⟩
  rw [List.append_assoc]
  exact (op_writes .pushScope).before (hopening.before hm)

/-- A scope around some code is closed behind it if it was opened. -/
theorem scoped_emits (scope : Option Scope) (h : AllAgree hoisted writers) {l : Lowering}
    {m : Writing Unit} (hbody : Emits l m) :
    Emits (inScope scope hoisted l) (do
      let pushed ← enterScope scope writers
      m
      leaveScope pushed) := by
  obtain ⟨c, f, hm, hl⟩ := h.prologue_emits scope
  obtain ⟨d, g, hm', hl'⟩ := hbody
  unfold inScope enterScope
  split
  · refine ⟨_, _, ?_, hl.bind (hl'.map _)⟩
    have hleave : Writes (leaveScope true) (Code.op .popScope) none := op_writes .popScope
    simpa only [bind_assoc, pure_bind, List.append_assoc] using hm.seq (hm'.ending hleave)
  · refine ⟨d, g, ?_, hl'⟩
    rw [pure_bind]
    exact hm'.answering ()

end Hoisted.AllAgree

/-! ## Keys and members -/

/-- A key that is a name or a literal is a constant. -/
theorem Expr.plainKey_emits (e : Expr) : Emits e.plainKey e.writePlainKey := by
  cases e with
  | number span raw value =>
    refine .of_ok (put_writes ?_)
    unfold numberCode
    split
    · rfl
    · split <;> rfl
  | identifier | privateName | string | bigint => exact .of_ok (string_writes _)
  | _ => exact .refuse _ .propertyKey (string_writes "")

/-- A key in brackets is evaluated, any other is a constant. -/
theorem Expr.asKey_emits (e : Expr) (computed : Bool) {l : Lowering} {m : Writing Unit}
    (h : Emits l m) : Emits (e.asKey computed l) (e.writeKey computed m) := by
  unfold Expr.asKey Expr.writeKey
  split
  · exact h
  · exact e.plainKey_emits

/-- An optional link leaves the chain where there is nothing to go on with: its slot is
the chain's. -/
theorem exitIf_links (optional : Bool) :
    Prolongs (exitIf optional) (optionalExit optional) none := by
  cases optional with
  | false => exact .stay
  | true =>
    intro jumps w _
    change (jump .jumpNull >>= fun slot => return jumps ++ [slot]).run w = _
    rw [bind_run (jump_run .jumpNull w)]
    rfl

/-- The jump over the missing value is patched, the one out of the chain stays
open. -/
theorem unlessMissing_links : Prolongs MemberWriter.unlessMissing (unlessMissing 2) none := by
  intro jumps w hw
  let missing : Code := Code.drop 2 ++ Code.op .pushUndefined ++ branch .jump .exit
  have hpatch : (patch ((w.out.length + 2 : Nat) : Int)).run
      (w.grow (branch .jumpNotNull .exit ++ missing) none) =
        .ok ((), w.grow (unlessMissing 2) none) :=
    patch_run hw _ [] .jumpNotNull [] [] missing
  have hdrop : Writes (put (Code.drop 2)) (Code.drop 2) none := put_writes rfl
  have hpush := op_writes .pushUndefined
  unfold MemberWriter.unlessMissing
  rw [bind_run (jump_run .jumpNotNull w), bind_run (hdrop.run _ (hw.grow _)), Writer.grow_grow,
    bind_run (hpush.run _ (hw.grow _)), Writer.grow_grow, bind_run (jump_run .jump _),
    Writer.grow_grow]
  refine (bind_run hpatch).trans ?_
  rw [Writer.length_grow]
  rfl

/-- What is known of a member, and what writes its parts, follow the lowering of the
member. -/
structure Member.Agrees (m : Member) (x : MemberWriter) : Prop where
  ofSuper : x.ofSuper = m.ofSuper
  isPrivate : x.isPrivate = m.isPrivate
  optional : x.optional = m.optional
  object : Emits (m.object .value) x.object
  operand : EmitsLink (m.object .link) x.operand
  key : Emits m.key x.key

namespace Member.Agrees

variable {m : Member} {x : MemberWriter}

/-- Both sides read a member with the same operation. -/
theorem getter (h : m.Agrees x) : x.getter = m.getter := by
  rw [MemberWriter.getter, Member.getter, h.isPrivate]

/-- A member is read: its base, its key, and the operation between them and the value. -/
theorem read_emits (h : m.Agrees x) : EmitsLink m.read x.read := by
  obtain ⟨k, g, hkey, hlkey⟩ := h.key
  unfold Member.read MemberWriter.read
  rw [h.ofSuper]
  split
  · refine ⟨_, _, ?_, hlkey.map _⟩
    have hread := Prolongs.of_writes (hkey.ending (op_writes .getSuperField))
    simpa only [bind_assoc] using hread
  · obtain ⟨c, f, hoperand, hl⟩ := h.operand
    refine ⟨_, _, ?_, hl.bind (hlkey.map _)⟩
    have hget := Prolongs.of_writes (hkey.ending (op_writes m.getter))
    have hread := hoperand.next ((exitIf_links m.optional).next hget)
    rw [h.optional, h.getter]
    simpa only [bind_assoc, Option.none_or, List.append_assoc] using hread

/-- Deleting a member of an optional chain is left out with the chain. -/
theorem remove_emits (h : m.Agrees x) (span : Span) : Emits (m.remove span) (x.remove span) := by
  unfold Member.remove MemberWriter.remove
  rw [h.ofSuper, h.isPrivate]
  split
  · exact .refuse span .deletion (op_writes .pushFalse)
  · obtain ⟨c, f, hoperand, hl⟩ := h.operand
    obtain ⟨k, g, hkey, hlkey⟩ := h.key
    refine ⟨_, _, ?_, hl.bind (hlkey.map _)⟩
    have hdrop := Prolongs.of_writes (hkey.ending (op_writes .removeField))
    have hremove := (hoperand.next ((exitIf_links m.optional).next hdrop)).writes
    rw [h.optional]
    simpa only [bind_assoc, Option.none_or, List.append_assoc] using hremove

/-- A method is called with its object, which is kept below it until then. -/
theorem call_emits (h : m.Agrees x) (direct optional : Bool) {E : WriteSite} {s : CodeSite}
    (hs : E.Agrees s) (span : Span) {items : Lowering} {writeItems : Writing Unit}
    (hitems : Emits items writeItems) :
    EmitsLink (m.call direct optional s span items)
      (x.call direct optional E span (writeArguments writeItems)) := by
  obtain ⟨k, fk, hkey, hlkey⟩ := h.key
  obtain ⟨d, g, hitems, hlitems⟩ := hitems
  have harguments : Writes (writeArguments writeItems) (Code.op .pushArray ++ d) g :=
    (op_writes .pushArray).before hitems
  unfold Member.call MemberWriter.call
  rw [h.ofSuper]
  split
  -- A method of the superclass needs no object: the receiver is the current one.
  · refine ⟨_, _, ?_, hlkey.bind (hlitems.map _)⟩
    have hguard : Prolongs (MemberWriter.guardSuperCall optional)
        (if optional then
          Code.pick 1 ++ Code.op .getSuperField ++ unlessMissing 2 ++ Code.op .pop
        else []) none := by
      cases optional with
      | false => exact .stay
      | true =>
        have hread := (pick_writes 1).ending (op_writes .getSuperField)
        have hlink := Prolongs.after hread (unlessMissing_links.next (.of_writes (op_writes .pop)))
        simp only [bind_assoc, List.append_assoc, if_true] at hlink ⊢
        exact hlink
    have hcall := Prolongs.of_writes (harguments.ending (hs.placed_writes .superMemberCall span))
    have hall := Prolongs.after hkey (hguard.next hcall)
    simpa only [bind_assoc, Option.none_or, List.append_assoc] using hall
  -- Any other is called on its object, which in a chain may leave by the chain's exit.
  · have hcallee : EmitsLink (m.object (if direct then .link else .value)) (x.callee direct) := by
      unfold MemberWriter.callee
      cases direct with
      | true => exact h.operand
      | false => exact h.object.link
    obtain ⟨c, f, hcallee, hl⟩ := hcallee
    have hexit := exitIf_links (m.optional && direct)
    rw [h.optional, h.isPrivate, h.getter]
    -- Private methods have an opcode of their own unless the call may be skipped.
    by_cases hprivate : (m.isPrivate && !optional) = true
    · simp only [hprivate, if_true]
      have hcall :=
        Prolongs.of_writes (hkey.seq (harguments.ending (hs.placed_writes .privateCall span)))
      refine ⟨_, _, ?_, hl.bind (hlkey.bind (hlitems.map _))⟩
      have hall := hcallee.next (hexit.next hcall)
      simpa only [bind_assoc, Option.none_or, List.append_assoc] using hall
    · simp only [hprivate, Bool.false_eq_true, if_false]
      have hguard : Prolongs (MemberWriter.guardCall optional)
          (if optional then unlessMissing 2 else []) none := by
        cases optional with
        | false => exact .stay
        | true => exact unlessMissing_links
      have hread := (pick_writes 1).before (hkey.ending (op_writes m.getter))
      have hcall := Prolongs.of_writes (harguments.ending (hs.placed_writes .memberCall span))
      refine ⟨_, _, ?_, hl.bind (hlkey.bind (hlitems.map _))⟩
      have hall := hcallee.next (hexit.next (Prolongs.after hread (hguard.next hcall)))
      simpa only [bind_assoc, Option.none_or, List.append_assoc] using hall

/-- A tag that is a member is called in the same way, with the parts of the template. -/
theorem tag_emits (h : m.Agrees x) {E : WriteSite} {s : CodeSite} (hs : E.Agrees s) (span : Span)
    {parts : Lowering} {writeParts : Writing Unit} (hparts : Emits parts writeParts) :
    Emits (m.tag s span parts) (x.tag E span writeParts) := by
  obtain ⟨k, fk, hkey, hlkey⟩ := h.key
  obtain ⟨d, g, hparts, hlparts⟩ := hparts
  obtain ⟨c, f, hobject, hl⟩ := h.object
  unfold Member.tag MemberWriter.tag
  rw [h.ofSuper, h.isPrivate]
  split
  · refine ⟨_, _, ?_, hlkey.bind (hlparts.map _)⟩
    simpa only [List.append_assoc] using hkey.seq
      (hparts.ending (hs.placed_writes .superMemberTag span))
  · cases m.isPrivate with
    | true =>
      simp only [if_true]
      refine ⟨_, _, ?_, hl.bind (hlkey.bind (hlparts.map _))⟩
      have htag := hobject.seq (hkey.seq (hparts.ending (hs.placed_writes .privateTag span)))
      simpa only [List.append_assoc] using htag
    | false =>
      simp only [Bool.false_eq_true, if_false]
      refine ⟨_, _, ?_, hl.bind (hlkey.bind (hlparts.map _))⟩
      have hcall := hparts.ending (hs.placed_writes .memberTag span)
      have htag :=
        hobject.seq ((pick_writes 1).before (hkey.seq ((op_writes .getField).before hcall)))
      simpa only [List.append_assoc] using htag

/-- A member that is assigned to leaves its object and its key on the stack. -/
theorem reference_emits (h : m.Agrees x) : EmitsReference m.reference x.reference := by
  obtain ⟨k, g, hkey, hlkey⟩ := h.key
  obtain ⟨c, f, hobject, hl⟩ := h.object
  unfold Member.reference MemberWriter.reference
  rw [h.ofSuper, h.isPrivate]
  split
  · exact .target _ _ _ (hkey.answering _) (hlkey.map _)
  · exact .target _ _ _ (hobject.seq (hkey.answering _)) (hl.bind (hlkey.map _))

end Member.Agrees

/-! ## Targets -/

namespace Target

variable (t : Target)

theorem get_writes : Writes (put t.get) t.get none := by
  refine put_writes ?_
  cases t <;> rfl

theorem set_writes : Writes (put t.set) t.set none := by
  refine put_writes ?_
  cases t <;> rfl

theorem bind_writes : Writes (put t.bind) t.bind none := by
  refine put_writes ?_
  cases t <;> rfl

end Target

/-- What is done with a target once its values are on the stack: code that is the
same whatever puts them there. -/
theorem EmitsReference.using {l : Except WriteFault Reference} {m : Writing (Option Target)}
    (h : EmitsReference l m) {use : Target → Writing Unit} (shape : Reference → Code)
    (other : Writing Unit) {code : Target → Code}
    (hshape : ∀ r, shape r = r.code ++ code r.target) (huse : ∀ t, Writes (use t) (code t) none)
    (hother : ∃ d g, Writes other d g) :
    Emits (do return shape (← l)) (do
      match ← m with
      | some t => use t
      | none => other) := by
  cases h with
  | target t c f hm hl =>
    refine ⟨shape ⟨t, c⟩, f, ?_, hl.map shape⟩
    rw [hshape]
    exact hm.bind_ending (huse t)
  | refused c g hm hl =>
    obtain ⟨d, g', hother⟩ := hother
    exact ⟨_, _, hm.bind hother, .bind_refused hl _⟩

/-- Reading a reference, changing the value and setting it, or nothing at all where there
is no reference. -/
theorem EmitsReference.update {l : Except WriteFault Reference} {m : Writing (Option Target)}
    (h : EmitsReference l m) (up before : Bool) :
    Emits (do return Reference.update (← l) up before) (do
      match ← m with
      | some t => t.writeUpdate up before
      | none => op .pushUndefined) := by
  have hstep (t : Target) : Writes (t.writeUpdate up before)
      (Reference.update ⟨t, []⟩ up before) none := by
    unfold Target.writeUpdate Reference.update
    cases before with
    | true =>
      have hset := (op_writes (if up then .inc else .dec)).before t.set_writes
      simpa only [List.append_assoc, List.nil_append, if_true] using t.get_writes.before hset
    | false =>
      have hset := (sink_writes (t.depth + 1)).before (t.set_writes.before (op_writes .pop))
      have hdefer := (op_writes (if up then .deferInc else .deferDec)).before hset
      simpa only [List.append_assoc, List.nil_append, Bool.false_eq_true,
        if_false] using t.get_writes.before hdefer
  refine h.using (fun r => r.update up before) (op .pushUndefined) (fun r => ?_) hstep
    ⟨_, _, op_writes .pushUndefined⟩
  unfold Reference.update
  split <;> simp only [List.append_assoc, List.nil_append]

/-- An assignment that is made unless the present value decides. -/
theorem Target.writeUnless_writes (t : Target) (decided : Opcode) {value : Writing Unit}
    (hvalue : Writes value c f) :
    Writes (t.writeUnless decided value) (Reference.assignUnless ⟨t, []⟩ decided c) f := by
  let keep : Code := if t.depth == 0 then [] else Code.sink t.depth ++ Code.drop t.depth
  have hkeep : Writes (when (t.depth > 0) do
      sink t.depth
      put (Code.drop t.depth)) keep none := by
    have hdrop : Writes (put (Code.drop t.depth)) (Code.drop t.depth) none := by
      refine put_writes ?_
      cases t <;> rfl
    have hboth := (sink_writes t.depth).before hdrop
    cases t with
    | binding name => exact .pure ()
    | superField | field | privateField => exact hboth
  have hassign := (op_writes .pop).before (hvalue.ending t.set_writes)
  have heither := hassign.either decided hkeep
  rw [Option.or_none] at heither
  have hall := t.get_writes.before heither
  unfold Target.writeUnless Reference.assignUnless
  simpa only [bind_assoc, List.append_assoc, List.nil_append] using hall

end EcmaStack

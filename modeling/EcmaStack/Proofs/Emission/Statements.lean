import EcmaStack.Proofs.Emission.Switches

/-!
# Writing statements

What is written for a statement, under whatever labels wait on it, is the code it is
lowered to (`Stmt.Written`). The frames of a loop or a switch are opened before its
body is written and closed behind it; a jump out of a loop and the addresses of a
protected block are patched once the code behind them has been written. -/

namespace EcmaStack

open Writing

/-- What is written for a statement and for the functions it declares. -/
structure Stmt.Written (stmt : Stmt) : Prop where
  write : ∀ ⦃E s⦄, WriteSite.Agrees E s →
    ∀ labels, Emits (stmt.lower s labels) (stmt.write E labels)
  hoisted : ∀ ⦃E s⦄, WriteSite.Agrees E s → Hoisted.AllAgree (stmt.hoisted s) (stmt.hoistedWriter E)

/-- What is written for a declaration of variables; each of its targets may also
stand at the head of a loop. -/
structure VarDecl.Written (d : VarDecl) : Prop where
  write : ∀ ⦃E s⦄, WriteSite.Agrees E s → Emits (d.lower s) (d.write E)
  targets : ∀ x ∈ d.list, x.target.Written

/-- A writer adds the code of a value and answers that there is one, or reports that
there is none. -/
inductive EmitsDefault (l : Lowering) (m : Writing Bool) : Prop where
  | value (c : Code) (f : Option WriteReport) (hm : Answers m true c f) (hl : LowersTo l c f)
  | refused (c : Code) (g : WriteReport) (hm : Answers m false c (some g)) (hl : l = .error g.fault)

/-- What is written for what stands at the head of a loop, or is the default of a
module. -/
structure Node.Written (n : Node) : Prop where
  start : ∀ ⦃E s⦄, WriteSite.Agrees E s →
    Emits (Node.lowerStart s (some n)) (Node.writeStart E (some n))
  bind : ∀ ⦃E s⦄, WriteSite.Agrees E s → Emits (n.lowerBind s) (n.writeBind E)
  default : ∀ ⦃E s⦄, WriteSite.Agrees E s →
    ∀ span, EmitsDefault (n.lowerDefault s span) (n.writeDefault E span)
  hoisted : ∀ ⦃E s⦄, WriteSite.Agrees E s → ∀ span,
    Hoisted.AllAgree ((Stmt.exportDefault span n).hoisted s)
      ((Stmt.exportDefault span n).hoistedWriter E)

/-! ## Lists of statements -/

section Lists

variable {E : WriteSite} {s : CodeSite}

/-- Statements one after the other. -/
theorem Stmt.writeList_emits (hs : E.Agrees s) {list : List Stmt} (h : ∀ b ∈ list, b.Written) :
    Emits (Stmt.lowerList s list) (Stmt.writeList E list) := by
  induction list with
  | nil => exact .nil
  | cons b rest ih =>
    have hrest := ih fun x hx => h x (List.mem_cons_of_mem _ hx)
    exact ((h b List.mem_cons_self).write hs []).append hrest

/-- The functions that a list of statements declares, in their order. -/
theorem Stmt.hoistedWriters_agree (hs : E.Agrees s) {list : List Stmt} (h : ∀ b ∈ list, b.Written) :
    Hoisted.AllAgree (Stmt.hoistedList s list) (Stmt.hoistedWriters E list) := by
  induction list with
  | nil => exact .nil
  | cons b rest ih =>
    have hrest := ih fun x hx => h x (List.mem_cons_of_mem _ hx)
    exact List.rel_append ((h b List.mem_cons_self).hoisted hs) hrest

/-- The functions declared in all clauses of a switch are those of its one scope. -/
theorem CaseClause.hoistedWriters_agree (hs : E.Agrees s) {cases : List CaseClause}
    (h : ∀ c ∈ cases, ∀ b ∈ c.consequent, b.Written) :
    Hoisted.AllAgree (CaseClause.hoistedList s cases) (CaseClause.hoistedWriters E cases) := by
  induction cases with
  | nil => exact .nil
  | cons c rest ih =>
    have hrest := ih fun x hx => h x (List.mem_cons_of_mem _ hx)
    obtain ⟨span, test, consequent⟩ := c
    exact List.rel_append (Stmt.hoistedWriters_agree hs (h _ List.mem_cons_self)) hrest

/-- Statements in a scope of their own. -/
theorem Stmt.writeScoped_emits (hs : E.Agrees s) (scope : Option Scope) {list : List Stmt}
    (h : ∀ b ∈ list, b.Written) :
    Emits (inScope scope (Stmt.hoistedList s list) (Stmt.lowerList s list)) (do
      let pushed ← enterScope scope (Stmt.hoistedWriters E list)
      Stmt.writeList E list
      leaveScope pushed) :=
  (Stmt.hoistedWriters_agree hs h).scoped_emits scope (Stmt.writeList_emits hs h)

theorem Block.write_emits (hs : E.Agrees s) {b : Block} (h : ∀ x ∈ b.body, x.Written) :
    Emits (Block.lower s b) (Block.write E b) := by
  obtain ⟨span, body, scope⟩ := b
  exact Stmt.writeScoped_emits hs scope h

/-- One target of a declaration, with its value. Of a `var` without a value nothing is
written. -/
private theorem declared_writes (hs : E.Agrees s) (kind : DeclKind) {target : Pattern}
    {initializer : Option Expr} (htarget : target.Written) (h : ∀ e ∈ initializer, e.Written) :
    ∃ (value : Option Code) (bound : Code) (f g : Option WriteReport),
      let skipped := value.isNone && kind == .var
      LowersTo (Expr.lowerOption s target.use initializer) value f ∧
      LowersTo (if skipped then .ok [] else target.lower s) bound g ∧
      Writes (when (!(initializer.isNone && kind == .var)) do
        Expr.writeOption E target.use.name initializer
        target.write E)
        ((if skipped then [] else value.getD (Code.op .pushUndefined)) ++ bound) (f.or g) := by
  obtain ⟨d, g, hm, hl⟩ := htarget.write hs
  cases initializer with
  | some e =>
    obtain ⟨c, f, hm', hl'⟩ := (h e rfl).write hs _ target.use_ne_link
    exact ⟨some c, d, f, g, hl'.map some, hl, hm'.seq hm⟩
  | none =>
    cases kind == .var with
    | true => exact ⟨none, [], none, none, .made none, .made [], .pure ()⟩
    | false => exact ⟨none, d, none, g, .made none, hl, (op_writes .pushUndefined).before hm⟩

/-- A name without a value is set to `undefined`, but not by `var`, which keeps what is
there. -/
theorem Declarator.writeList_emits (hs : E.Agrees s) (kind : DeclKind) {list : List Declarator}
    (htargets : ∀ d ∈ list, d.target.Written) (hinitializers : ∀ d ∈ list, ∀ e ∈ d.initializer,
      e.Written) :
    Emits (Declarator.lowerList s kind list) (Declarator.writeList E kind list) := by
  induction list with
  | nil => exact .nil
  | cons d rest ih =>
    obtain ⟨c, f, hm, hl⟩ := ih (fun x hx => htargets x (List.mem_cons_of_mem _ hx))
      fun x hx => hinitializers x (List.mem_cons_of_mem _ hx)
    obtain ⟨value, bound, f', g, hl', hl'', hm'⟩ :=
      declared_writes hs kind (htargets d List.mem_cons_self)
        (hinitializers d List.mem_cons_self)
    obtain ⟨span, target, initializer⟩ := d
    refine ⟨_, _, hm'.seq hm, ?_⟩
    rw [Option.or_assoc]
    exact hl'.bind (hl''.bind_ite (hl.map _))

end Lists

/-! ## Frames and loops -/

section

variable {E : WriteSite} {s : CodeSite} {l l' : Lowering} {m m' : Writing Unit} {c d : Code}
  {f g : Option WriteReport}

/-- What stands inside the frames of a loop or a switch. -/
theorem breakable_writes (labels : List String) (h : Writes m c f) :
    Writes (do
      let breaks ← openFrames .pushBreakLabel labels true
      m
      closeFrames breaks) (breakable labels c) f :=
  h.framed .pushBreakLabel labels true

/-- A turn of a loop is framed by the labels that `continue` may name. -/
theorem writeTurn_writes (labels : List String) (h : Writes m c f) :
    Writes (writeTurn labels m) (turnCode labels c) f :=
  h.framed .pushContinueLabel labels true

/-- A loop that is left by a jump: what is tested is dropped on both ways. -/
theorem repeated_writes (leave : Opcode) (hm : Writes m c f) (hm' : Writes m' d g) :
    Writes (do
      let start ← here
      m
      let exit ← jump leave
      op .pop
      m'
      jumpTo .jump start
      patch exit
      op .pop) (Code.repeated c leave d ++ Code.op .pop) (f.or g) := by
  have hloop := (hm.repeated leave ((op_writes .pop).before hm')).ending (op_writes .pop)
  simp only [bind_assoc] at hloop
  exact hloop

/-- What follows a jump only sees a slot that there can be. -/
theorem jump_bind_congr {α : Type} (o : Opcode) {k k' : Int → Writing α}
    (h : ∀ n : Nat, k n = k' n) :
    jump o >>= k = jump o >>= k' := by
  refine StateT.ext fun w => ?_
  rw [bind_run (jump_run o w), bind_run (jump_run o w), h]

/-- A loop over what an iterator yields. -/
theorem writeEachTurn_writes (labels : List String) (advance : Opcode) (scope : Option Scope)
    {bind body : Writing Unit} (h : Writes (do
      let pushed ← enterScope scope []
      bind
      writeTurn labels body
      leaveScope pushed) c f) :
    Writes (writeEachTurn labels advance scope bind body)
      (breakable labels (eachCode advance c) ++ Code.op .pop) f := by
  have hloop := (repeated_writes .jumpTrue (op_writes advance) h).ending (op_writes .pop)
  rw [Option.none_or, List.append_assoc] at hloop
  have hall := (breakable_writes labels hloop).ending (op_writes .pop)
  simp only [bind_assoc] at hall
  exact hall

end

/-! ## Protected blocks -/

section

variable {E : WriteSite} {s : CodeSite}

/-- Where the handler or the finalizer of a protected block will be found, if it has
one. -/
def reachIf (wanted : Bool) : Reach :=
  if wanted then .exit else .absent

/-- The slot of an address that is given only where there is something to lead to. -/
def slotIf (wanted : Bool) (place : Nat) : Int :=
  if wanted then place else -1

/-- The slot for a part that may be missing is reserved only if the part is there. -/
theorem reserveIf_run (wanted : Bool) (o : Opcode) (xs : List (Operand Reach))
    {f : Option WriteReport} (hxs : ∀ start stop stop', Instr.bytes start stop xs =
      Instr.bytes start stop' xs) (w : Writer) :
    (reserveIf wanted).run (w.grow [⟨o, xs⟩] f) =
      .ok (slotIf wanted (w.out.length + 2 + Instr.widths xs),
        w.grow [⟨o, xs ++ [.address (reachIf wanted)]⟩] f) := by
  cases wanted with
  | true => exact reserve_run o xs hxs w
  | false =>
    have haddress := address_run (f := f) o xs .absent 0 hxs (fun _ => rfl) w fun _ => rfl
    exact bind_run haddress

/-- The addresses of the handler and of the finalizer stand behind the operation. -/
theorem tryBegin_run (caught ended : Bool) (w : Writer) :
    (do
      op .tryBegin
      let catchSlot ← reserveIf caught
      let finallySlot ← reserveIf ended
      return (catchSlot, finallySlot)).run w =
      .ok ((slotIf caught (w.out.length + 2), slotIf ended (w.out.length + 10)),
        w.grow [⟨.tryBegin, [.address (reachIf caught), .address (reachIf ended)]⟩] none) := by
  have hopen (start stop stop' : Nat) : Instr.bytes start stop [.address (reachIf caught)] =
      Instr.bytes start stop' [.address (reachIf caught)] := by
    cases caught <;> rfl
  have hop : (op .tryBegin).run w = .ok ((), w.grow [⟨.tryBegin, []⟩] none) := put_run rfl w
  have hcatch := reserveIf_run (f := none) caught .tryBegin [] (fun _ _ _ => rfl) w
  have hfinally := reserveIf_run (f := none) ended .tryBegin [.address (reachIf caught)] hopen w
  exact (bind_run hop).trans ((bind_run hcatch).trans (bind_run hfinally))

/-- Where the handler or the finalizer of a protected block is, that many bytes behind
the operation. -/
def reachBehind (wanted : Bool) (bytes : Nat) : Reach :=
  if wanted then .ahead bytes else .absent

/-- The code of a handler, or none. -/
def handlerCode (handler : Option Code) : Code :=
  (handler.map (· ++ Code.op .tryEnd)).getD []

/-- The code of a finalizer, or none. The block and the handler go on behind it. -/
def finalizerCode (finalizer : Option Code) : Code :=
  (finalizer.map fun f => Code.bypassed .jump (f ++ Code.op .tryEnd)).getD []

/-- A part that may be missing, with the code of it and the report that is made. -/
structure MadeFrom {α : Type} (write : α → Writing Unit) (part : Option α) (o : Option Code)
    (f : Option WriteReport) : Prop where
  made : Option.Rel (fun x c => Writes (write x) c f) part o
  missing : part = none → f = none

variable {o : Option Code} {f : Option WriteReport} {b : CodeBuffer} (r : Reach) (block : Code)

/-- The handler stands where the block ends. -/
private theorem handler_run {handler : Option CatchClause}
    (h : MadeFrom (CatchClause.write E) handler o f) (hb : b.Inside) (fault : Option WriteReport) :
    (CatchClause.writeOption E (slotIf handler.isSome (b.length + 2)) handler).run
        ⟨b.grow (⟨.tryBegin, [.address (reachIf handler.isSome), .address r]⟩ :: block), fault⟩ =
      .ok
      ((), ⟨b.grow (⟨.tryBegin, [.address (reachBehind handler.isSome block.size), .address r]⟩ ::
        (block ++ handlerCode o)), fault.or f⟩) := by
  obtain ⟨hmade, hmissing⟩ := h
  cases hmade with
  | none =>
    rw [hmissing rfl, Option.or_none, handlerCode, Option.map_none, Option.getD_none,
      List.append_nil]
    rfl
  | some hm =>
    have hpatch := patch_run hb fault [] .tryBegin [] [.address r] block
    have hrun := (hm.ending (op_writes .tryEnd)).run
      ⟨b.grow (⟨.tryBegin, [.address (.ahead block.size), .address r]⟩ :: block), fault⟩
      (hb.grow _)
    rw [Writer.grow, CodeBuffer.grow_grow] at hrun
    exact (bind_run hpatch).trans hrun

/-- The finalizer stands behind the handler, which jumps over it. -/
private theorem finalizer_run {finalizer : Option Block}
    (h : MadeFrom (Block.write E) finalizer o f) (hb : b.Inside) (fault : Option WriteReport) :
    (Block.writeFinalizer E (slotIf finalizer.isSome (b.length + 10)) finalizer).run
        ⟨b.grow (⟨.tryBegin, [.address r, .address (reachIf finalizer.isSome)]⟩ :: block), fault⟩ =
      .ok ((), ⟨b.grow (⟨.tryBegin, [.address r, .address (reachBehind finalizer.isSome
        (block.size + Code.jumpSize))]⟩ :: (block ++ finalizerCode o)), fault.or f⟩) := by
  obtain ⟨hmade, hmissing⟩ := h
  cases hmade with
  | none =>
    rw [hmissing rfl, Option.or_none, finalizerCode, Option.map_none, Option.getD_none,
      List.append_nil]
    rfl
  | @some x c hm =>
    let head (n : Nat) : Instr Reach := ⟨.tryBegin, [.address r, .address (.ahead n)]⟩
    let opened : Code := block ++ Code.branch .jump .exit
    -- In front of the finalizer stands a jump over it: it is entered only from its slot in the
    -- head.
    have hjump :=
      jump_run .jump ⟨b.grow (⟨.tryBegin, [.address r, .address .exit]⟩ :: block), fault⟩
    have hpatch := patch_run hb fault [] .tryBegin [.address r] [] opened
    have hwrite := hm.run ⟨b.grow (head opened.size :: opened), fault⟩ (hb.grow _)
    have hleave :=
      (op_writes .tryEnd).run ⟨b.grow (head opened.size :: (opened ++ c)), fault.or f⟩ (hb.grow _)
    have hskip :=
      patch_run hb (fault.or f) (head opened.size :: block) .jump [] [] (c ++ Code.op .tryEnd)
    rw [Writer.grow, CodeBuffer.grow_grow, Option.or_none] at hjump hleave
    rw [Writer.grow, CodeBuffer.grow_grow] at hwrite
    -- For the last patch the code is split at that jump.
    have htail : opened ++ c ++ Code.op .tryEnd =
        block ++ (Code.branch .jump .exit ++ (c ++ Code.op .tryEnd)) := by
      simp only [opened, List.append_assoc]
    rw [List.cons_append, htail] at hleave
    refine (bind_run hjump).trans ((bind_run hpatch).trans
      ((bind_run hwrite).trans ((bind_run hleave).trans ?_)))
    have hplace : (b.grow (⟨.tryBegin, [.address r, .address .exit]⟩ :: block)).length + 2 =
        b.length + Code.size (head opened.size :: block) + 2 := by
      rw [CodeBuffer.length_grow]
      rfl
    have hsize : opened.size = block.size + Code.jumpSize := Code.size_append block _
    rw [hplace]
    refine hskip.trans ?_
    rw [hsize]
    rfl

/-- A part is written where it stands in the source. -/
theorem MadeFrom.isSome {α : Type} {write : α → Writing Unit} {part : Option α}
    (h : MadeFrom write part o f) : part.isSome = o.isSome := by
  cases h.made <;> rfl

/-- No slot of a part stays open behind it. -/
theorem MadeFrom.closed {α : Type} {write : α → Writing Unit} {part : Option α}
    (h : MadeFrom write part o f) {c : Code} (hc : c ∈ o) : c.Closed := by
  cases h.made with
  | none => cases hc
  | some hm => exact Option.some.inj hc ▸ hm.closed

/-- The code of a protected block: the addresses, the block, and what follows it. -/
theorem tryCode_eq (c : Code) (o o' : Option Code) :
    let body :=
  c ++ Code.op .tryEnd ++ (Code.branch .jump (.ahead (handlerCode o).size) ++ handlerCode o)
    tryCode c o o' =
      ⟨.tryBegin, [.address (reachBehind o.isSome ((c ++ Code.op .tryEnd).size + Code.jumpSize)),
      .address (reachBehind o'.isSome (body.size + Code.jumpSize))]⟩ ::
      (body ++ finalizerCode o') := by
  intro body
  have hbody : body = c ++ Code.op .tryEnd ++ Code.branch .jump (.ahead (handlerCode o).size) ++
      handlerCode o := by
    simp only [body, List.append_assoc]
  have hblock :
      Code.size (c ++ Code.op .tryEnd ++ Code.branch .jump (.ahead (handlerCode o).size)) =
      (c ++ Code.op .tryEnd).size + Code.jumpSize := Code.size_append _ _
  rw [hbody, Code.size_append _ (handlerCode o), ← hblock]
  rfl

/-- The two addresses of a `try` lead to parts of its own, and so does each jump around
them: nothing is open behind it. -/
theorem closed_tryCode {c : Code} {o o' : Option Code} (hc : c.Closed) (ho : ∀ d ∈ o, d.Closed)
    (ho' : ∀ d ∈ o', d.Closed) : (tryCode c o o').Closed := by
  have hend : Code.Closed (Code.op .tryEnd) := rfl
  have hcaught : (handlerCode o).Closed := by
    cases o with
    | none => exact Code.closed_nil
    | some d => exact (ho d rfl).append hend
  have hfinal : (finalizerCode o').Closed := by
    cases o' with
    | none => exact Code.closed_nil
    | some d => exact ((ho' d rfl).append hend).bypassed .jump
  have hhead (n n' : Nat) : Code.Closed [⟨.tryBegin, [.address (reachBehind o.isSome n),
      .address (reachBehind o'.isSome n')]⟩] := by
    cases o <;> cases o' <;> rfl
  rw [tryCode_eq]
  have hafter :=
    (Code.closed_branch .jump (r := .ahead (handlerCode o).size) Reach.noConfusion).append hcaught
  exact (hhead _ _).append (((hc.append hend).append hafter).append hfinal)

/-- A protected block with its handler and its finalizer. -/
theorem guarded_writes {m : Writing Unit} {c : Code} {f g g' : Option WriteReport}
    {handler : Option CatchClause} {finalizer : Option Block} {o o' : Option Code}
    (hm : Writes m c f) (hhandler : MadeFrom (CatchClause.write E) handler o g)
    (hfinalizer : MadeFrom (Block.write E) finalizer o' g') :
    Writes (do
      op .tryBegin
      let caught ← reserveIf handler.isSome
      let ended ← reserveIf finalizer.isSome
      m
      op .tryEnd
      let after ← jump .jump
      CatchClause.writeOption E caught handler
      patch after
      Block.writeFinalizer E ended finalizer) (tryCode c o o') (f.or (g.or g')) where
  closed := closed_tryCode hm.closed (fun _ h => hhandler.closed h) fun _ h => hfinalizer.closed h
  run w hw := by
    -- The code is followed as it grows: each step starts from the code written so far, with the
    -- slots that are open then.
    let head (r r' : Reach) : Instr Reach := ⟨.tryBegin, [.address r, .address r']⟩
    let opened := head (reachIf handler.isSome) (reachIf finalizer.isSome)
    let body (r : Reach) : Code := c ++ Code.op .tryEnd ++ Code.branch .jump r
    let r := reachBehind handler.isSome (body .exit).size
    have hbegin := tryBegin_run handler.isSome finalizer.isSome w
    have hbody := hm.run (w.grow [opened] none) (hw.grow _)
    have hend := (op_writes .tryEnd).run (w.grow ([opened] ++ c) f) (hw.grow _)
    have hjump := jump_run .jump (w.grow ([opened] ++ c ++ Code.op .tryEnd) f)
    have hcaught := handler_run (reachIf finalizer.isSome) (body .exit) hhandler hw (w.fault.or f)
    have hafter := patch_run hw ((w.fault.or f).or g)
      (head r (reachIf finalizer.isSome) :: (c ++ Code.op .tryEnd)) .jump [] [] (handlerCode o)
    have hfinal :=
      finalizer_run r (body (.ahead (handlerCode o).size) ++ handlerCode o) hfinalizer hw
        ((w.fault.or f).or g)
    -- The two slots are opened by one step, whose answer the rest takes as a pair.
    have hsplit : (do
        op .tryBegin
        let caught ← reserveIf handler.isSome
        let ended ← reserveIf finalizer.isSome
        m
        op .tryEnd
        let after ← jump .jump
        CatchClause.writeOption E caught handler
        patch after
        Block.writeFinalizer E ended finalizer) = (do
        let slots ← (do
          op .tryBegin
          let caught ← reserveIf handler.isSome
          let ended ← reserveIf finalizer.isSome
          return (caught, ended))
        m
        op .tryEnd
        let after ← jump .jump
        CatchClause.writeOption E slots.1 handler
        patch after
        Block.writeFinalizer E slots.2 finalizer) := by
      simp only [bind_assoc, pure_bind]
    rw [Writer.grow_grow, Option.none_or] at hbody
    rw [Writer.grow_grow, Option.or_none] at hend hjump
    rw [hsplit, bind_run hbegin, bind_run hbody, bind_run hend, bind_run hjump, Writer.length_grow]
    have hplace : w.out.length + Code.size ([opened] ++ c ++ Code.op .tryEnd) + 2 =
        w.out.length + Code.size (head r (reachIf finalizer.isSome) :: (c ++ Code.op .tryEnd)) +
          2 := rfl
    rw [hplace]
    -- What was written before and behind a patch, split where the slot lies.
    have hcode : body (.ahead (handlerCode o).size) ++ handlerCode o =
        c ++ Code.op .tryEnd ++
          (Code.branch .jump (.ahead (handlerCode o).size) ++ handlerCode o) := by
      simp only [body, List.append_assoc]
    have hopen : body .exit ++ handlerCode o =
        c ++ Code.op .tryEnd ++ (Code.branch .jump .exit ++ handlerCode o) := by
      simp only [body, List.append_assoc]
    rw [hopen] at hcaught
    rw [hcode] at hfinal
    rw [tryCode_eq, ← hhandler.isSome, ← hfinalizer.isSome]
    refine (bind_run hcaught).trans ((bind_run hafter).trans (hfinal.trans ?_))
    have hsize : Code.size (body .exit) = (c ++ Code.op .tryEnd).size + Code.jumpSize :=
      Code.size_append _ _
    rw [Option.or_assoc, Option.or_assoc, ← hsize]
    rfl

end

section

variable {E : WriteSite} {s : CodeSite}

/-- The handler of a `try`, whose slot is patched where it begins. -/
theorem CatchClause.made (hs : E.Agrees s) {handler : Option CatchClause}
    (hparam : ∀ h ∈ handler, ∀ p ∈ h.param, p.Written)
    (hbody : ∀ h ∈ handler, ∀ x ∈ h.body, x.Written) :
    ∃ o f, MadeFrom (CatchClause.write E) handler o f ∧
    LowersTo (CatchClause.lowerOption s handler) o f := by
  cases handler with
  | none => exact ⟨none, none, ⟨.none, fun _ => rfl⟩, .made none⟩
  | some h =>
    obtain ⟨span, param, body, scope⟩ := h
    have hparam : Emits (Pattern.lowerParam s param) (Pattern.writeParam E param) := by
      cases param with
      | none => exact .of_ok (op_writes .pop)
      | some p => exact (hparam _ rfl p rfl).write hs
    have hboth := hparam.append (Stmt.writeList_emits hs (hbody _ rfl))
    have hall := (Stmt.hoistedWriters_agree hs (hbody _ rfl)).scoped_emits scope hboth
    simp only [bind_assoc] at hall
    obtain ⟨c, f, hm, hl⟩ := hall
    exact ⟨some c, f, ⟨.some hm, nofun⟩, hl.map some⟩

/-- The finalizer of a `try`, in the same way. -/
theorem Block.made (hs : E.Agrees s) {finalizer : Option Block}
    (h : ∀ f ∈ finalizer, ∀ x ∈ f.body, x.Written) :
    ∃ o f, MadeFrom (Block.write E) finalizer o f ∧
    LowersTo (Block.lowerOption s finalizer) o f := by
  cases finalizer with
  | none => exact ⟨none, none, ⟨.none, fun _ => rfl⟩, .made none⟩
  | some b =>
    obtain ⟨c, f, hm, hl⟩ := Block.write_emits hs (h b rfl)
    exact ⟨some c, f, ⟨.some hm, nofun⟩, hl.map some⟩

end

/-! ## Modules -/

/-- An import leads nowhere. -/
theorem isStraight_importCode (source : StringLiteral) (attributes : List ImportAttribute) :
    (importCode source attributes).isStraight = true :=
  Code.isStraight_append (c := Code.text .importModule source.value) rfl
    (Code.isStraight_flatMap _ (fun _ => rfl) attributes)

/-- Nor does an export. -/
theorem isStraight_exportCode (specifiers : List ExportSpecifier) (source : Option StringLiteral)
    (attributes : List ImportAttribute) :
    (exportCode specifiers source attributes).isStraight = true := by
  cases source with
  | none => exact Code.isStraight_flatMap _ (fun _ => rfl) specifiers
  | some source =>
    have hnames := Code.isStraight_append (isStraight_importCode source attributes)
      (Code.isStraight_flatMap (fun s : ExportSpecifier => Code.pick 1 ++
        Code.string (nameText s.inner) ++
        Code.op .getField ++ Code.text .exportName (nameText s.exported)) (fun _ => rfl) specifiers)
    exact Code.isStraight_append hnames (d := Code.op .pop) rfl

/-- What an import brings in is stored as it comes; anything else is reported and
dropped. -/
theorem Node.writeSpecifiers_emits (specifiers : List Node) :
    Emits (Node.lowerSpecifiers specifiers) (Node.writeSpecifiers specifiers) := by
  induction specifiers with
  | nil => exact .nil
  | cons n rest ih =>
    obtain ⟨c, f, hm, hl⟩ := ih
    have hdrop (span : Span) : Writes (do
        pick 1
        report span .importSpecifier
        op .pop) (Code.pick 1 ++ Code.op .pop) (some ⟨span.offset, .importSpecifier⟩) :=
      (pick_writes 1).before ((report_writes span .importSpecifier).ending (op_writes .pop))
    cases n with
    | importSpecifier s =>
      have hstore : Writes (put s.lower) s.lower none := by
        refine put_writes ?_
        cases s <;> rfl
      exact ⟨_, f, hstore.before hm, hl.map _⟩
    | _ => exact ⟨_, _, (hdrop _).seq hm, .refuse_or _ .importSpecifier _ f⟩

/-! ## Statements -/

namespace Stmt.Written

variable {span : Span} {e : Expr} {stmt body : Stmt}

/-- A statement that declares no function. -/
theorem of_emits (hnone : ∀ E s, Hoisted.AllAgree (stmt.hoisted s) (stmt.hoistedWriter E))
    (h : ∀ ⦃E s⦄, WriteSite.Agrees E s →
      ∀ labels, Emits (stmt.lower s labels) (stmt.write E labels)) :
    stmt.Written where
  write := h
  hoisted E s _ := hnone E s

theorem expression (h : e.Written) : (Stmt.expression span e).Written := by
  refine of_emits (fun _ _ => .nil) fun E s hs labels => ?_
  obtain ⟨c, f, hm, hl⟩ := h.value hs
  refine ⟨_, f, ?_, hl.map _⟩
  rw [List.append_assoc]
  exact hm.ending ((op_writes .save).ending (op_writes .pop))

theorem block {list : List Stmt} {scope : Option Scope} (h : ∀ b ∈ list, b.Written) :
    (Stmt.block ⟨span, list, scope⟩).Written :=
  of_emits (fun _ _ => .nil) fun _ _ hs _ => Block.write_emits hs h

theorem giveBack {argument : Option Expr} (h : ∀ e ∈ argument, e.Written) :
    (Stmt.giveBack span argument).Written := by
  refine of_emits (fun _ _ => .nil) fun E s hs labels => ?_
  obtain ⟨c, f, hm, hl⟩ := Expr.writeOption_emits hs Use.value_ne_link h
  exact ⟨_, f, hm.ending (op_writes .giveBack), hl.map _⟩

theorem raise (h : e.Written) : (Stmt.raise span e).Written := by
  refine of_emits (fun _ _ => .nil) fun E s hs labels => ?_
  obtain ⟨c, f, hm, hl⟩ := h.value hs
  exact ⟨_, f, hm.ending (op_writes .raise), hl.map _⟩

theorem breakOff {label : Option Name} : (Stmt.breakOff span label).Written :=
  of_emits (fun _ _ => .nil) fun _ _ _ _ => .of_ok (text_writes .breakOff _)

theorem carryOn {label : Option Name} : (Stmt.carryOn span label).Written :=
  of_emits (fun _ _ => .nil) fun _ _ _ _ => .of_ok (text_writes .carryOn _)

/-- A label opens a frame of its own unless a loop or a switch takes it over. -/
theorem labelled {label : Option Name} (h : body.Written) :
    (Stmt.labelled span label body).Written := by
  refine of_emits (fun _ _ => .nil) fun E s hs labels => ?_
  change Emits (if body.takesLabels then _ else _) (if body.takesLabels then _ else _)
  split
  · exact h.write hs _
  · obtain ⟨c, f, hm, hl⟩ := h.write hs []
    exact ⟨_, f, hm.framed .pushBreakLabel _ false, hl.map _⟩

/-- A branch drops the value that decided, at both ends of the jump. -/
theorem branch {consequent : Stmt} {alternate : Option Stmt} (htest : e.Written)
    (hyes : consequent.Written) (hno : ∀ b ∈ alternate, b.Written) :
    (Stmt.branch span e consequent alternate).Written := by
  refine of_emits (fun _ _ => .nil) fun E s hs labels => ?_
  have halternate : Emits (Stmt.lowerOption s alternate) (Stmt.writeOption E alternate) := by
    cases alternate with
    | none => exact .nil
    | some b => exact (hno b rfl).write hs []
  obtain ⟨c, f, hm, hl⟩ := htest.value hs
  obtain ⟨d, g, hm', hl'⟩ := hyes.write hs []
  obtain ⟨d', g', hm'', hl''⟩ := halternate
  have hpop := op_writes .pop
  have hchoice := (hpop.before hm').either .jumpFalse (hpop.before hm'')
  have hall := hm.seq hchoice
  refine ⟨_, _, ?_, hl.bind (hl'.bind (hl''.map _))⟩
  rw [Code.choice, List.append_assoc]
  simp only [bind_assoc] at hall
  exact hall

/-- The test leads out of the loop and the end leads back to the test. -/
theorem whileLoop (htest : e.Written) (hbody : body.Written) :
    (Stmt.whileLoop span e body).Written := by
  refine of_emits (fun _ _ => .nil) fun E s hs labels => ?_
  obtain ⟨c, f, hm, hl⟩ := htest.value hs
  obtain ⟨d, g, hm', hl'⟩ := hbody.write hs []
  refine ⟨_, _, ?_, hl.bind (hl'.map _)⟩
  have hloop :=
    breakable_writes labels (repeated_writes .jumpFalse hm (writeTurn_writes labels hm'))
  simp only [bind_assoc] at hloop
  exact hloop

/-- The test stands behind the body, and `continue` leads to it. -/
theorem doWhile (hbody : body.Written) (htest : e.Written) :
    (Stmt.doWhile span body e).Written := by
  refine of_emits (fun _ _ => .nil) fun E s hs labels => ?_
  obtain ⟨c, f, hm, hl⟩ := htest.value hs
  obtain ⟨d, g, hm', hl'⟩ := hbody.write hs []
  refine ⟨_, _, ?_, hl'.bind (hl.map _)⟩
  have hturn := (writeTurn_writes labels hm').seq hm
  have hloop := breakable_writes labels (repeated_writes .jumpFalse hturn (.pure ()))
  simp only [bind_assoc, Option.or_none, pure_bind] at hloop
  exact hloop

/-- The writer asks whether there is a slot; there is one exactly if there is a
test. -/
private theorem tested_emits {E : WriteSite} {s : CodeSite} (hs : E.Agrees s) {test : Option Expr}
    (htest : ∀ e ∈ test, e.Written) {m : Writing Unit} {d : Code} {g : Option WriteReport}
    (hm : Writes m d g) :
    ∃ (o : Option Code) (f : Option WriteReport), LowersTo (Expr.lowerOption s .value test) o f ∧
      Writes (do
        let start ← here
        let exit ← Expr.writeTest E test
        m
        jumpTo .jump start
        when (exit ≥ 0) do
          patch exit
          op .pop) (forCode o d) (f.or g) := by
  cases test with
  | none =>
    refine ⟨none, none, .made none, ?_⟩
    have hloop := hm.forever.answering ()
    simp only [bind_assoc] at hloop
    exact hloop
  | some e =>
    obtain ⟨c, f, hm', hl⟩ := (htest e rfl).value hs
    refine ⟨some c, f, hl.map some, ?_⟩
    have hslot (start : Nat) : (do
        let exit ← jump .jumpFalse
        op .pop
        m
        jumpTo .jump start
        when (exit ≥ 0) do
          patch exit
          op .pop) = (do
        let exit ← jump .jumpFalse
        op .pop
        m
        jumpTo .jump start
        patch exit
        op .pop) :=
      jump_bind_congr .jumpFalse fun n => by rw [when, if_pos (by simp)]
    have hloop := repeated_writes .jumpFalse hm' hm
    simp only [← hslot] at hloop
    simp only [Expr.writeTest_some, bind_assoc, pure_bind]
    exact hloop

/-- A loop without a test has no slot to be patched at its end; the slot is then negative
and the patch left out. -/
theorem forLoop {init : Option Node} {test update : Option Expr} {scope : Option Scope}
    (hinit : ∀ n ∈ init, n.Written) (htest : ∀ e ∈ test, e.Written)
    (hupdate : ∀ e ∈ update, e.Written) (hbody : body.Written) :
    (Stmt.forLoop span init test update body scope).Written := by
  refine of_emits (fun _ _ => .nil) fun E s hs labels => ?_
  have hstart : Emits (Node.lowerStart s init) (Node.writeStart E init) := by
    cases init with
    | none => exact .nil
    | some n => exact (hinit n rfl).start hs
  have hafter := Expr.lowerOption_emits hs Use.value_ne_link (Expr.writeUpdate E)
    (F := fun c => (c.map (· ++ Code.op .pop)).getD []) hupdate
    (.pure ()) fun e c f hm => hm.ending (op_writes .pop)
  obtain ⟨a, fa, hinit, hla⟩ := hstart
  obtain ⟨c, f, hm, hl⟩ := hbody.write hs []
  obtain ⟨d, g, hm', hl'⟩ := hafter
  obtain ⟨o, fo, hlo, hloop⟩ := tested_emits hs htest ((writeTurn_writes labels hm).seq hm')
  have hlower : LowersTo (do
      let init ← Node.lowerStart s init
      let test ← Expr.lowerOption s .value test
      let body ← body.lower s []
      let update ← Expr.lowerOption s .value update
      return init ++ breakable labels
        (forCode test (turnCode labels body ++ (update.map (· ++ Code.op .pop)).getD []))) _ _ :=
    hla.bind (hlo.bind (hl.bind (hl'.map _)))
  have hall := Hoisted.AllAgree.scoped_emits scope .nil
    ⟨_, _, hinit.seq (breakable_writes labels hloop), hlower⟩
  simp only [bind_assoc] at hall
  exact hall

/-- One turn of a loop over what an iterator yields, in its scope. -/
private theorem turn_emits {E : WriteSite} {s : CodeSite} (hs : E.Agrees s) {left : Node}
    {scope : Option Scope} (hleft : left.Written) (hbody : body.Written) (labels : List String) :
    Emits (inScope scope [] do
      let target ← left.lowerBind s
      return target ++ turnCode labels (← body.lower s [])) (do
      let pushed ← enterScope scope []
      left.writeBind E
      writeTurn labels (body.write E [])
      leaveScope pushed) := by
  obtain ⟨c, f, hm, hl⟩ := hleft.bind hs
  obtain ⟨d, g, hm', hl'⟩ := hbody.write hs []
  have hlower : LowersTo (do
      let target ← left.lowerBind s
      return target ++ turnCode labels (← body.lower s [])) _ _ := hl.bind (hl'.map _)
  have hall := Hoisted.AllAgree.scoped_emits scope .nil
    ⟨_, _, hm.seq (writeTurn_writes labels hm'), hlower⟩
  simp only [bind_assoc] at hall
  exact hall

/-- A loop over the keys of an object. -/
theorem forIn {left : Node} {scope : Option Scope} (hleft : left.Written) (hright : e.Written)
    (hbody : body.Written) : (Stmt.forIn span left e body scope).Written := by
  refine of_emits (fun _ _ => .nil) fun E s hs labels => ?_
  obtain ⟨c, f, hm, hl⟩ := hright.value hs
  obtain ⟨d, g, hm', hl'⟩ := turn_emits hs hleft hbody labels
  have hloop := writeEachTurn_writes labels .next scope hm'
  refine ⟨_, _, ?_, hl.bind (hl'.map _)⟩
  simp only [List.append_assoc]
  exact hm.seq ((op_writes .keys).before ((op_writes .iterator).before hloop))

/-- A loop over the values of an iterator, awaited where it says so. -/
theorem forOf {left : Node} {await : Bool} {scope : Option Scope} (hleft : left.Written)
    (hright : e.Written) (hbody : body.Written) :
    (Stmt.forOf span left e body await scope).Written := by
  refine of_emits (fun _ _ => .nil) fun E s hs labels => ?_
  obtain ⟨c, f, hm, hl⟩ := hright.value hs
  obtain ⟨d, g, hm', hl'⟩ := turn_emits hs hleft hbody labels
  have hloop := writeEachTurn_writes labels (if await then .awaitNext else .next) scope hm'
  refine ⟨_, _, ?_, hl.bind (hl'.map _)⟩
  simp only [List.append_assoc]
  exact hm.seq ((op_writes (if await then .asyncIterator else .iterator)).before hloop)

/-- A switch: tests first, each with a slot for the clause it leads to, and the bodies
behind them, which patch those slots in the same order. -/
theorem switch {cases : List CaseClause} {scope : Option Scope} (hdiscriminant : e.Written)
    (htests : ∀ c ∈ cases, ∀ e ∈ c.test, e.Written)
    (hbodies : ∀ c ∈ cases, ∀ b ∈ c.consequent, b.Written)
    (hdefaults : (cases.filter fun c => c.test.isNone).length ≤ 1) :
    (Stmt.switch span e cases scope).Written := by
  refine of_emits (fun _ _ => .nil) fun E s hs labels => ?_
  obtain ⟨c, f, hm, hl⟩ := hdiscriminant.value hs
  obtain ⟨tests, g, hlt, htested⟩ := CaseClause.writeTests_written hs htests
  obtain ⟨bodies, h, hlb, hbodied⟩ := CaseClause.writeBodies_written fun c hc =>
    Stmt.writeList_emits hs (hbodies c hc)
  -- The writer keeps one slot for the default, and the parser refuses a second one.
  have hone : tests.countP Option.isNone ≤ 1 := by
    have hcount : tests.countP Option.isNone = cases.countP (·.test.isNone) := by
      have hsame := congrArg (List.countP id) htested.defaults
      rw [List.countP_map, List.countP_map] at hsame
      exact hsame
    rw [hcount, List.countP_eq_length_filter]
    exact hdefaults
  have hlength : bodies.length = tests.length := by
    have hsame := congrArg List.length htested.defaults
    rw [List.length_map, List.length_map] at hsame
    exact hbodied.length.trans hsame.symm
  have hclauses := hm.seq ((clauses_writes htested hbodied hone).ending (op_writes .pop))
  have hcode := LowersTo.made (c ++ (clausesCode tests bodies ++ Code.op .pop))
  rw [← switchCode_ok c hlength hone] at hcode
  have hlower : LowersTo (do
      let discriminant ← e.lower s .value
      let tests ← CaseClause.lowerTests s cases
      let bodies ← CaseClause.lowerBodies s cases
      return breakable labels (← switchCode discriminant tests bodies)) _ _ :=
    hl.bind (hlt.bind (hlb.bind (hcode.map (breakable labels))))
  rw [Option.or_none] at hlower
  have hall := Hoisted.AllAgree.scoped_emits scope (CaseClause.hoistedWriters_agree hs hbodies)
    ⟨_, _, breakable_writes labels hclauses, hlower⟩
  simp only [bind_assoc] at hall
  exact hall

/-- A `try` with a handler, a finalizer or both. -/
theorem guarded {b : Block} {handler : Option CatchClause} {finalizer : Option Block}
    (hb : ∀ x ∈ b.body, x.Written) (hparam : ∀ h ∈ handler, ∀ p ∈ h.param, p.Written)
    (hhandler : ∀ h ∈ handler, ∀ x ∈ h.body, x.Written)
    (hfinalizer : ∀ f ∈ finalizer, ∀ x ∈ f.body, x.Written) :
    (Stmt.guarded span b handler finalizer).Written := by
  refine of_emits (fun _ _ => .nil) fun E s hs labels => ?_
  obtain ⟨c, f, hm, hl⟩ := Block.write_emits hs hb
  obtain ⟨o, g, hcaught, hlo⟩ := CatchClause.made hs hparam hhandler
  obtain ⟨o', g', hended, hlo'⟩ := Block.made hs hfinalizer
  exact ⟨_, _, guarded_writes hm hcaught hended, hl.bind (hlo.bind (hlo'.map _))⟩

theorem declaration {d : VarDecl} (h : d.Written) : (Stmt.declaration d).Written :=
  of_emits (fun _ _ => .nil) fun _ _ hs _ => h.write hs

theorem function {f : Function} (h : f.Written) : (Stmt.function span f).Written where
  write _ _ _ _ := .nil
  hoisted _ _ hs := .cons ⟨rfl, rfl, h.write hs .value⟩ .nil

theorem classDecl {c : Class} (h : c.Written) : (Stmt.classDecl span c).Written := by
  refine of_emits (fun _ _ => .nil) fun E s hs labels => ?_
  obtain ⟨d, f, hm, hl⟩ := h hs .value
  refine ⟨_, f, ?_, hl.map _⟩
  rw [List.append_assoc]
  exact hm.ending ((text_writes .store (nameText c.name)).ending (op_writes .pop))

/-- A declaration that is exported is written as it is without that. -/
theorem exportNamed {declared : Stmt} {specifiers : List ExportSpecifier}
    {source : Option StringLiteral} {attributes : List ImportAttribute} (h : declared.Written) :
    (Stmt.exportNamed span (some declared) specifiers source attributes).Written where
  write E s hs labels := by
    obtain ⟨c, f, hm, hl⟩ := h.write hs []
    exact ⟨_, f,
      hm.ending (put_writes (Code.isStraight_flatMap _ (fun _ => rfl) declared.declaredNames)),
      hl.map _⟩
  hoisted _ _ hs := h.hoisted hs

/-- The default of a module is its value, which is then exported. -/
theorem exportDefault {declared : Node} (h : declared.Written) :
    (Stmt.exportDefault span declared).Written where
  write E s hs labels := by
    have hname := text_writes .exportName "default"
    cases h.default hs span with
    | value c f hm hl => exact ⟨_, f, hm.bind_ending hname, hl.map _⟩
    | refused c g hm hl => exact ⟨_, _, hm.bind (.pure ()), .bind_refused hl _⟩
  hoisted _ _ hs := h.hoisted hs span

/-- A statement that has no other in it is written by one law for all. -/
theorem atom (h : stmt.isAtom = true) : stmt.Written := by
  cases stmt with
  | empty span => exact of_emits (fun _ _ => .nil) fun _ _ _ _ => .nil
  | debugger span => exact of_emits (fun _ _ => .nil) fun _ _ _ _ => .of_ok (op_writes .breakpoint)
  | importDecl span specifiers source attributes =>
    refine of_emits (fun _ _ => .nil) fun E s hs labels => ?_
    obtain ⟨c, f, hm, hl⟩ := Node.writeSpecifiers_emits specifiers
    refine ⟨_, f, ?_, hl.map _⟩
    rw [List.append_assoc]
    exact (put_writes (isStraight_importCode source attributes)).before (hm.ending (op_writes .pop))
  | exportNamed span declared specifiers source attributes =>
    cases declared with
    | some d => cases h
    | none =>
      exact of_emits (fun _ _ => .nil) fun _ _ _ _ =>
        .of_ok (put_writes (isStraight_exportCode specifiers source attributes))
  | exportAll span exported source attributes =>
    refine of_emits (fun _ _ => .nil) fun E s hs labels => .of_ok ?_
    have himport := put_writes (isStraight_importCode source attributes)
    cases exported with
    | some n => exact himport.ending (text_writes .exportName n.text)
    | none => exact himport.ending (op_writes .exportAll)
  | _ => cases h

end Stmt.Written

end EcmaStack

import EcmaStack.Proofs.Emission.Statements
import EcmaStack.Proofs.Tree.Resolved

/-!
# Every resolved tree is written as it is lowered

The laws of the single forms are put together by induction on how a tree is
resolved. Of that only the clauses of a switch matter here: with a second clause
without a test a slot would be patched that was never reserved. -/

namespace EcmaStack

open Writing

/-! ## Bodies and blocks -/

theorem Body.Written.missing : Body.missing.Written where
  write _ _ _ := .of_ok (op_writes .pushUndefined)
  hoisted _ _ _ := .nil

/-- A body is its directives and its statements, with the functions among them made first. -/
theorem Body.Written.block {span : Span} {directives : List Directive} {items : List Stmt}
    (h : ∀ b ∈ items, b.Written) : (Body.block span directives items).Written where
  write E s hs := by
    obtain ⟨c, f, hm, hl⟩ := Stmt.writeList_emits hs h
    have hdirectives :
        Writes (put (directives.flatMap Directive.lower)) (directives.flatMap Directive.lower)
        none :=
      put_writes (Code.isStraight_flatMap _ (fun _ => rfl) directives)
    refine ⟨_, f, ?_, hl.map _⟩
    rw [List.append_assoc]
    exact hdirectives.before (hm.ending (op_writes .pushUndefined))
  hoisted _ _ hs := Stmt.hoistedWriters_agree hs h

/-- A declaration is written from what is declared and from the values it starts with. -/
theorem VarDecl.Written.of_parts {span : Span} {kind : DeclKind} {list : List Declarator}
    (htargets : ∀ d ∈ list, d.target.Written) (hinitializers : ∀ d ∈ list, ∀ e ∈ d.initializer,
      e.Written) :
    VarDecl.Written ⟨span, kind, list⟩ where
  write _ _ hs := Declarator.writeList_emits hs kind htargets hinitializers
  targets := htargets

/-- A static block is statements in a scope of its own. -/
theorem ClassElement.Written.staticBlock {span : Span} {body : List Stmt} {env : Env}
    (h : ∀ b ∈ body, b.Written) : (ClassElement.staticBlock span body env).Written where
  write _ _ hs := Stmt.writeScoped_emits hs env.scope h
  construct _ _ _ _ _ _ _ hrest := hrest

/-! ## Heads of loops and defaults of modules -/

namespace Node.Written

variable {E : WriteSite} {s : CodeSite}

/-- What cannot stand at the head of a loop. -/
private theorem bind_refused (span : Span) : Emits (refuse span .loopHead) (do
    report span .loopHead
    op .pop) :=
  .refuse span .loopHead (op_writes .pop)

/-- What has no value to be the default of a module. -/
private theorem default_refused (span : Span) : EmitsDefault (refuse span .exportDefault) (do
    report span .exportDefault
    return false) :=
  .refused [] _ ((report_writes span .exportDefault).answering false) rfl

/-- An expression may start a loop, be what a loop binds, or be what a module exports. -/
theorem expr {e : Expr} (h : e.Written) : (Node.expr e).Written where
  start _ _ hs := by
    obtain ⟨c, f, hm, hl⟩ := h.value hs
    exact ⟨_, f, hm.ending (op_writes .pop), hl.map _⟩
  bind E s hs := by
    cases e with
    | identifier n => exact .of_ok ((text_writes .store n.text).ending (op_writes .pop))
    | member span base property computed optional =>
      have href := h.reference hs .destructuringTarget
      change EmitsReference (if optional || base.isOptionalChain then _ else _)
        (if optional || base.isOptionalChain then _ else _) at href
      change Emits (if optional || base.isOptionalChain then _ else _)
        (if optional || base.isOptionalChain then _ else _)
      split at href
      · next hchain =>
        rw [if_pos hchain, if_pos hchain]
        exact .refuse span .destructuringTarget (op_writes .pop)
      · next hchain =>
        rw [if_neg hchain, if_neg hchain]
        exact href.using (fun r => r.code ++ r.target.bind) (op .pop) (fun _ => rfl)
          Target.bind_writes ⟨_, _, op_writes .pop⟩
    | _ => exact bind_refused _
  default _ _ hs span := by
    have hvalue : Emits (e.lower _ (.named "default")) (e.write _ "default") :=
      h.write hs _ Use.noConfusion
    obtain ⟨c, f, hm, hl⟩ := hvalue
    cases e with
    | missing => exact default_refused span
    | _ => exact .value c f (hm.answering true) hl
  hoisted _ _ _ _ := .nil

theorem pattern {p : Pattern} (h : p.Written) : (Node.pattern p).Written where
  start _ _ _ := .nil
  bind _ _ hs := h.write hs
  default _ _ _ span := default_refused span
  hoisted _ _ _ _ := .nil

/-- A declaration with exactly one target may be what a loop binds. -/
theorem declaration {d : VarDecl} (h : d.Written) : (Node.stmt (.declaration d)).Written where
  start _ _ hs := h.write hs
  bind _ _ hs := by
    obtain ⟨span, kind, list⟩ := d
    match list with
    | [] => exact bind_refused _
    | [⟨_, target, _⟩] => exact (h.targets _ List.mem_cons_self).write hs
    | ⟨_, _, _⟩ :: _ :: _ => exact bind_refused _
  default _ _ _ span := default_refused span
  hoisted _ _ _ _ := .nil

/-- A function that is exported as the default has the name `default` if it has none of
its own. -/
theorem function {span : Span} {f : Function} (h : f.Written) :
    (Node.stmt (.function span f)).Written where
  start _ _ _ := .nil
  bind _ _ _ := bind_refused _
  default E s hs _ := by
    have hvalue := h.write hs (.named "default")
    rw [Node.lowerDefault_function, Node.writeDefault_function]
    cases f.name with
    | some n => exact .value _ _ ((text_writes .load n.text).answering true) (.made _)
    | none =>
      obtain ⟨c, f, hm, hl⟩ := hvalue
      exact .value c f (hm.answering true) hl
  hoisted _ _ hs _ := (Stmt.Written.function h).hoisted hs

/-- So has a class. -/
theorem classDecl {span : Span} {c : Class} (h : c.Written) :
    (Node.stmt (.classDecl span c)).Written where
  start _ _ _ := .nil
  bind _ _ _ := bind_refused _
  default E s hs _ := by
    rw [Node.lowerDefault_classDecl, Node.writeDefault_classDecl]
    cases c.name with
    | some n =>
      obtain ⟨d, f, hm, hl⟩ := h hs .value
      have hload := (text_writes .load n.text).answering true
      have hstore := (text_writes .store n.text).before ((op_writes .pop).before hload)
      refine .value _ f (hm.ending hstore) ?_
      have hall := hl.map (· ++ Code.text .store n.text ++ Code.op .pop ++ Code.text .load n.text)
      simp only [List.append_assoc] at hall ⊢
      exact hall
    | none =>
      obtain ⟨d, f, hm, hl⟩ := h hs (.named "default")
      exact .value d f (hm.answering true) hl
  hoisted _ _ _ _ := .nil

end Node.Written

/-! ## Trees -/

mutual

/-- Every resolved expression is written as it is lowered. The induction is on how it was
resolved, with one law for each construct. -/
theorem Expr.Resolved.written {e : Expr} : e.Resolved → e.Written
  | .atom h => .atom h
  | .template h => .template fun e he => (h e he).written
  | .tagged htag h => .tagged htag.written fun e he => (h e he).written
  | .array h => .array fun e he => (h e he).written
  | .object h => .object fun p hp => (h p hp).written
  | .spread h => .spread h.written
  | .paren h => .paren h.written
  | .call hcallee h => .call hcallee.written fun e he => (h e he).written
  | .construct hcallee h => .construct hcallee.written fun e he => (h e he).written
  | .member hbase hproperty => .member hbase.written hproperty.written
  | .importCall hsource h => .importCall hsource.written fun e he => (h e he).written
  | .unary h => .unary h.written
  | .await h => .await h.written
  | .update h => .update h.written
  | .binary hleft hright => .binary hleft.written hright.written
  | .conditional htest hyes hno => .conditional htest.written hyes.written hno.written
  | .assign htarget hvalue => .assign htarget.written hvalue.written
  | .yield h => .yield fun e he => (h e he).written
  | .function h => .function h.written
  | .arrow hparams hbody h => .arrow hparams.written hbody.written fun e he => (h e he).written
  | .classExpr h => .classExpr h.written

theorem Property.Resolved.written {p : Property} : p.Resolved → p.Written
  | .keyed hkey hvalue => .keyed hkey.written hvalue.written
  | .short => .short
  | .spread h => .spread h.written

theorem Pattern.Resolved.written {p : Pattern} : p.Resolved → p.Written
  | .target h => .target h.written
  | .array helements hrest =>
    .array (fun e he => (helements e he).written) fun p hp => (hrest p hp).written
  | .object hproperties hrest =>
    .object (fun p hp => (hproperties p hp).written) fun p hp => (hrest p hp).written

theorem Element.Resolved.written {e : Element} : e.Resolved → e.Written
  | .hole => .hole
  | .bound htarget h => .bound htarget.written fun e he => (h e he).written

theorem PatternProperty.Resolved.written {p : PatternProperty} : p.Resolved → p.Written
  | .mk hkey hvalue h => .mk hkey.written hvalue.written fun e he => (h e he).written

theorem Params.Resolved.written {p : Params} : p.Resolved → p.Written
  | .list hitems hrest => .list (fun e he => (hitems e he).written) fun p hp => (hrest p hp).written

theorem Body.Resolved.written {b : Body} : b.Resolved → b.Written
  | .missing => .missing
  | .block h => .block fun x hx => (h x hx).written

theorem Function.Resolved.written {f : Function} : f.Resolved → f.Written
  | .mk hparams hbody => .of_parts hparams.written hbody.written

theorem Class.Resolved.written {c : Class} : c.Resolved → c.Written
  | .mk hsuper hbody hdecorators =>
    .of_parts (fun e he => (hsuper e he).written) (fun e he => (hbody e he).written)
      fun d hd => (hdecorators d hd).written

theorem ClassElement.Resolved.written {e : ClassElement} : e.Resolved → e.Written
  | .method hkey hfunction hdecorators =>
    .method hkey.written (fun f hf => (hfunction f hf).written) fun d hd =>
      (hdecorators d hd).written
  | .field hkey hinitializer hdecorators =>
    .field hkey.written (fun e he => (hinitializer e he).written) fun d hd =>
      (hdecorators d hd).written
  | .staticBlock h => .staticBlock fun x hx => (h x hx).written

theorem VarDecl.Resolved.written {d : VarDecl} : d.Resolved → d.Written
  | .mk htargets hinitializers =>
    .of_parts (fun x hx => (htargets x hx).written) fun x hx e he =>
      (hinitializers x hx e he).written

/-- Every resolved statement is written as it is lowered, by the same induction. -/
theorem Stmt.Resolved.written {exits : Exits} {stmt : Stmt} : stmt.Resolved exits → stmt.Written
  | .atom h => .atom h
  | .expression h => .expression h.written
  | .block h => .block fun x hx => (h x hx).written
  | .giveBack h => .giveBack fun e he => (h e he).written
  | .labelled _ _ hbody => .labelled hbody.written
  | .breakOff _ => .breakOff
  | .carryOn _ => .carryOn
  | .branch htest hyes hno => .branch htest.written hyes.written fun b hb => (hno b hb).written
  | .switch hdiscriminant htests hbodies hdefaults =>
    .switch hdiscriminant.written (fun c hc e he => (htests c hc e he).written)
      (fun c hc b hb => (hbodies c hc b hb).written) hdefaults
  | .raise h => .raise h.written
  | .guarded hblock hparam hhandler hfinalizer =>
    .guarded (fun x hx => (hblock x hx).written) (fun h hh p hp => (hparam h hh p hp).written)
      (fun h hh x hx => (hhandler h hh x hx).written) fun f hf x hx =>
        (hfinalizer f hf x hx).written
  | .whileLoop htest hbody => .whileLoop htest.written hbody.written
  | .doWhile hbody htest => .doWhile hbody.written htest.written
  | .forLoop hinit htest hupdate hbody =>
    .forLoop (fun n hn => (hinit n hn).written) (fun e he => (htest e he).written)
      (fun e he => (hupdate e he).written) hbody.written
  | .forIn hleft hright hbody => .forIn hleft.written hright.written hbody.written
  | .forOf hleft hright hbody => .forOf hleft.written hright.written hbody.written
  | .declaration h => .declaration h.written
  | .function h => .function h.written
  | .classDecl h => .classDecl h.written
  | .exportNamed h => .exportNamed h.written
  | .exportDefault h => .exportDefault h.written

theorem Node.Resolved.written {n : Node} : n.Resolved → n.Written
  | .declaration h => .declaration h.written
  | .function h => .function h.written
  | .classDecl h => .classDecl h.written
  | .expr h => .expr h.written
  | .pattern h => .pattern h.written

end

end EcmaStack

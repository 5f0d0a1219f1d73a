import EcmaStack.Lowering.Program
import EcmaStack.Proofs.Likeness.Statements
import EcmaStack.Proofs.Tree.Grammatical

/-!
# Grammatical trees at like sites

Every grammatical tree gives like code at like sites, by induction on how it is grammatical. The
sites have to agree on what initializes instances only where the tree may call the superclass's
constructor.
-/

namespace EcmaStack

open Code

variable {L : Likeness} {calls : Bool}

mutual

theorem Expr.Grammatical.alike {calls : Bool} {e : Expr} : e.Grammatical calls → e.Alike L calls
  | .atom h => .atom h
  | .template h => .template fun e he => (h e he).alike
  | .tagged htag h => .tagged htag.alike fun e he => (h e he).alike
  | .array h => .array fun e he => (h e he).alike
  | .object h => .object fun p hp => (h p hp).alike
  | .spread h => .spread h.alike
  | .paren h => .paren h.alike
  | .call hsuper hcallee h => .call hsuper hcallee.alike fun e he => (h e he).alike
  | .construct hcallee h => .construct hcallee.alike fun e he => (h e he).alike
  | .member hbase hproperty => .member hbase.alike hproperty.alike
  | .importCall hsource h => .importCall hsource.alike fun e he => (h e he).alike
  | .unary h => .unary h.alike
  | .await h => .await h.alike
  | .update h => .update h.alike
  | .binary hleft hright => .binary hleft.alike hright.alike
  | .conditional htest hyes hno => .conditional htest.alike hyes.alike hno.alike
  | .assign htarget hvalue => .assign htarget.alike hvalue.alike
  | .yield h => .yield fun e he => (h e he).alike
  | .function _ h => .function h.alike
  | .arrow _ hparams hbody h => .arrow hparams.alike hbody.alike fun e he => (h e he).alike
  | .classExpr h => .classExpr h.alike

theorem Property.Grammatical.alike {calls : Bool} {p : Property} :
    p.Grammatical calls → p.Alike L calls
  | .keyed hkey hvalue => .keyed hkey.alike hvalue.alike
  | .short => .short
  | .spread h => .spread h.alike

theorem Pattern.Grammatical.alike {calls : Bool} {p : Pattern} :
    p.Grammatical calls → p.Alike L calls
  | .target h => .target h.alike
  | .array helements hrest =>
    .array (fun e he => (helements e he).alike) fun p hp => (hrest p hp).alike
  | .object hproperties hrest =>
    .object (fun p hp => (hproperties p hp).alike) fun p hp => (hrest p hp).alike

theorem Element.Grammatical.alike {calls : Bool} {e : Element} :
    e.Grammatical calls → e.Alike L calls
  | .hole => .hole
  | .bound htarget h => .bound htarget.alike fun e he => (h e he).alike

theorem PatternProperty.Grammatical.alike {calls : Bool} {p : PatternProperty} :
    p.Grammatical calls → p.Alike L calls
  | .mk hkey hvalue h => .mk hkey.alike hvalue.alike fun e he => (h e he).alike

theorem Params.Grammatical.alike {calls : Bool} {p : Params} : p.Grammatical calls → p.Alike L calls
  | .list hitems hrest => .list (fun e he => (hitems e he).alike) fun p hp => (hrest p hp).alike

theorem Body.Grammatical.alike {calls : Bool} {chain : List Scope} {b : Body} :
    b.Grammatical calls chain → b.Alike L calls
  | .missing => .missing
  | .block h => .block fun x hx => (h x hx).alike

theorem Function.Grammatical.alike {own : Bool} {f : Function} : f.Grammatical own → f.Alike L own
  | .mk _ hparams hbody => .of_parts hparams.alike hbody.alike

theorem Class.Grammatical.alike {calls : Bool} {c : Class} : c.Grammatical calls → c.Alike L calls
  | .mk _ _ hsuper hbody hdecorators =>
    .of_parts (fun e he => (hsuper e he).alike) (fun e he => (hbody e he).alike) fun d hd =>
      (hdecorators d hd).alike

theorem ClassElement.Grammatical.alike {derived : Bool} {e : ClassElement} :
    e.Grammatical derived → e.Alike L
  | .method _ hkey hfunction hdecorators =>
    .method hkey.alike (fun f hf => (hfunction f hf).alike) fun d hd => (hdecorators d hd).alike
  | .field hkey hinitializer hdecorators =>
    .field hkey.alike (fun e he => (hinitializer e he).alike) fun d hd => (hdecorators d hd).alike
  | .staticBlock _ _ h => .staticBlock fun x hx => (h x hx).alike

theorem Block.Grammatical.alike {calls : Bool} {exits : Exits} {chain : List Scope} {b : Block} :
    b.Grammatical calls exits chain → ∀ x ∈ b.body, x.Alike L calls
  | .mk _ h => fun x hx => (h x hx).alike

theorem VarDecl.Grammatical.alike {calls : Bool} {chain : List Scope} {d : VarDecl} :
    d.Grammatical calls chain → d.Alike L calls
  | .mk _ htargets hinitializers =>
    ⟨fun x hx => (htargets x hx).alike, fun x hx e he => (hinitializers x hx e he).alike⟩

theorem CatchClause.Grammatical.alike {calls : Bool} {exits : Exits} {chain : List Scope}
    {c : CatchClause} :
    c.Grammatical calls exits chain → (∀ p ∈ c.param, p.Alike L calls) ∧
    ∀ b ∈ c.body, b.Alike L calls
  | .mk _ _ hparam hbody => ⟨fun p hp => (hparam p hp).alike, fun b hb => (hbody b hb).alike⟩

theorem Stmt.Grammatical.alike {calls : Bool} {exits : Exits} {chain : List Scope} {stmt : Stmt} :
    stmt.Grammatical calls exits chain → stmt.Alike L calls
  | .empty => .empty
  | .debugger => .debugger
  | .importDecl _ => .importDecl
  | .exportNames => .exportNames
  | .exportAll => .exportAll
  | .expression h => .expression h.alike
  | .block h => .block h.alike
  | .giveBack h => .giveBack fun e he => (h e he).alike
  | .labelled _ _ hbody => .labelled hbody.alike
  | .breakOff _ => .breakOff
  | .carryOn _ => .carryOn
  | .branch htest hyes hno => .branch htest.alike hyes.alike fun b hb => (hno b hb).alike
  | .switch _ hdiscriminant htests hbodies _ =>
    .switch hdiscriminant.alike (fun c hc e he => (htests c hc e he).alike) fun c hc b hb =>
      (hbodies c hc b hb).alike
  | .raise h => .raise h.alike
  | .guarded hmain hhandler hfinalizer =>
    .guarded hmain.alike (fun h hh => (hhandler h hh).alike.1) (fun h hh => (hhandler h hh).alike.2)
      fun f hf => (hfinalizer f hf).alike
  | .whileLoop htest hbody => .whileLoop htest.alike hbody.alike
  | .doWhile hbody htest => .doWhile hbody.alike htest.alike
  | .forLoop _ hinit htest hupdate hbody =>
    .forLoop (fun n hn => (hinit n hn).alike) (fun e he => (htest e he).alike)
      (fun e he => (hupdate e he).alike) hbody.alike
  | .forIn _ hleft hright hbody => .forIn hleft.alike hright.alike hbody.alike
  | .forOf _ hleft hright hbody => .forOf hleft.alike hright.alike hbody.alike
  | .declaration h => .declaration h.alike
  | .function h => .function h.alike
  | .classDecl h => .classDecl h.alike
  | .exportNamed h => .exportNamed h.alike
  | .exportDefault h => .exportDefault h.alike

theorem Node.Grammatical.alike {calls : Bool} {chain : List Scope} {n : Node} :
    n.Grammatical calls chain → n.Alike L calls
  | .declaration h => .declaration h.alike
  | .function h => .function h.alike
  | .classDecl h => .classDecl h.alike
  | .expr h => .expr h.alike
  | .pattern h => .pattern h.alike

end

/-- A program gives like code at like sites. -/
theorem Program.Grammatical.paired {p : Program} {s s' : CodeSite} (h : p.Grammatical)
    (hs : s.Alike L false s') :
    Paired L.rel (p.lower s) (p.lower s') := by
  cases h with
  | @mk _ _ directives _ _ _ _ h =>
    have hdirectives :
        L.rel (directives.flatMap Directive.lower) (directives.flatMap Directive.lower) :=
      L.flatMap fun _ _ => L.plain rfl
    have hbody := fun b hb => (h b hb).alike (L := L)
    refine (openScope_paired _ (Stmt.hoistedList_alike hs hbody)).bind fun _ _ hopening => ?_
    refine (Stmt.lowerList_paired hs hbody).bind fun _ _ hc => .ok ?_
    exact L.append (L.append (L.append (L.append hopening hdirectives) hc) (L.plain rfl))
      (L.plain rfl)

end EcmaStack

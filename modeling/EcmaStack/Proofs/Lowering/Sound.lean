import EcmaStack.Lowering.Program
import EcmaStack.Proofs.Lowering.Statements

/-!
# Every resolved tree has sound code

The laws of the single forms are put together by induction on how a tree is resolved.
-/

namespace EcmaStack

open Code

namespace Node.Sound

theorem expr {e : Expr} (h : e.Sound) : (Node.expr e).Sound where
  start s hs := (h.value hs).bind fun c hc => .ok (hc.append (pop_moves 0))
  bind s hs := by
    cases e with
    | identifier n => exact .ok (moves_of_height? rfl)
    | member span base property computed optional =>
      have href := h.reference s hs .destructuringTarget
      change Lowers _ (if optional || base.isOptionalChain then _ else _) at href ⊢
      split at href
      · next hchain =>
        rw [if_pos hchain]
        exact .refuse span _
      · next hchain =>
        rw [if_neg hchain]
        exact href.bind fun r hr => .ok hr.bind
    | _ => exact .refuse _ _
  default s hs span := by
    have hvalue : Lowers (Moves · 0 1) (e.lower s (.named "default")) := h.named hs Use.noConfusion
    cases e with
    | missing => exact .refuse span _
    | _ => exact hvalue
  hoisted _ _ _ := .nil

theorem pattern {p : Pattern} (h : p.Sound) : (Node.pattern p).Sound where
  start _ _ := .ok .nil
  bind s hs := h.lower s hs
  default _ _ span := .refuse span _
  hoisted _ _ _ := .nil

theorem declaration {d : VarDecl} (h : d.Sound) : (Node.stmt (.declaration d)).Sound where
  start s hs := h.lower hs
  bind s hs := by
    obtain ⟨span, kind, list⟩ := d
    match list with
    | [] => exact .refuse _ _
    | [⟨_, target, _⟩] => exact (h.targets _ List.mem_cons_self).lower s hs
    | ⟨_, _, _⟩ :: _ :: _ => exact .refuse _ _
  default _ _ span := .refuse span _
  hoisted _ _ _ := .nil

theorem function {span : Span} {f : Function} (h : f.Sound) :
    (Node.stmt (.function span f)).Sound where
  start _ _ := .ok .nil
  bind _ _ := .refuse _ _
  default s hs _ := by
    rw [Node.lowerDefault_function]
    split
    · exact .ok (load_moves _)
    · exact h.lower s hs _
  hoisted s hs _ := by
    have hstmt : (Stmt.function span f).Sound .none := .function h
    exact hstmt.hoisted s hs

theorem classDecl {span : Span} {c : Class} (h : c.Sound) :
    (Node.stmt (.classDecl span c)).Sound where
  start _ _ := .ok .nil
  bind _ _ := .refuse _ _
  default s hs _ := by
    rw [Node.lowerDefault_classDecl]
    split
    · next n _ =>
      have hstore : Moves (text .store n.text ++ op .pop ++ text .load n.text) 1 1 :=
        moves_of_height? rfl
      refine (h s hs .value).bind fun d hd => .ok ?_
      have h' := hd.append hstore
      simpa only [List.append_assoc] using h'
    · exact h s hs _
  hoisted _ _ _ := .nil

end Node.Sound

mutual

theorem Expr.Resolved.sound {e : Expr} : e.Resolved → e.Sound
  | .atom h => .atom h
  | .template h => .template fun e he => (h e he).sound
  | .tagged htag h => .tagged htag.sound fun e he => (h e he).sound
  | .array h => .array fun e he => (h e he).sound
  | .object h => .object fun p hp => (h p hp).sound
  | .spread h => .spread h.sound
  | .paren h => .paren h.sound
  | .call hcallee h => .call hcallee.sound fun e he => (h e he).sound
  | .construct hcallee h => .construct hcallee.sound fun e he => (h e he).sound
  | .member hbase hproperty => .member hbase.sound hproperty.sound
  | .importCall hsource h => .importCall hsource.sound fun e he => (h e he).sound
  | .unary h => .unary h.sound
  | .await h => .await h.sound
  | .update h => .update h.sound
  | .binary hleft hright => .binary hleft.sound hright.sound
  | .conditional htest hyes hno => .conditional htest.sound hyes.sound hno.sound
  | .assign htarget hvalue => .assign htarget.sound hvalue.sound
  | .yield h => .yield fun e he => (h e he).sound
  | .function h => .function h.sound
  | .arrow hparams hbody h => .arrow hparams.sound hbody.sound fun e he => (h e he).sound
  | .classExpr h => .classExpr h.sound

theorem Property.Resolved.sound {p : Property} : p.Resolved → p.Sound
  | .keyed hkey hvalue => .keyed hkey.sound hvalue.sound
  | .short => .short
  | .spread h => .spread h.sound

theorem Pattern.Resolved.sound {p : Pattern} : p.Resolved → p.Sound
  | .target h => .target h.sound
  | .array helements hrest =>
    .array (fun e he => (helements e he).sound) fun p hp => (hrest p hp).sound
  | .object hproperties hrest =>
    .object (fun p hp => (hproperties p hp).sound) fun p hp => (hrest p hp).sound

theorem Element.Resolved.sound {e : Element} : e.Resolved → e.Sound
  | .hole => .hole
  | .bound htarget h => .bound htarget.sound fun e he => (h e he).sound

theorem PatternProperty.Resolved.sound {p : PatternProperty} : p.Resolved → p.Sound
  | .mk hkey hvalue h => .mk hkey.sound hvalue.sound fun e he => (h e he).sound

theorem Params.Resolved.sound {p : Params} : p.Resolved → p.Sound
  | .list hitems hrest => .list (fun e he => (hitems e he).sound) fun p hp => (hrest p hp).sound

theorem Body.Resolved.sound {b : Body} : b.Resolved → b.Sound
  | .missing => .missing
  | .block h => .block fun x hx => (h x hx).sound

theorem Function.Resolved.sound {f : Function} : f.Resolved → f.Sound
  | .mk hparams hbody => .of_parts hparams.sound hbody.sound

theorem Class.Resolved.sound {c : Class} : c.Resolved → c.Sound
  | .mk hsuper hbody hdecorators =>
    .of_parts (fun e he => (hsuper e he).sound) (fun e he => (hbody e he).sound) fun d hd =>
      (hdecorators d hd).sound

theorem ClassElement.Resolved.sound {e : ClassElement} : e.Resolved → e.Sound
  | .method hkey hfunction hdecorators =>
    .method hkey.sound (fun f hf => (hfunction f hf).sound) fun d hd => (hdecorators d hd).sound
  | .field hkey hinitializer hdecorators =>
    .field hkey.sound (fun e he => (hinitializer e he).sound) fun d hd => (hdecorators d hd).sound
  | .staticBlock h => .staticBlock fun x hx => (h x hx).sound

theorem VarDecl.Resolved.sound {d : VarDecl} : d.Resolved → d.Sound
  | .mk htargets hinitializers =>
    ⟨fun x hx => (htargets x hx).sound, fun x hx e he => (hinitializers x hx e he).sound⟩

theorem Stmt.Resolved.sound {exits : Exits} {stmt : Stmt} : stmt.Resolved exits → stmt.Sound exits
  | .atom h => .atom h
  | .expression h => .expression h.sound
  | .block h => .block fun x hx => (h x hx).sound
  | .giveBack h => .giveBack fun e he => (h e he).sound
  | .labelled _ hloop hbody => .labelled hloop hbody.sound
  | .breakOff h => .breakOff h
  | .carryOn h => .carryOn h
  | .branch htest hyes hno => .branch htest.sound hyes.sound fun b hb => (hno b hb).sound
  | .switch hdiscriminant htests hbodies hdefaults =>
    .switch hdiscriminant.sound (fun c hc e he => (htests c hc e he).sound)
      (fun c hc b hb => (hbodies c hc b hb).sound) hdefaults
  | .raise h => .raise h.sound
  | .guarded hblock hparam hhandler hfinalizer =>
    .guarded (fun x hx => (hblock x hx).sound) (fun h hh p hp => (hparam h hh p hp).sound)
      (fun h hh x hx => (hhandler h hh x hx).sound) fun f hf x hx => (hfinalizer f hf x hx).sound
  | .whileLoop htest hbody => .whileLoop htest.sound hbody.sound
  | .doWhile hbody htest => .doWhile hbody.sound htest.sound
  | .forLoop hinit htest hupdate hbody =>
    .forLoop (fun n hn => (hinit n hn).sound) (fun e he => (htest e he).sound)
      (fun e he => (hupdate e he).sound)
      hbody.sound
  | .forIn hleft hright hbody => .forIn hleft.sound hright.sound hbody.sound
  | .forOf hleft hright hbody => .forOf hleft.sound hright.sound hbody.sound
  | .declaration h => .declaration h.sound
  | .function h => .function h.sound
  | .classDecl h => .classDecl h.sound
  | .exportNamed h => .exportNamed h.sound
  | .exportDefault h => .exportDefault h.sound

theorem Node.Resolved.sound {n : Node} : n.Resolved → n.Sound
  | .declaration h => .declaration h.sound
  | .function h => .function h.sound
  | .classDecl h => .classDecl h.sound
  | .expr h => .expr h.sound
  | .pattern h => .pattern h.sound

end

end EcmaStack

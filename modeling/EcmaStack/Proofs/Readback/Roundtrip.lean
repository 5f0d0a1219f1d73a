import EcmaStack.Proofs.Progress.Total
import EcmaStack.Proofs.Readback.Assignments
import EcmaStack.Proofs.Readback.Printed
import EcmaStack.Proofs.Text.Decoding

/-!
# Formulas printed and read back

What a formula is printed as is a program again, of one statement, and the expression read back
is the formula but for ranges and parentheses (`formula_readback`): the parentheses that are
printed are enough, and none of them is taken for the head of an arrow function.

A source that is spelled like a formula and a semicolon is read as a program with one statement,
an expression that echoes the formula (`program_gives`). The first lexeme of a formula starts no
other statement: a variable is followed by no colon and by no other name, so it is no label and
no `using`.
-/

namespace EcmaStack

section

open EcmaStack.Expr (Formula Shown Echoes)

variable {r : Rules} {e : Surroundings} {s : ParseState} {x : Expr} {l : Lexeme} {ls : List Lexeme}

/-- A statement is the expression again. -/
def Stmt.Echoes (x : Expr) : Stmt → Prop
  | .expression _ y => x.Echoes y
  | _ => False

namespace Parse

/-- A formula and a semicolon are read as an expression statement. -/
theorem expressionStatement_gives (hr : r.Restore) (hin : e.region.allowIn = true) (hx : Formula x)
    (hs : s.At e.source (x.lexemes ++ [.punct .semicolon])) :
    Gives (expressionStatement r) e s fun stmt t => stmt.Echoes x ∧ t.At e.source [] := by
  refine .look fun start =>
    .bind (hr.expression (b := false) hin hx (fun _ => hx.comma_le) hs (firstKind_lt (by decide)))
    fun y t hy => .bind (Q := fun _ u => u.At e.source []) ?_ fun _ u hu => .look fun span =>
      .pure ⟨hy.1.echoes, hu⟩
  refine .known rfl (.pos ?_ (.asks hy.2.kind (.pos rfl (.next hy.2))))
  rw [hy.2.kind]
  rfl

/-- After a name at the head of a formula comes no colon and no other name. -/
theorem ahead_of_name (hx : Formula x) (hl : l.Opens) (hkind : l.kind = .identifier)
    (heq : x.lexemes ++ [.punct .semicolon] = l :: ls) :
    firstKind ls ≠ .punct .colon ∧ firstKind ls ≠ .identifier := by
  obtain ⟨text, rfl, -⟩ := hl.name_of_kind hkind
  obtain ⟨-, own, hown, rfl⟩ := hx.head_name (b := false) heq
  rcases hx.after_name hown with ⟨rfl, -⟩ | ⟨m, more, rfl, hm⟩
  · exact ⟨nofun, nofun⟩
  · have hm : Tier.comma ≤ m.kind.grip := Nat.le_trans (Nat.le_min.mpr ⟨hx.comma_le, by decide⟩) hm
    constructor <;> intro h <;> rw [show m.kind = _ from h] at hm <;> exact absurd hm (by decide)

/-- A formula with a semicolon is a statement. -/
theorem statementRule_gives (hr : r.Restore) (hin : e.region.allowIn = true) (hx : Formula x)
    (hs : s.At e.source (x.lexemes ++ [.punct .semicolon])) :
    Gives (statementRule r) e s fun stmt t => stmt.Echoes x ∧ t.At e.source [] := by
  have hwhole := expressionStatement_gives hr hin hx hs
  obtain ⟨l, ls, heq, hl, hopens, -⟩ := hs.opens (b := false) hx
  have hkind := hl.token.kind
  refine .known rfl ?_
  split
  case h_20 h =>
    have hnext := (ahead_of_name hx hopens (hkind.symm.trans h) heq).1
    refine .known rfl (.neg ?_ hwhole)
    rw [hl.kind_ahead, beq_eq_false_iff_ne.mpr hnext, Bool.and_false]
    exact Bool.false_ne_true
  case h_21 => exact hwhole
  all_goals
    rename_i h
    exact absurd (hkind.symm.trans h) (hopens.kind_ne rfl)

/-- No formula is taken for a declaration. -/
theorem startsUsing_gives (hs : s.At e.source (l :: ls)) (hl : l.Opens)
    (hnext : firstKind ls ≠ .identifier) :
    Gives startsUsing e s fun found t => found = false ∧ t = s := by
  refine .known rfl ?_
  split
  · refine .known rfl (.pure ⟨?_, rfl⟩)
    rw [hs.kind_ahead, beq_eq_false_iff_ne.mpr hnext]
    rfl
  · exact .notContextual hs hl (by decide) (.known rfl (.neg nofun (.pure ⟨rfl, rfl⟩)))

/-- It is so where declarations may stand as well. -/
theorem itemRule_gives (hr : r.Restore) (hin : e.region.allowIn = true) (hx : Formula x)
    (hs : s.At e.source (x.lexemes ++ [.punct .semicolon])) :
    Gives (itemRule r) e s fun stmt t => stmt.Echoes x ∧ t.At e.source [] := by
  have hwhole := statementRule_gives hr hin hx hs
  obtain ⟨l, ls, heq, hl, hopens, -⟩ := hs.opens (b := false) hx
  have hkind := hl.token.kind
  refine .known rfl ?_
  split
  case h_6 h =>
    have hnext := (ahead_of_name hx hopens (hkind.symm.trans h) heq).2
    refine .bind (Q := fun found t => found = false ∧ t = s)
      (.notContextual hl hopens (by decide) (.neg Bool.false_ne_true (.pure ⟨rfl, rfl⟩))) ?_
    rintro _ _ ⟨rfl, rfl⟩
    refine .neg Bool.false_ne_true (.bind (startsUsing_gives hl hopens hnext) ?_)
    rintro _ _ ⟨rfl, rfl⟩
    exact .neg Bool.false_ne_true hwhole
  case h_7 => exact hwhole
  all_goals
    rename_i h
    exact absurd (hkind.symm.trans h) (hopens.kind_ne rfl)

/-! ## Programs -/

/-- So the item that stands here is that statement. -/
theorem item_gives (fuel : Nat) (hin : e.region.allowIn = true) (hx : Formula x)
    (hs : s.At e.source (x.lexemes ++ [.punct .semicolon])) :
    Gives (rulesWith fuel).item e s fun stmt t => stmt.Echoes x ∧ t.At e.source [] := by
  cases fuel with
  | zero => exact .internal
  | succ fuel => exact itemRule_gives (rulesWith_restore fuel) hin hx hs

/-- It is so at the top of a script and of a module. -/
theorem moduleItem_gives (fuel : Nat) (hin : e.region.allowIn = true) (hx : Formula x)
    (hs : s.At e.source (x.lexemes ++ [.punct .semicolon])) :
    Gives (moduleItem (rulesWith fuel)) e s fun stmt t => stmt.Echoes x ∧ t.At e.source [] := by
  have hitem := item_gives fuel hin hx hs
  obtain ⟨l, ls, -, hl, hopens, -⟩ := hs.opens (b := false) hx
  refine .known rfl ?_
  split
  · refine .known rfl ?_
    split
    · next h => exact absurd (hl.token.kind.symm.trans h) (hopens.kind_ne rfl)
    · next h => exact absurd (hl.token.kind.symm.trans h) (hopens.kind_ne rfl)
    · exact hitem
  · exact hitem

/-- No directive is found where a formula stands. -/
theorem directives_gives (hs : s.At e.source (l :: ls)) (hl : l.Opens) :
    Gives directives e s fun ds t => ds = [] ∧ t.At e.source (l :: ls) := by
  refine .keeping (fun items t => items = [] ∧ t.At e.source (l :: ls)) ⟨rfl, hs⟩ ?_
  rintro _ t ⟨rfl, ht⟩
  refine .bind (Q := fun o u => o = none ∧ u.At e.source (l :: ls))
    (.attempt (.known rfl (.pos ?_ ?_))) ?_
  · exact bne_iff_ne.mpr (ht.kind.trans_ne (hl.kind_ne rfl))
  · exact .pure ⟨fun _ => ⟨rfl, ht.congr rfl rfl⟩, nofun⟩
  · rintro _ u ⟨rfl, hu⟩
    exact .pure ⟨rfl, hu⟩

/-- The items of a program are one statement. -/
theorem items_gives (fuel : Nat) (hin : e.region.allowIn = true) (hx : Formula x)
    (hs : s.At e.source (x.lexemes ++ [.punct .semicolon])) :
    Gives (itemsUntil (· == .eof) (moduleItem (rulesWith fuel))) e s fun items _ => ∃ stmt, items =
      [stmt] ∧
      stmt.Echoes x := by
  refine .keeping (fun items t => items = [] ∧ t.At e.source (x.lexemes ++ [.punct .semicolon]) ∨
    (∃ stmt, items = [stmt] ∧ stmt.Echoes x) ∧ t.At e.source []) (.inl ⟨rfl, hs⟩) ?_
  rintro items t (⟨rfl, ht⟩ | ⟨⟨stmt, rfl, hstmt⟩, ht⟩)
  · obtain ⟨l, ls, -, hl, hopens, -⟩ := ht.opens (b := false) hx
    refine .known rfl (.neg (mt beq_iff_eq.mp (hl.kind.trans_ne (hopens.kind_ne rfl))) ?_)
    exact .bind (moduleItem_gives fuel hin hx ht) fun stmt u hu =>
      .pure (.inr ⟨⟨stmt, rfl, hu.1⟩, hu.2⟩)
  · exact .known rfl (.pos (beq_iff_eq.mpr ht.kind) (.pure ⟨stmt, rfl, hstmt⟩))

/-- A source that is spelled like a formula with a semicolon is a program with one statement. -/
theorem program_gives {source : Text} {module : Bool} {compiler : PatternCompiler} (fuel : Nat)
    (hx : Formula x) (hspells : Spells source (x.lexemes ++ [.punct .semicolon]) (.ofText source))
    (hhash : readHashbang (.ofText source) = none) :
    Gives (program (rulesWith fuel)) ⟨source, module, compiler, {}⟩ (.initial source) fun p _ =>
      p.directives = [] ∧ ∃ stmt, p.body = [stmt] ∧ stmt.Echoes x := by
  refine .known rfl (.bind (Q := fun a _ => a.1.2.1 = [] ∧ ∃ stmt, a.1.2.2 = [stmt] ∧ stmt.Echoes x)
    (.inScope ?_) ?_)
  · refine .bind (Q := fun _ t => t.cursor = .ofText source) (.known rfl ?_) fun _ t ht => ?_
    · rw [show ((ParseState.initial source).enter (functionScope false module)).cursor =
        .ofText source from rfl, hhash]
      exact .pure rfl
    · have hplain := hx.noArrow.append (.cons (l := .punct .semicolon) nofun .nil)
      refine .bind (.next_spelled (ht ▸ hspells) hplain) fun _ u hu => ?_
      obtain ⟨l, ls, heq, hl, hopens, -⟩ := hu.opens (b := false) hx
      refine .bind (directives_gives hl hopens) ?_
      rintro _ v ⟨rfl, hv⟩
      rw [← heq] at hv
      exact .bind (items_gives fuel rfl hx hv) fun items w hw => .pure fun _ _ => ⟨rfl, hw⟩
  · rintro ⟨⟨interpreter, ds, items⟩, scope⟩ t h
    exact .pure h

end Parse

end

section

open Text
open EcmaStack.Expr (Formula Begins)

variable {x : Expr} {span : Span}

/-! ## Printing -/

/-- Below a node is nothing that cannot be printed, if below none of its slots is. -/
theorem Node.innerFault?_eq_none {n : Node} (hfree : n.freeParts = [])
    (h : ∀ m ∈ n.slots, m.innerFault? = none) :
    n.innerFault? = none := by
  have hchildren : (n.children.attach.findSome? fun c => c.1.innerFault?) = none := by
    refine List.findSome?_eq_none_iff.mpr ?_
    rintro ⟨c, hc⟩ -
    exact h c (List.mem_of_mem_filter hc)
  rw [Node.innerFault?, hfree]
  exact hchildren

namespace Expr

/-- Every part of a formula can be printed. -/
theorem Formula.slots_print (hx : Formula x) : ∀ m ∈ x.slots, m.innerFault? = none := by
  have hexpr {e : Expr} (h : ∀ m ∈ e.slots, m.innerFault? = none) : (Node.expr e).innerFault? =
      none :=
    Node.innerFault?_eq_none rfl h
  have hpair {m n : Node} (h : m.innerFault? = none ∧ n.innerFault? = none) :
      ∀ c ∈ [m, n], c.innerFault? = none :=
    List.forall_mem_cons.mpr ⟨h.1, List.forall_mem_singleton.mpr h.2⟩
  induction hx with
  | number | name => exact nofun
  | unary hop hx ih | update hop htarget hx ih => exact List.forall_mem_singleton.mpr (hexpr ih)
  | binary hop hleft hright ihleft ihright => exact hpair ⟨hexpr ihleft, hexpr ihright⟩
  | conditional htest hyes hno ihtest ihyes ihno =>
    exact List.forall_mem_cons.mpr ⟨hexpr ihtest, hpair ⟨hexpr ihyes, hexpr ihno⟩⟩
  | assign hop htarget hx hvalue ihx ihvalue =>
    exact hpair ⟨Node.innerFault?_eq_none rfl ihx, hexpr ihvalue⟩
  | dotted hbase hn ih => exact hpair ⟨hexpr ih, hexpr nofun⟩
  | computed hbase hkey ihbase ihkey => exact hpair ⟨hexpr ihbase, hexpr ihkey⟩
  | call hcallee hargs ihcallee ihargs =>
    refine List.forall_mem_cons.mpr ⟨hexpr ihcallee, fun m hm => ?_⟩
    obtain ⟨x, hx, rfl⟩ := List.mem_map.mp hm
    exact hexpr (ihargs x hx)

/-- No formula is taken for a declaration or a block. -/
theorem Formula.not_startsLikeStatement (hx : Formula x) : x.startsLikeStatement = false := by
  induction hx with
  | @update span op x before hop htarget hx ih => exact Bool.and_eq_false_imp.mpr fun _ => ih
  | binary hop hleft hright ih => exact ih
  | conditional htest hyes hno ih => exact ih
  | assign hop htarget hx hvalue ih => exact ih
  | dotted hbase hn ih => exact ih
  | computed hbase hkey ih => exact ih
  | call hcallee hargs ih => exact ih
  | _ => rfl

/-- A formula is printed as a statement of its own, without parentheses around it. -/
theorem Formula.print_statement (hx : Formula x) :
    (Node.stmt (.expression span x)).print = .ok (x.print 0 ++ ";") := by
  have hinner : (Node.stmt (.expression span x)).innerFault? = none :=
    Node.innerFault?_eq_none rfl (List.forall_mem_singleton.mpr
      (Node.innerFault?_eq_none rfl hx.slots_print))
  have htier : x.atTier Tier.comma (x.print 0) = x.print 0 := by
    rw [atTier, decide_eq_false (Nat.not_lt_of_le hx.comma_le)]
    rfl
  rw [Node.print, hinner]
  show Except.ok (parenthesizedIf x.startsLikeStatement (x.atTier Tier.comma (x.print 0)) ++ ";") =
    _
  rw [hx.not_startsLikeStatement, htier]
  rfl

/-! ## Reading -/

/-- The text of a formula with a semicolon is spelled as its lexemes. -/
theorem Formula.spells (hx : Formula x) :
    Spells (ofString (x.print 0 ++ ";")) (x.lexemes ++ [.punct .semicolon])
    (.ofText (ofString (x.print 0 ++ ";"))) := by
  have hlast : Spelled [';'] [.punct .semicolon] :=
    .cons (l := .punct .semicolon) (Lexeme.scans_closed (by decide)) .nil
  have hwhole := hx.printed 0 hlast (.cons (by decide) (by decide)) []
  rw [ofString, String.toList_append]
  exact hwhole

/-- It starts with no interpreter line. -/
theorem Formula.no_hashbang (hx : Formula x) :
    readHashbang (.ofText (ofString (x.print 0 ++ ";"))) = none := by
  have hno {y : Char} {cs : List Char} (hy : y ≠ '#') :
      readHashbang (.ofText ((y :: cs).map .char)) = none := by
    unfold readHashbang
    split
    · next hrest => exact absurd (Piece.char.inj (List.cons.inj hrest).1) hy
    · rfl
  have hbegins := hx.begins 0
  rw [ofString, String.toList_append]
  generalize (x.print 0).toList = cs at hbegins
  cases hbegins with
  | operand h => exact hno (by rintro rfl; exact absurd h (by decide))
  | @operator op rest hop hle =>
    have hall : ∀ op ∈ leadingOperators, (op.describe.toList.head?.any (· != '#')) = true :=
      by decide
    have hhead := hall op (mem_leadingOperators hop)
    cases hword : op.describe.toList with
    | nil =>
      rw [hword] at hhead
      cases hhead
    | cons y word =>
      rw [hword] at hhead
      exact hno (bne_iff_ne.mp hhead)

end Expr

/-- A formula that is printed as a statement is read back as a program of one statement, the
same expression but for ranges and parentheses. -/
theorem formula_readback (hx : Formula x) (span : Span) (name : String) (module : Bool)
    (compiler : PatternCompiler) :
    ∃ source, (Node.stmt (.expression span x)).print = .ok source ∧
      ∃ p stmtSpan y, parseFile (.ofString name source) module compiler = .ok p ∧
      p.directives = [] ∧
        p.body = [.expression stmtSpan y] ∧ x.Echoes y := by
  refine ⟨x.print 0 ++ ";", hx.print_statement, ?_⟩
  have htext : (SourceFile.ofString name (x.print 0 ++ ";")).text = ofString (x.print 0 ++ ";") :=
    decode_utf8Bytes _
  have hgives : Parse.Gives
      (Parse.program
        (Parse.rulesWith (Parse.nestingPerToken * ((ofString (x.print 0 ++ ";")).length + 2))))
      ⟨ofString (x.print 0 ++ ";"), module, compiler, {}⟩ (.initial (ofString (x.print 0 ++ ";")))
        fun p _ =>
        p.directives = [] ∧ ∃ stmt, p.body = [stmt] ∧ stmt.Echoes x :=
    Parse.program_gives _ hx hx.spells hx.no_hashbang
  have hread : parseText (ofString (x.print 0 ++ ";")) module compiler = (Parse.program
      (Parse.rulesWith (Parse.nestingPerToken * ((ofString (x.print 0 ++ ";")).length + 2)))
      ⟨ofString (x.print 0 ++ ";"), module, compiler, {}⟩
      (.initial (ofString (x.print 0 ++ ";")))).map (·.1) := rfl
  rw [Parse.Gives] at hgives
  split at hgives
  · next p t hprogram =>
    obtain ⟨hdirectives, stmt, hbody, hechoes⟩ := hgives
    rw [hprogram] at hread
    cases stmt with
    | expression stmtSpan y =>
      refine ⟨p, stmtSpan, y, ?_, hdirectives, hbody, hechoes⟩
      rw [parseFile, htext, hread]
      rfl
    | _ => cases hechoes
  · next fault hprogram =>
    -- the reader never breaks down in a whole source
    have hsurvives :=
      Parse.program_survives (e := ⟨ofString (x.print 0 ++ ";"), module, compiler, {}⟩)
        (Nat.mul_le_mul_left Parse.nestingPerToken (Nat.le_succ _))
    rw [Parse.Survives, hprogram] at hsurvives
    exact absurd hgives (Bool.eq_false_iff.mp hsurvives)

/-- The power of a negation negated, with a property of a number for its exponent. -/
def signedPower : Expr :=
  .binary {} (.punct .power) (.unary {} (.punct .minus)
    (.unary {} (.punct .minus) (.identifier ⟨{}, "a"⟩)))
    (.member {} (.number {} "2" ⟨0x4000000000000000⟩) (.identifier ⟨{}, "b"⟩) false false)

example : signedPower.print 0 = "(- -a) ** (2).b" := by decide

theorem formula_readback_signedPower : Formula signedPower ∧
    ∃ source, (Node.stmt (.expression {} signedPower)).print = .ok source ∧
      ∃ p stmtSpan y, parseFile (.ofString "power.js" source) false = .ok p ∧ p.directives = [] ∧
        p.body = [.expression stmtSpan y] ∧ signedPower.Echoes y := by
  have hbase : Formula (.identifier ⟨{}, "a"⟩) := .name ⟨by decide, by decide, by decide⟩
  have hexponent : IsNumeral "2" ⟨0x4000000000000000⟩ := ⟨⟨_, _, rfl, rfl⟩, by decide +kernel⟩
  have hright : Formula (.member {} (.number {} "2" ⟨0x4000000000000000⟩) (.identifier ⟨{}, "b"⟩)
      false false) :=
    .dotted (.number hexponent) ⟨by decide, by decide, by decide⟩
  have hpower : Formula signedPower :=
    .binary (.inr (by decide)) (.unary rfl (.unary rfl hbase)) hright
  exact ⟨hpower, formula_readback hpower {} "power.js" false compilePattern⟩

end

end EcmaStack

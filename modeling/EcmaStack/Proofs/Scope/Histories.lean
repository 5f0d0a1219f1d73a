import EcmaStack.Proofs.Scope.Gains
import EcmaStack.Proofs.Scope.InPlace

/-!
# Histories of scope tables

The calls on a scope table may come in any order: scopes are opened, closed, abandoned and made
current again, and variables are declared wherever the current scope stands. A history is the
calls that were made, each with the table it was made on (`History`); a declaration may be
refused in it, and ends nothing.

A call changes the variables of one scope at most, and says which (`ScopeCall.Effect`). From
this follows what every history keeps (`history_keeps`): names are distinct within a scope, a
variable stays where it was made, and in that form if it is lexical, until its scope is
abandoned, and a variable that was to move out of blocks is found in the function scope that was
nearest when it was made.
-/

namespace EcmaStack

/-- A call on a scope table. Scopes are named by their numbers. -/
inductive ScopeCall where
  | push (kind : ScopeKind) (generator async : Bool)
  | pop (n : Nat)
  | discard (n : Nat)
  | setCurrent (n : Option Nat)
  | declare (v : Variable)

namespace ScopeTable

/-- The variables of a scope. -/
def bindings (t : ScopeTable) (n : Nat) : List Variable :=
  (t.entries[n]?.map (·.scope.bindings)).getD []

/-- The second scope is the nearest function scope around the first, itself included. -/
inductive Nearest (t : ScopeTable) : Nat → Nat → Prop where
  | here {n e} : t.entries[n]? = some e → e.scope.kind = .function → Nearest t n n
  | outside {n e p m} : t.entries[n]? = some e → e.scope.kind ≠ .function → e.parent = some p →
    Nearest t p m → Nearest t n m

end ScopeTable

namespace ScopeCall

/-- The scopes that a call names are in the table. -/
def Names (t : ScopeTable) : ScopeCall → Prop
  | .pop n | .discard n => n < t.entries.length
  | .setCurrent n => ∀ m ∈ n, m < t.entries.length
  | .push .. | .declare _ => True

/-- Make a call. -/
def perform : ScopeCall → ExceptT ScopeFault (StateM ScopeTable) Unit
  | .push kind generator async => modify fun t => (t.push kind generator async).2
  | .pop n => do set (← liftExcept ((← get).pop n))
  | .discard n => modify (·.discard n)
  | .setCurrent n => modify (·.setCurrent n)
  | .declare v => (ScopeTable.declareInPlace v).adapt .declare

end ScopeCall

/-- The calls that were made from the empty table on, latest first, each with the table it was
made on. Of the calls that fail only a refused declaration is followed by others. -/
inductive History : List (ScopeTable × ScopeCall) → ScopeTable → Prop where
  | start : History [] {}
  | made {past t call after} : History past t → call.Names t → call.perform.run.run t =
    (.ok (), after) →
      History ((t, call) :: past) after
  | refused {past t call name after} : History past t → call.Names t →
      call.perform.run.run t = (.error (.declare (.redeclared name)), after) →
        History ((t, call) :: past) after

namespace ScopeTable

variable {t after : ScopeTable} {e : ScopeEntry} {m n : Nat} {v w : Variable} {call : ScopeCall}

/-! ## Variables and scopes -/

/-- What is bound in an entry is bound in its scope. -/
theorem bindings_eq (he : t.entries[n]? = some e) : t.bindings n = e.scope.bindings := by
  rw [bindings, he]
  rfl

/-- Updating an entry changes what is bound there and nowhere else. -/
theorem bindings_update (he : t.entries[n]? = some e) (s : Scope) (m : Nat) :
    (t.update n fun _ => s).bindings m = if n = m then s.bindings else t.bindings m := by
  rw [bindings, getElem?_update]
  by_cases hm : n = m
  · subst hm
    rw [if_pos rfl, if_pos rfl, he]
    rfl
  · rw [if_neg hm, if_neg hm]
    rfl

/-- A declaration that moves out goes to the nearest function scope, if there is one. -/
theorem Nearest.hoistTarget? (h : t.Ordered) (hnear : t.Nearest n m) {name : String}
    {found : Option Nat} (hfound : t.hoistTarget? name (t.chain (some n)) = .ok found) :
    found = some m := by
  induction hnear with
  | here he hkind =>
    rw [h.chain_eq he, ScopeTable.hoistTarget?, isFunction_eq he, hkind] at hfound
    split at hfound
    · cases hfound
    · exact (Except.ok.inj hfound).symm
  | outside he hkind hparent _ ih =>
    rw [h.chain_eq he, ScopeTable.hoistTarget?, isFunction_eq he, beq_eq_false_iff_ne.mpr hkind,
      hparent] at hfound
    split at hfound
    · cases hfound
    · exact ih hfound

/-- So it belongs there. -/
theorem Nearest.target? (h : t.Ordered) (hcurrent : t.current = some m) {home : Nat}
    (hnear : t.Nearest m home) (hhoisted : v.kind.isHoisted = true)
    (ht : t.target? v = .ok (some n)) : n = home := by
  rw [ScopeTable.target?, if_pos hhoisted, hcurrent] at ht
  obtain ⟨found, hfound, hor⟩ := Scope.map_ok ht
  rw [hnear.hoistTarget? h hfound] at hor
  exact (Option.some.inj hor).symm

end ScopeTable

/-! ## What a call does -/

open ScopeTable

/-- What a call does to the variables of the scopes: nothing, or it empties the scope that it
abandons, or it adds a variable of a new name to the scope where it belongs, or a function takes
over a variable that is not lexical. -/
inductive ScopeCall.Effect (t after : ScopeTable) : ScopeCall → Prop where
  | none {call} : (∀ m, after.bindings m = t.bindings m) → Effect t after call
  | emptied {n} :
    (∀ m, after.bindings m = if n = m then [] else t.bindings m) → Effect t after (.discard n)
  | added {v n} :
    (v.kind.isHoisted = true → ∀ c home, t.current = some c → t.Nearest c home → n = home) →
      v.name ∉ (t.bindings n).map (·.name) →
      (∀ m, after.bindings m = if n = m then t.bindings n ++ [v]
        else t.bindings m) → Effect t after (.declare v)
  | replaced {v old n} : v.kind = .function → old ∈ t.bindings n → old.name = v.name →
    old.kind.isLexical = false →
      (∀ m, after.bindings m =
        if n = m then (t.bindings n).map (fun w => if w.name == v.name then v
        else w) else t.bindings m) →
      Effect t after (.declare v)

section

variable {t after : ScopeTable} {e : ScopeEntry} {m n : Nat} {v w : Variable} {call : ScopeCall}
  {past : List (ScopeTable × ScopeCall)}

/-- A name is among the bindings if it can be looked up. -/
theorem names_iff {s : Scope} {name : String} :
    name ∈ s.bindings.map (·.name) ↔ s.lookup? name ≠ none := by
  rw [Scope.lookup?, ne_eq, List.find?_eq_none]
  simp

/-- A variable is added to a scope, or takes over another, or changes nothing. -/
theorem effect_of_add {s : Scope} (he : t.entries[n]? = some e) (hadd : e.scope.add v = .ok s)
    (hhome : v.kind.isHoisted = true → ∀ c home, t.current = some c → t.Nearest c home → n = home) :
    ScopeCall.Effect t (t.update n fun _ => s) (.declare v) := by
  have hbindings := bindings_update he s
  have hhere := bindings_eq he
  rw [Scope.add] at hadd
  split at hadd
  -- No binding has the name: it is added. Otherwise the old one decides.
  · next hnone =>
    cases hadd
    refine .added hhome ?_ fun m => ?_
    · rw [hhere, names_iff]
      exact fun hsome => hsome hnone
    · rw [hbindings, hhere]
  · next old hold =>
    have hname : old.name = v.name := by simpa using List.find?_some hold
    have hmem : old ∈ t.bindings n := hhere ▸ List.mem_of_find?_eq_some hold
    split at hadd
    · cases hadd
    · next hlexical =>
      obtain ⟨-, hkind⟩ := Bool.or_eq_false_iff.mp (Bool.eq_false_iff.mpr hlexical)
      split at hadd
      · next hfunction =>
        cases hadd
        refine .replaced (beq_iff_eq.mp hfunction) hmem hname hkind fun m => ?_
        rw [hbindings, hhere, Scope.replace]
      · cases hadd
        refine .none fun m => ?_
        rw [hbindings]
        split
        · next hm => rw [← hm, hhere]
        · rfl

/-- A declaration that is refused has no effect; one that is not adds its name, or changes
the name that is there. -/
theorem effect_declare (h : t.Ordered) {answer : Except DeclareFault Unit}
    (hrun : (declareInPlace v).run.run t = (answer, after)) :
    ScopeCall.Effect t after (.declare v) := by
  rcases h.declareInPlace_cases hrun with ⟨fault, -, rfl⟩ | ⟨n, e, s, ht, he, hadd, -, rfl⟩
  · exact .none fun _ => rfl
  · exact effect_of_add he hadd fun hhoisted c home hc hnear => hnear.target? h hc hhoisted ht

/-- A scope that is opened is empty and leaves the others as they are. -/
theorem bindings_push (kind : ScopeKind) (generator async : Bool) (m : Nat) :
    (t.push kind generator async).2.bindings m = t.bindings m := by
  show ((t.entries ++ [_])[m]?.map _).getD [] = _
  rw [List.getElem?_append, bindings]
  split
  · rfl
  · next hm =>
    rw [List.getElem?_eq_none (Nat.le_of_not_lt hm)]
    cases hi : m - t.entries.length with
    | zero => rfl
    | succ i => rfl

/-- A scope that is given up has nothing in it any more. -/
theorem bindings_discard (m : Nat) :
    (t.discard n).bindings m = if n = m then [] else t.bindings m := by
  rw [bindings, ScopeTable.discard, List.getElem?_modify, bindings]
  split
  · next hm =>
    subst hm
    cases t.entries[n]? <;> rfl
  · cases t.entries[m]? <;> rfl

theorem perform_declare : (ScopeCall.declare v).perform.run.run t =
    (((declareInPlace v).run.run t).1.mapError .declare, ((declareInPlace v).run.run t).2) :=
  rfl

theorem perform_pop : (ScopeCall.pop n).perform.run.run t = match t.pop n with
    | .ok popped => (.ok (), popped)
    | .error fault => (.error fault, t) := by
  rw [ScopeCall.perform, ExceptT.run_bind, StateT.run_bind]
  change StateT.run (ExceptT.run (liftExcept (t.pop n) >>= _)) t = _
  cases t.pop n <;> rfl

/-- What is known of a call when it has been made. -/
theorem perform_effect (h : t.Ordered) {answer : Except ScopeFault Unit}
    (hrun : call.perform.run.run t = (answer, after)) :
    call.Effect t after := by
  cases call with
  | push kind generator async =>
    cases hrun
    exact .none (bindings_push kind generator async)
  | pop n =>
    rw [perform_pop, ScopeTable.pop] at hrun
    split at hrun
    · next hpop =>
      split at hpop
      · cases hpop
        cases hrun
        exact .none fun _ => rfl
      · cases hpop
    · cases hrun
      exact .none fun _ => rfl
  | discard n =>
    cases hrun
    exact .emptied fun _ => bindings_discard _
  | setCurrent n =>
    cases hrun
    exact .none fun _ => rfl
  | declare v =>
    rw [perform_declare] at hrun
    cases hrun
    exact effect_declare h rfl

/-! ## Tables stay in order -/

namespace ScopeTable

/-- Every scope was opened after the one around it. -/
theorem Ordered.parent_lt (h : t.Ordered) (m : Nat) (hm : t.entries[n]?.bind (·.parent) = some m) :
    m < t.entries.length := by
  obtain ⟨e, he, hparent⟩ := Option.bind_eq_some_iff.mp hm
  exact Nat.lt_trans (h.parent n e he m hparent) (List.getElem?_eq_some_iff.mp he).1

/-- The order is kept when a scope is opened, -/
theorem Ordered.push (h : t.Ordered) (kind : ScopeKind) (generator async : Bool) :
    (t.push kind generator async).2.Ordered := by
  refine ⟨?_, fun n e he p hp => ?_⟩
  · rintro n ⟨⟩
    simp [ScopeTable.push]
  · rw [ScopeTable.push, List.getElem?_append] at he
    split at he
    · exact h.parent n e he p hp
    · next hn =>
      obtain ⟨hlast, hentry⟩ := List.getElem?_eq_some_iff.mp he
      obtain rfl : n = t.entries.length := by
        rw [List.length_singleton] at hlast
        omega
      simp only [Nat.sub_self, List.getElem_cons_zero] at hentry
      rw [← hentry] at hp
      exact h.current p hp

/-- when one is changed, -/
theorem Ordered.update (h : t.Ordered) (n : Nat) (f : Scope → Scope) : (t.update n f).Ordered := by
  refine ⟨fun m hm => ?_, fun m e he p hp => ?_⟩
  · rw [ScopeTable.update, List.length_modify]
    exact h.current m hm
  · rw [getElem?_update] at he
    split at he
    · obtain ⟨old, hold, rfl⟩ := Option.map_eq_some_iff.mp he
      exact h.parent m old hold p hp
    · exact h.parent m e he p hp

/-- when one is given up -/
theorem Ordered.discard (h : t.Ordered) (n : Nat) : (t.discard n).Ordered := by
  refine ⟨fun m hm => ?_, fun m e he p hp => ?_⟩
  · rw [ScopeTable.discard, List.length_modify]
    exact h.parent_lt m hm
  · rw [ScopeTable.discard, List.getElem?_modify] at he
    split at he
    · obtain ⟨old, -, rfl⟩ := Option.map_eq_some_iff.mp he
      cases hp
    · cases hold : t.entries[m]? with
      | none =>
        rw [hold] at he
        cases he
      | some old =>
        rw [hold] at he
        cases he
        exact h.parent m _ hold p hp

/-- and when a name is declared. -/
theorem Ordered.declare (h : t.Ordered) {answer : Except DeclareFault Unit}
    (hrun : (declareInPlace v).run.run t = (answer, after)) : after.Ordered := by
  rcases h.declareInPlace_cases hrun with ⟨fault, -, rfl⟩ | ⟨n, e, s, -, -, -, -, rfl⟩
  · exact h
  · exact h.update n _

end ScopeTable

/-- Every call leaves the table in order. -/
theorem perform_ordered (h : t.Ordered) (hnames : call.Names t) {answer : Except ScopeFault Unit}
    (hrun : call.perform.run.run t = (answer, after)) : after.Ordered := by
  cases call with
  | push kind generator async =>
    cases hrun
    exact h.push kind generator async
  | pop n =>
    rw [perform_pop, ScopeTable.pop] at hrun
    split at hrun
    · next hpop =>
      split at hpop
      · cases hpop
        cases hrun
        exact ⟨h.parent_lt, h.parent⟩
      · cases hpop
    · cases hrun
      exact h
  | discard n =>
    cases hrun
    exact h.discard n
  | setCurrent n =>
    cases hrun
    exact ⟨hnames, h.parent⟩
  | declare v =>
    rw [perform_declare] at hrun
    cases hrun
    exact h.declare rfl

/-- So it is kept by every history, by induction on the calls. -/
theorem History.ordered (h : History past t) : t.Ordered := by
  induction h with
  | start => exact ⟨nofun, nofun⟩
  | made _ hnames hrun ih => exact perform_ordered ih hnames hrun
  | refused _ hnames hrun ih => exact perform_ordered ih hnames hrun

/-! ## What one call keeps -/

/-- What has become of a variable: nothing, or, unless it is lexical, a function of its name has
taken it over. -/
def Variable.Becomes (v w : Variable) : Prop :=
  w = v ∨ w.name = v.name ∧ v.kind.isLexical = false ∧ w.kind = .function

/-- What a variable becomes in two steps. -/
theorem Variable.Becomes.trans {u : Variable} (h : u.Becomes v) (k : v.Becomes w) :
    u.Becomes w := by
  rcases k with rfl | ⟨hname, hlexical, hfunction⟩
  · exact h
  · rcases h with rfl | ⟨hname', hlexical', -⟩
    · exact .inr ⟨hname, hlexical, hfunction⟩
    · exact .inr ⟨hname.trans hname', hlexical', hfunction⟩

namespace ScopeCall.Effect

/-- No effect binds a name twice in one scope. -/
theorem distinct (h : call.Effect t after) (ht : ∀ n, ((t.bindings n).map (·.name)).Nodup)
    (m : Nat) :
    ((after.bindings m).map (·.name)).Nodup := by
  cases h with
  | none hsame => rw [hsame]; exact ht m
  | emptied hrest =>
    rw [hrest]
    split
    · exact List.nodup_nil
    · exact ht m
  | added _ hnew hrest =>
    rw [hrest]
    split
    · rw [List.map_append, List.map_singleton, List.nodup_append]
      refine ⟨ht _, List.nodup_singleton _, ?_⟩
      rintro x hx y hy rfl
      exact hnew (List.mem_singleton.mp hy ▸ hx)
    · exact ht m
  | @replaced v old n _ _ _ _ hrest =>
    rw [hrest]
    split
    · let s : Scope := { kind := .block, bindings := t.bindings n }
      have hnames : (s.replace v).names = s.names := Scope.names_replace
      exact (congrArg List.Nodup hnames).mpr (ht n)
    · exact ht m

/-- A variable stays where it is unless its scope is abandoned. -/
theorem stays (h : call.Effect t after) (ht : ∀ n, ((t.bindings n).map (·.name)).Nodup)
    (hv : v ∈ t.bindings n) (hcall : call ≠ .discard n) : ∃ w ∈ after.bindings n, v.Becomes w := by
  cases h with
  | none hsame => exact ⟨v, (hsame n).symm ▸ hv, .inl rfl⟩
  | emptied hrest =>
    rw [hrest, if_neg fun hn => hcall (congrArg ScopeCall.discard hn)]
    exact ⟨v, hv, .inl rfl⟩
  | added _ _ hrest =>
    refine ⟨v, ?_, .inl rfl⟩
    rw [hrest]
    split
    · next hn => exact List.mem_append_left _ (hn ▸ hv)
    · exact hv
  | @replaced w old m hfunction hold hname hlexical hrest =>
    rw [hrest]
    split
    · next hn =>
      subst hn
      refine ⟨_, List.mem_map_of_mem hv, ?_⟩
      split
      · next hsame =>
        obtain rfl : v = old :=
          List.inj_on_of_nodup_map (ht _) hv hold ((beq_iff_eq.mp hsame).trans hname.symm)
        exact .inr ⟨hname.symm, hlexical, hfunction⟩
      · exact .inl rfl
    · exact ⟨v, hv, .inl rfl⟩

/-- A variable that moves out of blocks was there, or is declared now and comes to the nearest
function scope. -/
theorem made (h : call.Effect t after) (hv : v ∈ after.bindings n)
    (hhoisted : v.kind.isHoisted = true) :
    v ∈ t.bindings n ∨ call = .declare v ∧ v.name ∉ (t.bindings n).map (·.name) ∧
      ∀ c home, t.current = some c → t.Nearest c home → n = home := by
  cases h with
  | none hsame => exact .inl (hsame n ▸ hv)
  | emptied hrest =>
    rw [hrest] at hv
    split at hv
    · cases hv
    · exact .inl hv
  | added hhome hnew hrest =>
    rw [hrest] at hv
    split at hv
    · next hn =>
      subst hn
      rcases List.mem_append.mp hv with hv | hv
      · exact .inl hv
      · obtain rfl := List.mem_singleton.mp hv
        exact .inr ⟨rfl, hnew, hhome hhoisted⟩
    · exact .inl hv
  -- A replacement is made by a function, which is not hoisted, so the binding was there before.
  | replaced hfunction _ _ _ hrest =>
    rw [hrest] at hv
    split at hv
    · next hn =>
      subst hn
      obtain ⟨w, hw, rfl⟩ := List.mem_map.mp hv
      split at hhoisted
      · rw [hfunction] at hhoisted
        cases hhoisted
      · next hne =>
        rw [if_neg hne]
        exact .inl hw
    · exact .inl hv

end ScopeCall.Effect

/-! ## What every history keeps -/

/-- What holds of a table at the end of a history.
- No scope has two variables of one name.
- A variable that a scope had at some time is in it still, unless the scope has been abandoned
  since, and a lexical one is just as it was.
- A variable that moves out of blocks was declared by a call that found no variable of its name
  there, has stayed since, and is in the function scope that was nearest to the current scope
  then, if there was one.
- A refused declaration would leave the table as it is, and declaring in place is declaring. -/
structure Kept (past : List (ScopeTable × ScopeCall)) (t : ScopeTable) : Prop where
  distinct : ∀ n, ((t.bindings n).map (·.name)).Nodup
  stays : ∀ later s call earlier n v, past = later ++ (s, call) :: earlier → v ∈ s.bindings n →
    (∀ x ∈ later ++ [(s, call)], x.2 ≠ .discard n) →
    ∃ w ∈ t.bindings n, w.name = v.name ∧ (v.kind.isLexical = true → w = v)
  home : ∀ n, ∀ v ∈ t.bindings n, v.kind.isHoisted = true → ∃ later s earlier, past =
    later ++ (s, .declare v) :: earlier ∧
    v.name ∉ (s.bindings n).map (·.name) ∧ (∀ x ∈ later, v ∈ x.1.bindings n) ∧
    ∀ c function, s.current = some c → s.Nearest c function → n = function
  refused : ∀ v fault after, (declareInPlace v).run.run t = (.error fault, after) →
    after.current = t.current ∧ ∀ n, after.bindings n = t.bindings n
  declare : ∀ v, t.declare v = match (declareInPlace v).run.run t with
    | (.ok _, after) => .ok after
    | (.error fault, _) => .error (.declare fault)

/-- The last call of a history did to the table it was made on what its effect says. -/
theorem History.last (h : History ((t, call) :: past) after) :
    History past t ∧ call.Effect t after := by
  cases h with
  | made hpast _ hrun => exact ⟨hpast, perform_effect hpast.ordered hrun⟩
  | refused hpast _ hrun => exact ⟨hpast, perform_effect hpast.ordered hrun⟩

/-- So no history does. -/
theorem History.distinct (h : History past t) (n : Nat) : ((t.bindings n).map (·.name)).Nodup := by
  induction h generalizing n with
  | start => exact List.nodup_nil
  | made hpast _ hrun ih => exact (perform_effect hpast.ordered hrun).distinct ih n
  | refused hpast _ hrun ih => exact (perform_effect hpast.ordered hrun).distinct ih n

/-- A binding stays while its scope is not given up, and becomes only what declarations
make of it. -/
theorem History.stays {later earlier : List (ScopeTable × ScopeCall)} {s : ScopeTable}
    (h : History (later ++ (s, call) :: earlier) t) (hv : v ∈ s.bindings n)
    (hcalls : ∀ x ∈ later ++ [(s, call)], x.2 ≠ .discard n) : ∃ w ∈ t.bindings n, v.Becomes w := by
  induction later generalizing t with
  | nil =>
    obtain ⟨hpast, heffect⟩ := h.last
    exact heffect.stays hpast.distinct hv (hcalls _ List.mem_cons_self)
  | cons x later ih =>
    obtain ⟨before, last⟩ := x
    obtain ⟨hlast, hcalls⟩ := List.forall_mem_cons.mp hcalls
    obtain ⟨hpast, heffect⟩ := h.last
    obtain ⟨w, hw, hbecomes⟩ := ih hpast hcalls
    obtain ⟨u, hu, hmore⟩ := heffect.stays hpast.distinct hw hlast
    exact ⟨u, hu, hbecomes.trans hmore⟩

/-- A name that is hoisted was declared by a call, and its home is where that found it a
place. -/
theorem History.home (h : History past t) (hv : v ∈ t.bindings n)
    (hhoisted : v.kind.isHoisted = true) :
    ∃ later s earlier, past = later ++ (s, .declare v) :: earlier ∧
    v.name ∉ (s.bindings n).map (·.name) ∧
      (∀ x ∈ later, v ∈ x.1.bindings n) ∧ ∀ c function, s.current = some c → s.Nearest c function →
      n = function := by
  induction past generalizing t with
  | nil =>
    cases h
    cases hv
  | cons x past ih =>
    obtain ⟨before, call⟩ := x
    obtain ⟨hpast, heffect⟩ := h.last
    rcases heffect.made hv hhoisted with hbefore | ⟨rfl, hnew, hhome⟩
    · obtain ⟨later, s, earlier, rfl, hnew, hlater, hhome⟩ := ih hpast hbefore
      exact ⟨(before, call) :: later, s, earlier, rfl, hnew,
        List.forall_mem_cons.mpr ⟨hbefore, hlater⟩, hhome⟩
    · exact ⟨[], before, past, rfl, hnew, nofun, hhome⟩

/-- Whatever calls were made on it, a scope table keeps its variables in order. -/
theorem history_keeps (h : History past t) : Kept past t where
  distinct := h.distinct
  stays := by
    rintro later s call earlier n v rfl hv hcalls
    obtain ⟨w, hw, rfl | ⟨hname, hlexical, -⟩⟩ := h.stays hv hcalls
    · exact ⟨w, hw, rfl, fun _ => rfl⟩
    · refine ⟨w, hw, hname, fun htrue => ?_⟩
      rw [hlexical] at htrue
      cases htrue
  home := fun _ _ hv hhoisted => h.home hv hhoisted
  refused := by
    intro v fault after hrefused
    rw [h.ordered.declareInPlace_refused hrefused]
    exact ⟨rfl, fun _ => rfl⟩
  declare := h.ordered.declare_eq_inPlace

end

/-- A function around two blocks: a variable moves out of both, one cannot pass the lexical
variable between, and a function takes over the one that moved out when its scope is current
again. The inner block is abandoned at last. -/
theorem history_keeps_blocks : ∃ past t, History past t ∧ Kept past t ∧ past.length = 10 ∧
    t.bindings 0 = [⟨"p", .param, some 1⟩, ⟨"v", .function, some 5⟩] ∧ t.bindings 1 =
      [⟨"x", .letDecl, some 2⟩] ∧
    t.bindings 2 = [] ∧ t.bindings 3 = [] := by
  have h := History.start
  have h : History ((_, .push .function false false) :: _) _ := .made h trivial rfl
  have h : History ((_, .declare ⟨"p", .param, some 1⟩) :: _) _ := .made h trivial rfl
  have h : History ((_, .push .block false false) :: _) _ := .made h trivial rfl
  have h : History ((_, .declare ⟨"x", .letDecl, some 2⟩) :: _) _ := .made h trivial rfl
  have h : History ((_, .push .block false false) :: _) _ := .made h trivial rfl
  have h : History ((_, .declare ⟨"v", .var, some 3⟩) :: _) _ := .made h trivial rfl
  have h : History ((_, .declare ⟨"x", .var, some 4⟩) :: _) _ := .refused h trivial rfl
  have h : History ((_, .setCurrent (some 0)) :: _) _ :=
    .made h (by rintro m ⟨⟩; exact Nat.zero_lt_succ _) rfl
  have h : History ((_, .declare ⟨"v", .function, some 5⟩) :: _) _ := .made h trivial rfl
  have h : History ((_, .discard 2) :: _) _ := .made h (Nat.le_refl 3) rfl
  exact ⟨_, _, h, history_keeps h, rfl, rfl, rfl, rfl, rfl⟩

end EcmaStack

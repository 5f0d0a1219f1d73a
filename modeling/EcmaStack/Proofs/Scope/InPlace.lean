import EcmaStack.Proofs.Scope.Growth
import EcmaStack.Scope.Table

/-!
# Declarations in place

`ScopeTable.declare` takes the chain of open scopes out of the table, declares in it and puts it
back, and a refusal answers no table at all. `declareInPlace` works on the table itself: it
looks for the scope that a declaration belongs to and writes to this one only, and whatever it
has written when it gives up stays written. In a table whose scopes were opened from the outside
in (`Ordered`) the two do the same (`declare_eq_inPlace`); so it can be seen that nothing is
written before a refusal (`declareInPlace_refused`).
-/

namespace EcmaStack

/-! ## Chains of numbers -/

namespace ScopeTable

/-- Scopes are numbered from the outside in, and the current one is in the table. -/
structure Ordered (t : ScopeTable) : Prop where
  current : ∀ n ∈ t.current, n < t.entries.length
  parent : ∀ n (e : ScopeEntry), t.entries[n]? = some e → ∀ p ∈ e.parent, p < n

variable {t : ScopeTable} {e : ScopeEntry} {m n : Nat} {ns : List Nat} {v : Variable}

/-- Around nothing there is nothing. -/
theorem chainFrom_none (fuel : Nat) : t.chainFrom fuel none = [] := by
  cases fuel <;> rfl

/-- Fuel that is more than the number of a scope is enough for its chain. -/
theorem Ordered.chainFrom_fuel (h : t.Ordered) {fuel more : Nat} (hfuel : n < fuel)
    (hmore : n < more) :
    t.chainFrom fuel (some n) = t.chainFrom more (some n) := by
  induction n using Nat.strongRecOn generalizing fuel more with
  | ind n ih =>
    obtain ⟨fuel, rfl⟩ := Nat.exists_eq_succ_of_ne_zero (Nat.ne_of_gt (Nat.zero_lt_of_lt hfuel))
    obtain ⟨more, rfl⟩ := Nat.exists_eq_succ_of_ne_zero (Nat.ne_of_gt (Nat.zero_lt_of_lt hmore))
    simp only [chainFrom]
    cases he : t.entries[n]? with
    | none => rfl
    | some e =>
      cases hp : e.parent with
      | none => simp only [chainFrom_none, hp]
      | some p =>
        have hlt := h.parent n e he p hp
        have hsame : t.chainFrom fuel (some p) = t.chainFrom more (some p) :=
          ih p hlt (by omega) (by omega)
        simp only [hp, hsame]

/-- A chain is a scope and the chain of the scope around it. -/
theorem Ordered.chain_eq (h : t.Ordered) (he : t.entries[n]? = some e) :
    t.chain (some n) = n :: t.chain e.parent := by
  have hn : n < t.entries.length := (List.getElem?_eq_some_iff.mp he).1
  obtain ⟨size, hsize⟩ := Nat.exists_eq_succ_of_ne_zero (Nat.ne_of_gt (Nat.zero_lt_of_lt hn))
  simp only [chain, hsize, chainFrom, he]
  cases hp : e.parent with
  | none => rw [chainFrom_none, chainFrom_none]
  | some p =>
    have hlt := h.parent n e he p hp
    have hsame : t.chainFrom size (some p) = t.chainFrom (size + 1) (some p) :=
      h.chainFrom_fuel (by omega) (by omega)
    rw [hsame]

theorem chain_none : t.chain none = [] :=
  chainFrom_none _

/-- The scopes of a chain are in the table, and each is followed by scopes opened before it. -/
theorem Ordered.chain_below (h : t.Ordered) (hn : n < t.entries.length) :
    ∀ m ∈ t.chain (some n), m ≤ n := by
  induction n using Nat.strongRecOn with
  | ind n ih =>
    obtain ⟨e, he⟩ : ∃ e, t.entries[n]? = some e := ⟨_, List.getElem?_eq_getElem hn⟩
    rw [h.chain_eq he]
    intro m hm
    rcases List.mem_cons.mp hm with rfl | hm
    · exact Nat.le_refl _
    · cases hp : e.parent with
      | none =>
        rw [hp, chain_none] at hm
        cases hm
      | some p =>
        rw [hp] at hm
        have hlt := h.parent n e he p hp
        exact Nat.le_trans (ih p hlt (Nat.lt_trans hlt hn) m hm) (Nat.le_of_lt hlt)

/-- No scope stands in its own chain, as each was opened after the one around it. -/
theorem Ordered.chain_nodup (h : t.Ordered) (hn : n < t.entries.length) :
    (t.chain (some n)).Nodup := by
  induction n using Nat.strongRecOn with
  | ind n ih =>
    obtain ⟨e, he⟩ : ∃ e, t.entries[n]? = some e := ⟨_, List.getElem?_eq_getElem hn⟩
    rw [h.chain_eq he, List.nodup_cons]
    cases hp : e.parent with
    | none =>
      rw [chain_none]
      exact ⟨List.not_mem_nil, List.nodup_nil⟩
    | some p =>
      have hlt := h.parent n e he p hp
      have hin := Nat.lt_trans hlt hn
      exact ⟨fun hm => Nat.not_le_of_lt hlt (h.chain_below hin n hm), ih p hlt hin⟩

/-- What can be said of every chain of a table can be said of the current one. -/
theorem Ordered.current_chain (h : t.Ordered) :
    (∀ n ∈ t.chain t.current, n < t.entries.length) ∧ (t.chain t.current).Nodup := by
  cases hc : t.current with
  | none =>
    rw [chain_none]
    exact ⟨fun n hn => absurd hn List.not_mem_nil, List.nodup_nil⟩
  | some c =>
    have hin := h.current c hc
    exact ⟨fun n hn => Nat.lt_of_le_of_lt (h.chain_below hin n hn) hin, h.chain_nodup hin⟩

/-! ## The scope a declaration belongs to -/

/-- Whether a number is that of a function scope. -/
def isFunction (t : ScopeTable) (n : Nat) : Bool :=
  t.entries[n]?.any (·.scope.kind == .function)

/-- The first function scope of a chain, unless a lexical variable of the name stands on the way
to it. -/
def hoistTarget? (t : ScopeTable) (name : String) : List Nat → Except DeclareFault (Option Nat)
  | [] => .ok none
  | n :: outer =>
    if (t.lookup? n name).any (·.kind.isLexical) then .error (.redeclared name)
    else if t.isFunction n then .ok (some n)
    else t.hoistTarget? name outer

/-- Change one scope of the table. -/
def update (t : ScopeTable) (n : Nat) (f : Scope → Scope) : ScopeTable :=
  { t with entries := t.entries.modify n fun e => { e with scope := f e.scope } }

/-- The scope a declaration belongs to: the current one, or the function scope that it moves out
to. -/
def target? (t : ScopeTable) (v : Variable) : Except DeclareFault (Option Nat) :=
  if v.kind.isHoisted then (t.hoistTarget? v.name (t.chain t.current)).map (·.or t.current)
  else .ok t.current

/-- Declare a variable where the current scope stands, by writing to the table. -/
def declareInPlace (v : Variable) : ExceptT DeclareFault (StateM ScopeTable) Unit := do
  let t ← get
  let some n ← liftExcept (t.target? v) | throw .outsideScope
  match t.lookup? n v.name with
  | none => modify (·.update n fun s => { s with bindings := s.bindings ++ [v] })
  | some old =>
    if v.kind.isLexical || old.kind.isLexical then throw (.redeclared v.name)
    if v.kind == .function then modify (·.update n (·.replace v))

theorem lookup?_eq (he : t.entries[n]? = some e) (name : String) :
    t.lookup? n name = e.scope.lookup? name := by
  rw [ScopeTable.lookup?, he]
  rfl

theorem isFunction_eq (he : t.entries[n]? = some e) :
    t.isFunction n = (e.scope.kind == .function) := by
  rw [isFunction, he]
  rfl

/-- An update depends only on what it makes of the scope that is there. -/
theorem update_congr (he : t.entries[n]? = some e) {f g : Scope → Scope}
    (h : f e.scope = g e.scope) :
    t.update n f = t.update n g := by
  have hentries : t.entries.modify n (fun e => { e with scope := f e.scope }) =
      t.entries.modify n (fun e => { e with scope := g e.scope }) := by
    apply List.ext_getElem?
    intro i
    rw [List.getElem?_modify, List.getElem?_modify]
    by_cases hi : n = i
    · subst hi
      simp only [he, if_true, Option.map_eq_map, Option.map_some, h]
    · simp only [if_neg hi]
  rw [update, update, hentries]

/-- Putting a scope back changes nothing. -/
theorem update_self (he : t.entries[n]? = some e) : (t.update n fun _ => e.scope) = t := by
  have hsame : t.update n (fun _ => e.scope) = t.update n id := update_congr he rfl
  rw [hsame]
  exact congrArg (ScopeTable.mk · t.current) (List.modify_id n t.entries)

/-- A declaration that is refused leaves the table as it was. -/
theorem declareInPlace_stopped {fault : DeclareFault} (h : t.target? v = .error fault) :
    (declareInPlace v).run.run t = (.error fault, t) := by
  rw [declareInPlace, ExceptT.run_bind, StateT.run_bind]
  change StateT.run (ExceptT.run (liftExcept (t.target? v) >>= _)) t = _
  rw [h]
  rfl

theorem declareInPlace_outside (h : t.target? v = .ok none) :
    (declareInPlace v).run.run t = (.error .outsideScope, t) := by
  rw [declareInPlace, ExceptT.run_bind, StateT.run_bind]
  change StateT.run (ExceptT.run (liftExcept (t.target? v) >>= _)) t = _
  rw [h]
  rfl

/-- Where there is a scope for it, the declaration does to this one scope what adding the
variable to it does. -/
theorem declareInPlace_added (h : t.target? v = .ok (some n)) (he : t.entries[n]? = some e) :
    (declareInPlace v).run.run t = match e.scope.add v with
      | .ok s => (.ok (), t.update n fun _ => s)
      | .error fault => (.error fault, t) := by
  rw [declareInPlace, ExceptT.run_bind, StateT.run_bind]
  change StateT.run (ExceptT.run (liftExcept (t.target? v) >>= _)) t = _
  rw [h]
  change StateT.run (ExceptT.run (match t.lookup? n v.name with | none => _ | some _ => _)) t = _
  rw [lookup?_eq he, Scope.add]
  cases hold : e.scope.lookup? v.name with
  | none => exact congrArg (Prod.mk (Except.ok ())) (update_congr he rfl)
  | some old =>
    dsimp only
    by_cases hlexical : (v.kind.isLexical || old.kind.isLexical) = true
    · simp only [if_pos hlexical]
      rfl
    · simp only [if_neg hlexical]
      by_cases hfunction : (v.kind == .function) = true
      · simp only [if_pos hfunction]
        exact congrArg (Prod.mk (Except.ok ())) (update_congr he rfl)
      · simp only [if_neg hfunction]
        exact congrArg (Prod.mk (Except.ok ())) (update_self he).symm

/-! ## The same as declaring in the chain -/

/-- The scopes along a chain, one by one. -/
theorem scopesAt_cons (he : t.entries[n]? = some e) :
    t.scopesAt (n :: ns) = e.scope :: t.scopesAt ns := by
  rw [scopesAt, List.filterMap_cons, he]
  rfl

/-- A chain within the table has a scope for each of its links. -/
theorem length_scopesAt (hin : ∀ n ∈ ns, n < t.entries.length) :
    (t.scopesAt ns).length = ns.length := by
  induction ns with
  | nil => rfl
  | cons n ns ih =>
    obtain ⟨hn, hin⟩ := List.forall_mem_cons.mp hin
    rw [scopesAt_cons (List.getElem?_eq_getElem hn), List.length_cons, List.length_cons, ih hin]

/-- The nearest function scope is as far out in the chain as its number among the numbers of the
chain. -/
theorem hoistTarget?_eq (hin : ∀ n ∈ ns, n < t.entries.length) (name : String) :
    t.hoistTarget? name ns = (Scope.hoistDistance name (t.scopesAt ns)).map (·.bind (ns[·]?)) := by
  induction ns with
  | nil => rfl
  | cons n ns ih =>
    obtain ⟨hn, hin⟩ := List.forall_mem_cons.mp hin
    have he : t.entries[n]? = some t.entries[n] := List.getElem?_eq_getElem hn
    rw [scopesAt_cons he, hoistTarget?, Scope.hoistDistance, lookup?_eq he, isFunction_eq he,
      ih hin]
    split
    · rfl
    · split
      · rfl
      · cases Scope.hoistDistance name (t.scopesAt ns) with
        | error fault => rfl
        | ok distance => cases distance <;> rfl

theorem getElem?_update (m : Nat) (f : Scope → Scope) :
    (t.update n f).entries[m]? =
      if n = m then t.entries[m]?.map fun e => { e with scope := f e.scope }
      else t.entries[m]? := by
  rw [update, List.getElem?_modify]
  split
  · rfl
  · exact Option.map_id'

/-- Updating an entry changes no scope of a chain that does not lead through it. -/
theorem scopesAt_update (hn : n ∉ ns) (f : Scope → Scope) :
    (t.update n f).scopesAt ns = t.scopesAt ns := by
  refine List.filterMap_congr fun m hm => ?_
  have hne : n ≠ m := fun heq => hn (heq ▸ hm)
  rw [getElem?_update, if_neg hne]

/-- Nothing changes when scopes are put back as they were. -/
theorem store_scopesAt (hin : ∀ n ∈ ns, n < t.entries.length) : t.store ns (t.scopesAt ns) = t := by
  induction ns with
  | nil => rfl
  | cons n ns ih =>
    obtain ⟨hn, hin⟩ := List.forall_mem_cons.mp hin
    have he : t.entries[n]? = some t.entries[n] := List.getElem?_eq_getElem hn
    rw [scopesAt_cons he]
    show (t.update n fun _ => t.entries[n].scope).store ns (t.scopesAt ns) = t
    rw [update_self he, ih hin]

/-- A variable added to one scope of a chain that is put back is added to this scope of the
table. -/
theorem addAt_store (hin : ∀ n ∈ ns, n < t.entries.length) (hnodup : ns.Nodup) {k : Nat}
    (hk : ns[k]? = some n) (he : t.entries[n]? = some e) :
    (Scope.addAt v k (t.scopesAt ns)).map (t.store ns) = (e.scope.add v).map fun s =>
    t.update n fun _ => s := by
  induction ns generalizing k with
  | nil => cases hk
  | cons m ns ih =>
    obtain ⟨hm, hmore⟩ := List.forall_mem_cons.mp hin
    obtain ⟨hmem, hdistinct⟩ := List.nodup_cons.mp hnodup
    have hentry : t.entries[m]? = some t.entries[m] := List.getElem?_eq_getElem hm
    cases k with
    -- By induction on the chain: the entry is the first of it, and the others are put back as they
    -- are,
    | zero =>
      cases hk
      rw [scopesAt_cons he, Scope.addAt]
      cases e.scope.add v with
      | error fault => rfl
      | ok s =>
        have hin : ∀ i ∈ ns, i < (t.update n fun _ => s).entries.length := by
          intro i hi
          rw [update, List.length_modify]
          exact hmore i hi
        have hrest := store_scopesAt hin
        rw [scopesAt_update hmem] at hrest
        exact congrArg Except.ok hrest
    -- or it is further out, and the first is put back as it is.
    | succ k =>
      rw [scopesAt_cons hentry, ← ih hmore hdistinct hk, Scope.addAt]
      cases Scope.addAt v k (t.scopesAt ns) with
      | error fault => rfl
      | ok scopes =>
        change Except.ok ((t.update m fun _ => t.entries[m].scope).store ns scopes) = _
        rw [update_self hentry]
        rfl

/-- Declaring takes the chain out of the table, declares in it and puts it back. -/
theorem declare_eq : t.declare v =
    ((Scope.declareIn (t.scopesAt (t.chain t.current)) v).map
      (t.store (t.chain t.current))).mapError .declare := by
  rw [ScopeTable.declare]
  cases Scope.declareIn (t.scopesAt (t.chain t.current)) v <;> rfl

/-- The current scope stands at the head of its chain. -/
theorem Ordered.chain_head (h : t.Ordered) : (t.chain t.current)[0]? = t.current := by
  cases hc : t.current with
  | none => rw [chain_none, List.getElem?_nil]
  | some c =>
    rw [h.chain_eq (List.getElem?_eq_getElem (h.current c hc))]
    rfl

/-- The entry that a declaration goes to lies on the chain, at the place where the chain
is added to. -/
theorem Ordered.target_mem (h : t.Ordered) (ht : t.target? v = .ok (some n)) :
    ∃ k, (t.chain t.current)[k]? = some n ∧
      Scope.declareIn (t.scopesAt (t.chain t.current)) v =
        Scope.addAt v k (t.scopesAt (t.chain t.current)) := by
  obtain ⟨hin, -⟩ := h.current_chain
  rw [target?] at ht
  by_cases hhoisted : v.kind.isHoisted = true
  · rw [if_pos hhoisted, hoistTarget?_eq hin] at ht
    rw [Scope.declareIn, if_pos hhoisted]
    cases hdistance : Scope.hoistDistance v.name (t.scopesAt (t.chain t.current)) with
    | error fault =>
      rw [hdistance] at ht
      cases ht
    | ok distance =>
      rw [hdistance] at ht
      cases distance with
      -- The scan found no scope of a function, so the declaration is tried in the innermost one.
      | none =>
        refine ⟨0, ?_, rfl⟩
        rw [h.chain_head]
        exact Except.ok.inj ht
      | some k =>
        have hk := Scope.hoistDistance_lt hdistance
        rw [length_scopesAt hin] at hk
        have hm : (t.chain t.current)[k]? = some (t.chain t.current)[k] :=
          List.getElem?_eq_getElem hk
        refine ⟨k, ?_, rfl⟩
        rw [← Except.ok.inj ht]
        show _ = ((t.chain t.current)[k]?).or t.current
        rw [hm, Option.some_or]
  · rw [if_neg hhoisted] at ht
    rw [Scope.declareIn, if_neg hhoisted]
    refine ⟨0, ?_, rfl⟩
    rw [h.chain_head]
    exact Except.ok.inj ht

/-- What stops a declaration in place stops it in the chain. -/
theorem Ordered.target_stopped (h : t.Ordered) {fault : DeclareFault}
    (ht : t.target? v = .error fault) :
    Scope.declareIn (t.scopesAt (t.chain t.current)) v = .error fault := by
  rw [target?] at ht
  by_cases hhoisted : v.kind.isHoisted = true
  · rw [if_pos hhoisted, hoistTarget?_eq h.current_chain.1] at ht
    rw [Scope.declareIn, if_pos hhoisted]
    cases hdistance : Scope.hoistDistance v.name (t.scopesAt (t.chain t.current)) with
    | ok distance =>
      rw [hdistance] at ht
      cases ht
    | error reason =>
      rw [hdistance] at ht
      cases ht
      rfl
  · rw [if_neg hhoisted] at ht
    cases ht

/-- There is no place to go to only where no scope is open. -/
theorem current_of_target (ht : t.target? v = .ok none) : t.current = none := by
  rw [target?] at ht
  split at ht
  · obtain ⟨hoisted, -, hor⟩ := Scope.map_ok ht
    exact (Option.or_eq_none_iff.mp hor).2
  · exact Except.ok.inj ht

/-- What a declaration comes to, in the chain and in place. -/
theorem Ordered.declare_answer (h : t.Ordered) (v : Variable) :
    ∃ answer : Except DeclareFault ScopeTable, t.declare v = answer.mapError .declare ∧
      (declareInPlace v).run.run t = match answer with
        | .ok after => (.ok (), after)
        | .error fault => (.error fault, t) := by
  obtain ⟨hin, hnodup⟩ := h.current_chain
  rw [declare_eq]
  cases ht : t.target? v with
  | error fault =>
    rw [declareInPlace_stopped ht, h.target_stopped ht]
    exact ⟨.error fault, rfl, rfl⟩
  | ok found =>
    cases found with
    | none =>
      rw [declareInPlace_outside ht, current_of_target ht, chain_none]
      refine ⟨.error .outsideScope, ?_, rfl⟩
      show ((Scope.declareIn [] v).map _).mapError _ = _
      rw [Scope.declareIn]
      split <;> rfl
    | some n =>
      obtain ⟨k, hk, hadd⟩ := h.target_mem ht
      have hn : n < t.entries.length := hin n (List.mem_of_getElem? hk)
      have he : t.entries[n]? = some t.entries[n] := List.getElem?_eq_getElem hn
      rw [declareInPlace_added ht he, hadd, addAt_store hin hnodup hk he]
      refine ⟨_, rfl, ?_⟩
      cases t.entries[n].scope.add v <;> rfl

/-- Declaring answers what declaring in place does. -/
theorem Ordered.declare_eq_inPlace (h : t.Ordered) (v : Variable) :
    t.declare v = match (declareInPlace v).run.run t with
      | (.ok _, after) => .ok after
      | (.error fault, _) => .error (.declare fault) := by
  obtain ⟨answer, hdeclare, hinPlace⟩ := h.declare_answer v
  rw [hdeclare, hinPlace]
  cases answer <;> rfl

/-- A declaration in place changes nothing, or it changes the scope that it belongs to. -/
theorem Ordered.declareInPlace_cases (h : t.Ordered) {answer : Except DeclareFault Unit}
    {after : ScopeTable} (hrun : (declareInPlace v).run.run t = (answer, after)) :
    (∃ fault, answer = .error fault ∧ after = t) ∨
      ∃ n e s, t.target? v = .ok (some n) ∧ t.entries[n]? = some e ∧ e.scope.add v = .ok s ∧
      answer = .ok () ∧
        after = t.update n fun _ => s := by
  cases ht : t.target? v with
  | error fault =>
    rw [declareInPlace_stopped ht] at hrun
    cases hrun
    exact .inl ⟨fault, rfl, rfl⟩
  | ok found =>
    cases found with
    | none =>
      rw [declareInPlace_outside ht] at hrun
      cases hrun
      exact .inl ⟨.outsideScope, rfl, rfl⟩
    | some n =>
      obtain ⟨k, hk, -⟩ := h.target_mem ht
      have hn : n < t.entries.length := h.current_chain.1 n (List.mem_of_getElem? hk)
      have he : t.entries[n]? = some t.entries[n] := List.getElem?_eq_getElem hn
      rw [declareInPlace_added ht he] at hrun
      split at hrun
      · next s hadd =>
        cases hrun
        exact .inr ⟨n, _, s, rfl, he, hadd, rfl, rfl⟩
      · next fault hadd =>
        cases hrun
        exact .inl ⟨fault, rfl, rfl⟩

/-- A refused declaration leaves the table as it was. -/
theorem Ordered.declareInPlace_refused (h : t.Ordered) {fault : DeclareFault} {after : ScopeTable}
    (hrefused : (declareInPlace v).run.run t = (.error fault, after)) : after = t := by
  rcases h.declareInPlace_cases hrefused with ⟨_, -, hsame⟩ | ⟨n, e, s, -, -, -, hok, -⟩
  · exact hsame
  · cases hok

end ScopeTable

end EcmaStack

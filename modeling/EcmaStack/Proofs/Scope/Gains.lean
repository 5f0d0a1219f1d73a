import EcmaStack.Proofs.Scope.Growth
import EcmaStack.Proofs.Scope.Homes
import Mathlib.Data.List.Nodup

/-!
# What scopes gain

Scopes that are open gain the names of the declarations whose home they are, and nothing else
(`Scope.Gains`). That is so of one declaration (`declareIn_gains`), where the scopes of the
chain are told apart by their numbers and one of them is a function scope (`Numbered`).

`Scoped s t ds os` says of two states of a parser that between them the names `ds` were declared
and the scopes `os` were opened and closed: the scopes that were open gained what belongs to
them, and each of `os` is numbered afresh, lies where it should and holds the names of `ds` that
belong to it. What was read in one stretch cannot add to the scopes of another, for the numbers
of the scopes opened in each lie in ranges of their own; so stretches compose (`Scoped.trans`),
and a stretch inside a scope becomes one with that scope among those opened (`Scoped.leave`).
-/

namespace EcmaStack

namespace Scope

variable {s t u : Scope} {a b c : List Scope} {v : Variable} {ds es : List Declaration}

/-- The chain that is in force where scopes are open. -/
def frames (scopes : List Scope) : List Frame :=
  scopes.map frame

/-- A scope and the same scope later on, when the declarations that belong to it have been made. -/
structure Gains (ds : List Declaration) (s t : Scope) : Prop where
  frame : t.frame = s.frame
  parent : t.parent = s.parent
  nodup : s.names.Nodup → t.names.Nodup
  names : ∀ x, x ∈ t.names ↔ x ∈ s.names ∨ ⟨some s.serial, x⟩ ∈ ds

/-- A chain of scopes and the same chain later on. -/
def AllGain (ds : List Declaration) : List Scope → List Scope → Prop :=
  List.Forall₂ (Gains ds)

/-- The scopes of a chain are told apart by their numbers, which have been used, and one of them
is a function scope. -/
structure Numbered (fresh : Nat) (chain : List Scope) : Prop where
  distinct : (chain.map (·.serial)).Nodup
  below : ∀ s ∈ chain, s.serial < fresh
  function : ∃ s ∈ chain, s.kind = .function

/-! ## Chains -/

namespace Gains

theorem serial (h : Gains ds s t) : t.serial = s.serial :=
  congrArg Frame.serial h.frame

/-- A scope gains nothing from what was declared elsewhere. -/
theorem unchanged (hs : ∀ x, (⟨some s.serial, x⟩ : Declaration) ∉ ds) : Gains ds s s :=
  ⟨rfl, rfl, id, fun x => by simp [hs x]⟩

/-- A scope gains what is declared in two steps. -/
theorem trans (h : Gains ds s t) (k : Gains es t u) : Gains (ds ++ es) s u := by
  refine ⟨k.frame.trans h.frame, k.parent.trans h.parent, fun hs => k.nodup (h.nodup hs),
    fun x => ?_⟩
  rw [k.names, h.names, h.serial, List.mem_append, or_assoc]

/-- In which order names are counted does not matter here. -/
theorem congr (h : Gains ds s t) (hsame : ∀ d, d ∈ ds ↔ d ∈ es) : Gains es s t :=
  ⟨h.frame, h.parent, h.nodup, fun x => by rw [h.names, hsame]⟩

end Gains

namespace AllGain

theorem unchanged (ha : ∀ s ∈ a, ∀ x, (⟨some s.serial, x⟩ : Declaration) ∉ ds) :
    AllGain ds a a := by
  induction a with
  | nil => exact .nil
  | cons s a ih =>
    exact .cons (.unchanged (ha s List.mem_cons_self))
      (ih fun t ht => ha t (List.mem_cons_of_mem s ht))

theorem refl (a : List Scope) : AllGain [] a a :=
  unchanged fun _ _ _ => List.not_mem_nil

/-- So it is for all scopes of a chain. -/
theorem trans (h : AllGain ds a b) (k : AllGain es b c) : AllGain (ds ++ es) a c := by
  induction h generalizing c with
  | nil =>
    cases k
    exact .nil
  | cons hs _ ih =>
    cases k with
    | cons ht hrest => exact .cons (hs.trans ht) (ih hrest)

theorem congr (h : AllGain ds a b) (hsame : ∀ d, d ∈ ds ↔ d ∈ es) : AllGain es a b :=
  List.Forall₂.imp (fun _ _ hs => hs.congr hsame) h

theorem frames (h : AllGain ds a b) : frames b = frames a := by
  induction h with
  | nil => rfl
  | cons hs _ ih =>
    show _ :: _ = _ :: _
    rw [hs.frame]
    exact congrArg _ ih

end AllGain

theorem serials_of_frames (h : frames b = frames a) : b.map (·.serial) = a.map (·.serial) := by
  have hserials := congrArg (List.map Frame.serial) h
  simpa only [frames, List.map_map, Function.comp_def, frame] using hserials

/-- Looking through the frames is looking through their scopes. -/
theorem find?_frames (p : Frame → Bool) :
    (frames a).find? p = (a.find? fun s => p s.frame).map frame := by
  rw [frames, List.find?_map]
  rfl

namespace Numbered

variable {m n : Nat}

/-- Scopes stay numbered while names are added to them. -/
theorem of_frames (h : Numbered n a) (hframes : frames b = frames a) (hle : n ≤ m) :
    Numbered m b := by
  have hserials := serials_of_frames hframes
  refine ⟨hserials ▸ h.distinct, fun s hs => ?_, ?_⟩
  · have hmem : s.serial ∈ a.map (·.serial) := hserials ▸ List.mem_map_of_mem hs
    obtain ⟨t, ht, heq⟩ := List.mem_map.mp hmem
    exact heq ▸ Nat.lt_of_lt_of_le (h.below t ht) hle
  · obtain ⟨s, hs, hkind⟩ := h.function
    have hmem : s.frame ∈ frames b := hframes ▸ List.mem_map_of_mem hs
    obtain ⟨t, ht, heq⟩ := List.mem_map.mp hmem
    exact ⟨t, ht, (congrArg Frame.kind heq).trans hkind⟩

theorem opened (h : Numbered n a) : a ≠ [] := by
  obtain ⟨s, hs, _⟩ := h.function
  exact List.ne_nil_of_mem hs

/-- A scope that is opened is numbered afresh. -/
theorem cons (h : Numbered n a) (hs : s.serial = n) : Numbered (n + 1) (s :: a) := by
  refine ⟨?_, ?_, ?_⟩
  · rw [List.map_cons, List.nodup_cons]
    refine ⟨fun hmem => ?_, h.distinct⟩
    obtain ⟨t, ht, heq⟩ := List.mem_map.mp hmem
    have := h.below t ht
    omega
  · intro t ht
    rcases List.mem_cons.mp ht with rfl | ht
    · omega
    · exact Nat.lt_succ_of_lt (h.below t ht)
  · obtain ⟨t, ht, hkind⟩ := h.function
    exact ⟨t, List.mem_cons_of_mem s ht, hkind⟩

end Numbered

/-! ## A declaration -/

theorem names_replace : (s.replace v).names = s.names := by
  rw [names, replace, List.map_map, names]
  refine List.map_congr_left fun w _ => ?_
  simp only [Function.comp_apply]
  split
  · next h => exact (beq_iff_eq.mp h).symm
  · rfl

/-- The names of a scope are those of its bindings. -/
theorem mem_names {x : String} : x ∈ s.names ↔ ∃ w ∈ s.bindings, w.name = x := by
  rw [names, List.mem_map]

/-- A variable that is added is among the names, and only once. -/
theorem add_gains (h : s.add v = .ok t) : Gains [⟨some s.serial, v.name⟩] s t := by
  have hnames {x : String} : (⟨some s.serial, x⟩ : Declaration) ∈ [⟨some s.serial, v.name⟩] ↔
      x = v.name := by simp
  unfold add at h
  split at h
  -- A new name is added at the end;
  · next hnone =>
    have hfresh : v.name ∉ s.names := by
      rintro hmem
      obtain ⟨w, hw, hname⟩ := mem_names.mp hmem
      have hno := List.find?_eq_none.mp hnone w hw
      simp [hname] at hno
    cases h
    refine ⟨rfl, rfl, fun hs => ?_, fun x => ?_⟩
    · rw [names, List.map_append]
      exact List.Nodup.append hs (List.nodup_singleton _) (List.disjoint_singleton.mpr hfresh)
    · rw [hnames]
      simp [names]
  -- one that is there already is refused, replaced or left, and none of these changes the names.
  · next old hold =>
    have hmem : v.name ∈ s.names := by
      refine mem_names.mpr ⟨old, List.mem_of_find?_eq_some hold, ?_⟩
      simpa using List.find?_some hold
    have hsame (x : String) : x ∈ s.names ↔ x ∈ s.names ∨ x = v.name := by
      constructor
      · exact Or.inl
      · rintro (hx | rfl)
        · exact hx
        · exact hmem
    split at h
    · cases h
    · split at h
      · cases h
        refine ⟨rfl, rfl, fun hs => ?_, fun x => ?_⟩
        · rw [names_replace]
          exact hs
        · rw [hnames, names_replace]
          exact hsame x
      · cases h
        exact ⟨rfl, rfl, id, fun x => by rw [hnames]; exact hsame x⟩

/-- A variable added at a distance is gained by the scope at that distance. -/
theorem addAt_gains {n : Nat} (ha : (a.map (·.serial)).Nodup) (h : addAt v n a = .ok b) :
    ∃ s, a[n]? = some s ∧ AllGain [⟨some s.serial, v.name⟩] a b := by
  induction a generalizing n b with
  | nil => cases n <;> cases h
  | cons s a ih =>
    obtain ⟨hs, ha⟩ : s.serial ∉ a.map (·.serial) ∧ (a.map (·.serial)).Nodup :=
      List.nodup_cons.mp ha
    cases n with
    | zero =>
      obtain ⟨t, ht, rfl⟩ := map_ok h
      refine ⟨s, rfl, .cons (add_gains ht) (AllGain.unchanged fun u hu x hx => hs ?_)⟩
      have heq : u.serial =
          s.serial := by simpa using congrArg Declaration.home (List.mem_singleton.mp hx)
      rw [← heq]
      exact List.mem_map_of_mem hu
    | succ n =>
      obtain ⟨b', hb', rfl⟩ := map_ok h
      obtain ⟨t, ht, hgain⟩ := ih ha hb'
      refine ⟨t, ht, .cons (.unchanged fun x hx => hs ?_) hgain⟩
      have heq : s.serial =
          t.serial := by simpa using congrArg Declaration.home (List.mem_singleton.mp hx)
      rw [heq]
      exact List.mem_map_of_mem (List.mem_of_getElem? ht)

/-- The distance to the nearest function scope, if one is open. -/
theorem hoistDistance_function {name : String} (hfunction : ∃ s ∈ a, s.kind = .function)
    {found : Option Nat} (h : hoistDistance name a = .ok found) :
    ∃ n, found = some n ∧ a[n]? = a.find? (·.kind == .function) := by
  induction a generalizing found with
  | nil =>
    obtain ⟨s, hs, _⟩ := hfunction
    cases hs
  | cons s a ih =>
    unfold hoistDistance at h
    split at h
    · cases h
    · split at h
      · next hkind =>
        cases h
        exact ⟨0, rfl, by simp [hkind]⟩
      · next hkind =>
        obtain ⟨m, hm, rfl⟩ := map_ok h
        have hrest : ∃ s ∈ a, s.kind = .function := by
          obtain ⟨t, ht, htkind⟩ := hfunction
          rcases List.mem_cons.mp ht with rfl | ht
          · exact absurd (beq_iff_eq.mpr htkind) hkind
          · exact ⟨t, ht, htkind⟩
        obtain ⟨n, rfl, hn⟩ := ih hrest hm
        exact ⟨n + 1, rfl, by simpa [hkind] using hn⟩

/-- A declaration is gained by its home, which is one of the open scopes. -/
theorem declareIn_gains {n : Nat} (ha : Numbered n a) (h : declareIn a v = .ok b) :
    AllGain [⟨v.kind.home (frames a), v.name⟩] a b ∧ ∃ s ∈ a, v.kind.home (frames a) =
      some s.serial := by
  unfold declareIn at h
  unfold DeclKind.home
  split at h
  -- A hoisted name goes to the nearest scope of a function, whose home is found along the same
  -- frames;
  · next hhoisted =>
    cases hdistance : hoistDistance v.name a with
    | error fault =>
      rw [hdistance] at h
      cases h
    | ok found =>
      rw [hdistance] at h
      obtain ⟨m, rfl, hm⟩ := hoistDistance_function ha.function hdistance
      obtain ⟨s, hs, hgain⟩ := addAt_gains ha.distinct h
      have hhome : ((frames a).find? (·.kind == .function)).map (·.serial) = some s.serial := by
        rw [find?_frames]
        show ((a.find? (·.kind == .function)).map frame).map (·.serial) = _
        rw [← hm]
        simp only [Option.getD_some] at hs
        rw [hs]
        rfl
      rw [if_pos hhoisted, hhome]
      exact ⟨hgain, s, List.mem_of_getElem? hs, rfl⟩
  · next hhoisted =>
    obtain ⟨s, hs, hgain⟩ := addAt_gains ha.distinct h
    -- any other is at home in the innermost scope.
    have hhome : innermost (frames a) = some s.serial := by
      cases a with
      | nil => cases hs
      | cons s a =>
        cases hs
        rfl
    rw [if_neg hhoisted, hhome]
    exact ⟨hgain, s, List.mem_of_getElem? hs, rfl⟩

end Scope

/-! ## Stretches -/

open Scope (AllGain Gains Numbered frames)

/-- Between two states names were declared, and scopes were opened and closed. -/
structure Scoped (s t : ParseState) (ds : List Declaration) (os : List (Option Nat × Scope)) :
    Prop where
  start : Numbered s.fresh s.scopes
  fresh : s.fresh ≤ t.fresh
  gains : AllGain ds s.scopes t.scopes
  homes : ∀ d ∈ ds, (∃ x ∈ s.scopes, d.home = some x.serial) ∨ ∃ o ∈ os, d.home = some o.2.serial
  range : ∀ o ∈ os, s.fresh ≤ o.2.serial ∧ o.2.serial < t.fresh
  parents : ∀ o ∈ os, o.2.parent = o.1
  nodup : ∀ o ∈ os, o.2.names.Nodup
  names : ∀ o ∈ os, ∀ x, x ∈ o.2.names ↔ ⟨some o.2.serial, x⟩ ∈ ds
  distinct : (os.map (·.2.serial)).Nodup

namespace Scoped

variable {s t u : ParseState} {ds es : List Declaration} {os ps : List (Option Nat × Scope)}

theorem frames (h : Scoped s t ds os) : frames t.scopes = frames s.scopes :=
  h.gains.frames

theorem numbered (h : Scoped s t ds os) : Numbered t.fresh t.scopes :=
  h.start.of_frames h.frames h.fresh

/-- Nothing was declared or opened. -/
theorem of_eq (hs : Numbered s.fresh s.scopes) (hscopes : t.scopes = s.scopes)
    (hfresh : t.fresh = s.fresh) :
    Scoped s t [] [] where
  start := hs
  fresh := Nat.le_of_eq hfresh.symm
  gains := hscopes ▸ .refl s.scopes
  homes _ hd := nomatch hd
  range _ ho := nomatch ho
  parents _ ho := nomatch ho
  nodup _ ho := nomatch ho
  names _ ho := nomatch ho
  distinct := List.nodup_nil

theorem refl (hs : Numbered s.fresh s.scopes) : Scoped s s [] [] :=
  of_eq hs rfl rfl

/-- In which order names and scopes are counted does not matter. -/
theorem congr (h : Scoped s t ds os) (hds : ∀ d, d ∈ ds ↔ d ∈ es) (hos : os.Perm ps) :
    Scoped s t es ps where
  start := h.start
  fresh := h.fresh
  gains := h.gains.congr hds
  homes d hd := (h.homes d ((hds d).mpr hd)).imp_right fun ⟨o, ho, hhome⟩ =>
    ⟨o, hos.mem_iff.mp ho, hhome⟩
  range o ho := h.range o (hos.mem_iff.mpr ho)
  parents o ho := h.parents o (hos.mem_iff.mpr ho)
  nodup o ho := h.nodup o (hos.mem_iff.mpr ho)
  names o ho x := by rw [h.names o (hos.mem_iff.mpr ho), hds]
  distinct := (hos.map _).nodup_iff.mp h.distinct

/-- What is declared belongs to scopes that were open before, or that were opened meanwhile. -/
theorem home_lt (h : Scoped s t ds os) {d : Declaration} (hd : d ∈ ds) {n : Nat}
    (hn : d.home = some n) : n < t.fresh := by
  rcases h.homes d hd with ⟨x, hx, hhome⟩ | ⟨o, ho, hhome⟩
  · rw [hhome] at hn
    cases hn
    exact Nat.lt_of_lt_of_le (h.start.below x hx) h.fresh
  · rw [hhome] at hn
    cases hn
    exact (h.range o ho).2

/-- One stretch after another. Neither adds to the scopes of the other. -/
theorem trans (h : Scoped s t ds os) (k : Scoped t u es ps) : Scoped s u (ds ++ es) (os ++ ps) where
  start := h.start
  fresh := Nat.le_trans h.fresh k.fresh
  gains := h.gains.trans k.gains
  homes d hd := by
    rcases List.mem_append.mp hd with hd | hd
    · exact (h.homes d hd).imp_right fun ⟨o, ho, hhome⟩ => ⟨o, List.mem_append_left ps ho, hhome⟩
    -- The scopes that stand around the second part are those around the first, told by their
    -- serial numbers.
    · refine (k.homes d hd).imp (fun ⟨x, hx, hhome⟩ => ?_) fun ⟨o, ho, hhome⟩ =>
        ⟨o, List.mem_append_right os ho, hhome⟩
      have hmem : x.serial ∈ s.scopes.map (·.serial) :=
        Scope.serials_of_frames h.frames ▸ List.mem_map_of_mem hx
      obtain ⟨y, hy, heq⟩ := List.mem_map.mp hmem
      exact ⟨y, hy, by rw [heq, hhome]⟩
  range o ho := by
    have := h.fresh
    have := k.fresh
    rcases List.mem_append.mp ho with ho | ho
    · have := h.range o ho
      omega
    · have := k.range o ho
      omega
  parents o ho := (List.mem_append.mp ho).elim (h.parents o) (k.parents o)
  nodup o ho := (List.mem_append.mp ho).elim (h.nodup o) (k.nodup o)
  names o ho x := by
    rw [List.mem_append]
    rcases List.mem_append.mp ho with ho | ho
    -- What the second part declares has its home around both or in the second: not in a scope that
    -- the first has closed.
    · have hno : (⟨some o.2.serial, x⟩ : Declaration) ∉ es := by
        intro hmem
        have hrange := h.range o ho
        have := h.fresh
        rcases k.homes _ hmem with ⟨x, hx, hhome⟩ | ⟨o', ho', hhome⟩
        · have hlt : x.serial < s.fresh := (h.start.of_frames h.frames (Nat.le_refl _)).below x hx
          have heq : o.2.serial = x.serial := Option.some.inj hhome
          omega
        · have := k.range o' ho'
          have heq : o.2.serial = o'.2.serial := Option.some.inj hhome
          omega
      rw [h.names o ho x]
      simp [hno]
    -- What the first part declares is at home in scopes that are older than those of the second.
    · have hno : (⟨some o.2.serial, x⟩ : Declaration) ∉ ds := by
        intro hmem
        have hlt := h.home_lt hmem rfl
        have := k.range o ho
        omega
      rw [k.names o ho x]
      simp [hno]
  distinct := by
    -- Serial numbers are given out in order.
    rw [List.map_append]
    refine List.Nodup.append h.distinct k.distinct fun n hn hn' => ?_
    obtain ⟨o, ho, rfl⟩ := List.mem_map.mp hn
    obtain ⟨o', ho', heq⟩ := List.mem_map.mp hn'
    have := h.range o ho
    have := k.range o' ho'
    omega

/-- A name was declared. -/
theorem declare (hs : Numbered s.fresh s.scopes) {v : Variable}
    (h : Scope.declareIn s.scopes v = .ok t.scopes) (hfresh : t.fresh = s.fresh) :
    Scoped s t [⟨v.kind.home (Scope.frames s.scopes), v.name⟩] [] := by
  obtain ⟨hgain, x, hx, hhome⟩ := Scope.declareIn_gains hs h
  refine { of_eq hs rfl rfl with
    fresh := Nat.le_of_eq hfresh.symm
    gains := hgain
    homes := ?_
    range := nofun
    parents := nofun
    nodup := nofun
    names := nofun }
  intro d hd
  rw [List.mem_singleton.mp hd]
  exact .inl ⟨x, hx, hhome⟩

/-- A scope that was opened at the start holds, once it is closed, the names that belong to it. -/
theorem closed {scope : Scope} (hempty : scope.bindings = []) (h : Scoped (s.enter scope) u ds os) :
    ∃ closed, u.scopes.head? = some closed ∧ closed.frame = ⟨s.fresh, scope.kind⟩ ∧
      closed.parent = innermost (Scope.frames s.scopes) ∧ closed.names.Nodup ∧
      (∀ x, x ∈ closed.names ↔ ⟨some closed.serial, x⟩ ∈ ds) ∧
      AllGain ds s.scopes u.scopes.tail := by
  have hgains := h.gains
  obtain ⟨closed, rest, hscopes, hclosed, hrest⟩ : ∃ closed rest, u.scopes = closed :: rest ∧
      Gains ds { scope with serial := s.fresh, parent := s.scopes.head?.map (·.serial) } closed ∧
        AllGain ds s.scopes rest := by
    generalize u.scopes = scopes at hgains
    cases hgains with
    | cons hclosed hrest => exact ⟨_, _, rfl, hclosed, hrest⟩
  have hnothing :
      Scope.names { scope with serial := s.fresh, parent := s.scopes.head?.map (·.serial) } =
      [] := by
    show scope.bindings.map _ = []
    rw [hempty, List.map_nil]
  have hserial : closed.serial = s.fresh := hclosed.serial
  rw [hscopes]
  refine ⟨closed, rfl, hclosed.frame, ?_, hclosed.nodup (hnothing ▸ List.nodup_nil), fun x => ?_,
    hrest⟩
  · rw [hclosed.parent]
    cases s.scopes <;> rfl
  · rw [hclosed.names, hnothing, hserial]
    simp

/-- What was read in a scope, once the scope is closed. -/
theorem leave {scope : Scope} (hs : Numbered s.fresh s.scopes) (hempty : scope.bindings = [])
    (h : Scoped (s.enter scope) u ds os) :
    ∃ closed, u.scopes.head? = some closed ∧ closed.frame = ⟨s.fresh, scope.kind⟩ ∧
      Scoped s { u with scopes := u.scopes.tail } ds ((innermost (Scope.frames s.scopes), closed) ::
        os) := by
  obtain ⟨closed, hhead, hframe, hparent, hnodup, hnames, hgains⟩ := h.closed hempty
  have hfresh : s.fresh + 1 ≤ u.fresh := h.fresh
  have hserial : closed.serial = s.fresh := congrArg Scope.Frame.serial hframe
  refine ⟨closed, hhead, hframe, ?_⟩
  exact {
    start := hs
    fresh := Nat.le_of_succ_le hfresh
    gains := hgains
    homes := fun d hd => by
      rcases h.homes d hd with ⟨x, hx, hhome⟩ | ⟨o, ho, hhome⟩
      · rcases List.mem_cons.mp hx with rfl | hx
        · exact .inr ⟨_, List.mem_cons_self, by rw [hhome, hserial]⟩
        · exact .inl ⟨x, hx, hhome⟩
      · exact .inr ⟨o, List.mem_cons_of_mem _ ho, hhome⟩
    range := List.forall_mem_cons.mpr ⟨⟨Nat.le_of_eq hserial.symm, hserial ▸ hfresh⟩, fun o ho =>
      ⟨Nat.le_of_succ_le (h.range o ho).1, (h.range o ho).2⟩⟩
    parents := List.forall_mem_cons.mpr ⟨hparent, h.parents⟩
    nodup := List.forall_mem_cons.mpr ⟨hnodup, h.nodup⟩
    names := List.forall_mem_cons.mpr ⟨hnames, h.names⟩
    distinct := by
      rw [List.map_cons, List.nodup_cons]
      refine ⟨fun hmem => ?_, h.distinct⟩
      obtain ⟨o, ho, heq⟩ := List.mem_map.mp hmem
      have hrange : s.fresh + 1 ≤ o.2.serial := (h.range o ho).1
      have hserials : o.2.serial = closed.serial := heq
      omega }

/-- A scope in which nothing was declared may be dropped. -/
theorem drop {scope : Scope} (hs : Numbered s.fresh s.scopes) (h : Scoped (s.enter scope) u [] []) :
    Scoped s { u with scopes := u.scopes.tail } [] [] := by
  refine { of_eq hs rfl rfl with
    fresh := Nat.le_of_succ_le (show s.fresh + 1 ≤ u.fresh from h.fresh)
    gains := ?_
    range := nofun }
  have hgains := h.gains
  show AllGain [] s.scopes u.scopes.tail
  generalize u.scopes = scopes at hgains
  cases hgains with
  | cons _ hrest => exact hrest

end Scoped

end EcmaStack

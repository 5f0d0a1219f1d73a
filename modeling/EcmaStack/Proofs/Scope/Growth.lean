import EcmaStack.Tree.Basic
import Mathlib.Data.List.Forall2

/-!
# Scopes only gain names

A declaration changes one scope of the chain it is made in, and only adds to it: the scopes of
the chain keep their kinds and every name they declare (`declareIn_grows`). Afterwards the chain
binds the name (`declareIn_binds`).

`Covers` compares two chains by the names they bind. A chain that has grown covers what it was,
and a function scope alone covers any chain it stands at the head of, for nothing is looked up
beyond it.
-/

namespace EcmaStack.Scope

/-- A scope and the same scope later on. -/
structure Grows (s t : Scope) : Prop where
  kind : t.kind = s.kind
  declares : ∀ x, s.declares x = true → t.declares x = true

/-- A chain of scopes and the same chain later on. -/
def AllGrow : List Scope → List Scope → Prop :=
  List.Forall₂ Grows

/-- Every name that the first chain binds is bound by the second. -/
def Covers (a b : List Scope) : Prop :=
  ∀ x, binds x a = true → binds x b = true

/-- Every one of the names is bound by the chain. -/
def BindsAll (chain : List Scope) (names : List Name) : Prop :=
  ∀ n ∈ names, binds n.text chain = true

variable {s t : Scope} {a b c : List Scope} {v : Variable}

/-! ## Growth -/

theorem Grows.refl (s : Scope) : Grows s s :=
  ⟨rfl, fun _ h => h⟩

/-- A scope that grows twice has grown. -/
theorem Grows.trans {u : Scope} (h : Grows s t) (k : Grows t u) : Grows s u :=
  ⟨k.kind.trans h.kind, fun x hx => k.declares x (h.declares x hx)⟩

theorem AllGrow.refl (a : List Scope) : AllGrow a a := by
  induction a with
  | nil => exact .nil
  | cons s a ih => exact .cons (.refl s) ih

/-- So have all scopes of a chain. -/
theorem AllGrow.trans (h : AllGrow a b) (k : AllGrow b c) : AllGrow a c := by
  induction h generalizing c with
  | nil => exact k
  | cons hs _ ih =>
    cases k with
    | cons ht hrest => exact .cons (hs.trans ht) (ih hrest)

/-! ## Chains that bind more -/

/-- A name is bound by the innermost scope or, unless that is a function's, by those
around it. -/
theorem binds_cons {x : String} :
    binds x (s :: a) = true ↔ s.declares x = true ∨ (s.kind ≠ .function ∧ binds x a = true) := by
  simp only [binds, Bool.or_eq_true, Bool.and_eq_true, bne_iff_ne]

theorem Covers.refl (a : List Scope) : Covers a a :=
  fun _ h => h

theorem Covers.trans (h : Covers a b) (k : Covers b c) : Covers a c :=
  fun x hx => k x (h x hx)

/-- A chain that covers another does so under one more scope. -/
theorem Covers.cons (h : Covers a b) : Covers (s :: a) (s :: b) := by
  intro x hx
  rcases binds_cons.mp hx with hs | ⟨hkind, ha⟩
  · exact binds_cons.mpr (.inl hs)
  · exact binds_cons.mpr (.inr ⟨hkind, h x ha⟩)

/-- Behind the scope of a function nothing is looked up. -/
theorem Covers.of_function (hs : s.kind = .function) : Covers (s :: a) [s] := by
  intro x hx
  rcases binds_cons.mp hx with hx | ⟨hkind, _⟩
  · exact binds_cons.mpr (.inl hx)
  · exact absurd hs hkind

/-- What has grown binds at least what it bound. -/
theorem AllGrow.covers (h : AllGrow a b) : Covers a b := by
  induction h with
  | nil => exact .refl []
  | cons hs _ ih =>
    intro x hx
    rcases binds_cons.mp hx with hx | ⟨hkind, hx⟩
    · exact binds_cons.mpr (.inl (hs.declares x hx))
    · exact binds_cons.mpr (.inr ⟨hs.kind ▸ hkind, ih x hx⟩)

theorem bindsAll_append {names more : List Name} :
    BindsAll a (names ++ more) ↔ BindsAll a names ∧ BindsAll a more :=
  List.forall_mem_append

/-! ## Declarations -/

theorem declares_iff {x : String} : s.declares x = true ↔ ∃ w ∈ s.bindings, w.name = x := by
  simp only [declares, lookup?, List.find?_isSome, beq_iff_eq]

/-- Changing how a name was declared keeps it declared. -/
theorem replace_grows : Grows s (s.replace v) := by
  refine ⟨rfl, fun x hx => ?_⟩
  obtain ⟨w, hw, rfl⟩ := declares_iff.mp hx
  refine declares_iff.mpr ⟨_, List.mem_map_of_mem hw, ?_⟩
  split
  · next hname => exact (beq_iff_eq.mp hname).symm
  · rfl

/-- A scope to which a variable has been added has it, and what it had before. -/
theorem add_grows (h : s.add v = .ok t) : Grows s t ∧ t.declares v.name = true := by
  unfold add at h
  split at h
  · cases h
    refine ⟨⟨rfl, fun x hx => ?_⟩, declares_iff.mpr ⟨v, by simp, rfl⟩⟩
    obtain ⟨w, hw, rfl⟩ := declares_iff.mp hx
    exact declares_iff.mpr ⟨w, List.mem_append_left [v] hw, rfl⟩
  · next old hold =>
    have hdeclared : s.declares v.name = true := by rw [declares, hold, Option.isSome_some]
    split at h
    · cases h
    · split at h
      · cases h
        exact ⟨replace_grows, replace_grows.declares v.name hdeclared⟩
      · cases h
        exact ⟨.refl s, hdeclared⟩

/-- What an answer was made from. -/
theorem map_ok {ε α β : Type} {f : α → β} {x : Except ε α} {y : β} (h : x.map f = .ok y) :
    ∃ a, x = .ok a ∧ f a = y := by
  cases x with
  | error fault => cases h
  | ok a =>
    cases h
    exact ⟨a, rfl, rfl⟩

/-- Declaring a name in an outer scope lets the chain grow. -/
theorem addAt_grows {n : Nat} (h : addAt v n a = .ok b) : AllGrow a b := by
  induction a generalizing n b with
  | nil => cases n <;> cases h
  | cons s a ih =>
    cases n with
    | zero =>
      obtain ⟨t, ht, rfl⟩ := map_ok h
      exact .cons (add_grows ht).1 (AllGrow.refl a)
    | succ n =>
      obtain ⟨b', hb', rfl⟩ := map_ok h
      exact .cons (.refl s) (ih hb')

/-- A variable added to the innermost scope is bound. -/
theorem addAt_zero_binds (h : addAt v 0 a = .ok b) : binds v.name b = true := by
  cases a with
  | nil => cases h
  | cons s a =>
    obtain ⟨t, ht, rfl⟩ := map_ok h
    exact binds_cons.mpr (.inl (add_grows ht).2)

/-- So is one added to the nearest function scope: there is none on the way that would hide it. -/
theorem addAt_hoistDistance_binds {n : Nat} (hn : hoistDistance v.name a = .ok (some n))
    (h : addAt v n a = .ok b) :
    binds v.name b = true := by
  induction a generalizing n b with
  | nil => cases hn
  | cons s a ih =>
    unfold hoistDistance at hn
    split at hn
    · cases hn
    · split at hn
      · cases hn
        exact addAt_zero_binds h
      · next hkind =>
        obtain ⟨m, hm, hmn⟩ := map_ok hn
        obtain ⟨m, rfl, rfl⟩ := Option.map_eq_some_iff.mp hmn
        obtain ⟨b', hb', rfl⟩ := map_ok h
        exact binds_cons.mpr (.inr ⟨fun hs => hkind (beq_iff_eq.mpr hs), ih hm hb'⟩)

/-- The nearest function scope is one of the chain. -/
theorem hoistDistance_lt {n : Nat} (h : hoistDistance v.name a = .ok (some n)) : n < a.length := by
  induction a generalizing n with
  | nil => cases h
  | cons s a ih =>
    unfold hoistDistance at h
    split at h
    · cases h
    · split at h
      · cases h
        exact Nat.succ_pos _
      · obtain ⟨m, hm, hmn⟩ := map_ok h
        obtain ⟨m, rfl, rfl⟩ := Option.map_eq_some_iff.mp hmn
        exact Nat.succ_lt_succ (ih hm)

/-- A declaration is an addition to one scope of the chain. -/
theorem declareIn_addAt (h : declareIn a v = .ok b) :
    ∃ n, addAt v n a = .ok b ∧ (n = 0 ∨ hoistDistance v.name a = .ok (some n)) := by
  unfold declareIn at h
  split at h
  · cases hn : hoistDistance v.name a with
    | error fault =>
      rw [hn] at h
      cases h
    | ok found =>
      rw [hn] at h
      cases found with
      | none => exact ⟨0, h, .inl rfl⟩
      | some n => exact ⟨n, h, .inr rfl⟩
  · exact ⟨0, h, .inl rfl⟩

/-- A declaration lets the chain grow, -/
theorem declareIn_grows (h : declareIn a v = .ok b) : AllGrow a b := by
  obtain ⟨n, hn, _⟩ := declareIn_addAt h
  exact addAt_grows hn

/-- and its name is bound from then on. -/
theorem declareIn_binds (h : declareIn a v = .ok b) : binds v.name b = true := by
  obtain ⟨n, hn, rfl | hfunction⟩ := declareIn_addAt h
  · exact addAt_zero_binds hn
  · exact addAt_hoistDistance_binds hfunction hn

end EcmaStack.Scope

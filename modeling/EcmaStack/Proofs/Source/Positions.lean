import EcmaStack.Source.File
import EcmaStack.Proofs.Text.Encoded
import EcmaStack.Proofs.Token.Reading
import Mathlib.Data.List.Basic
import Mathlib.Data.List.GetD
import Mathlib.Data.List.TakeWhile

/-!
# Positions are exact

The line of an offset counts the line ends that the scanner reads up to it, from the start of
the file on (`SourceFile.lineEnds`), and its column counts the code points since the last of
them. So the offsets at which code points start and stop are told apart by their positions, in
order, and the lines of a file with the line ends between them are the file (`positions_exact`).

An offset need not be one of these. The bytes before it are read on their own, and of a code
point that it cuts through each byte counts as a column (`SourceFile.cut`), so an offset inside
a code point may get a column that lies behind the code point (`positions_misordered`).
-/

namespace EcmaStack

open Text Cursor

/-! ## Where pieces stop -/

namespace Text

/-- Where the pieces of a text stop that starts at an offset. -/
def stops : Nat → Text → List Nat
  | _, [] => []
  | offset, p :: rest => (offset + p.width) :: stops (offset + p.width) rest

variable {offset o : Nat} {text : Text}

/-- Where the pieces of a text end, one text behind the other. -/
theorem stops_append (a b : Text) :
    stops offset (a ++ b) = stops offset a ++ stops (offset + a.width) b := by
  induction a generalizing offset with
  | nil => rfl
  | cons p a ih =>
    rw [List.cons_append, stops, ih, stops, width_cons, Nat.add_assoc, List.cons_append]

/-- Pieces end behind the start of the text and not behind its end. -/
theorem bounds_of_mem_stops (h : o ∈ stops offset text) : offset < o ∧ o ≤ offset + text.width := by
  induction text generalizing offset with
  | nil => cases h
  | cons p rest ih =>
    have hwidth := p.width_pos
    rw [width_cons]
    rcases List.mem_cons.mp h with rfl | h
    · omega
    · have := ih h
      omega

/-- A text can be cut where a piece stops. -/
theorem cut_of_mem_stops (h : o ∈ stops offset text) :
    ∃ a b, text = a ++ b ∧ o = offset + a.width := by
  induction text generalizing offset with
  | nil => cases h
  | cons p rest ih =>
    rcases List.mem_cons.mp h with rfl | h
    · exact ⟨[p], rest, rfl, rfl⟩
    · obtain ⟨a, b, rfl, rfl⟩ := ih h
      exact ⟨p :: a, b, rfl, by rw [width_cons, Nat.add_assoc]⟩

/-- The last piece ends where the text does. -/
theorem getLast?_stops : (stops offset text).getLast?.getD offset = offset + text.width := by
  induction text generalizing offset with
  | nil => rfl
  | cons p rest ih =>
    rw [stops, List.getLast?_cons, Option.getD_some, ih, width_cons, Nat.add_assoc]

/-- Each piece ends behind the one before it, since none is empty. -/
theorem stops_ascend : (stops offset text).Pairwise (· < ·) := by
  induction text generalizing offset with
  | nil => exact .nil
  | cons p rest ih => exact .cons (fun o ho => (bounds_of_mem_stops ho).1) ih

/-- Of bytes that are cut off after some of them, those pieces are read that stop there or
before, and each byte of a character that is cut through is read on its own. -/
theorem length_decode_take (offset : Nat) {bytes : List UInt8} {n : Nat} (hn : n ≤ bytes.length) :
    (decode (bytes.take n)).length =
      ((stops offset (decode bytes)).filter (· ≤ offset + n)).length +
      (offset + n - ((stops offset (decode bytes)).filter (· ≤ offset + n)).getLast?.getD
        offset) := by
  induction hlength : bytes.length using Nat.strongRecOn generalizing bytes offset n with
  -- By induction on the length: the cut is behind the first piece or inside it.
  | _ length ih =>
    by_cases hne : bytes = []
    · subst hne
      obtain rfl : n = 0 := by simpa using hn
      simp [decode_nil, stops]
    obtain ⟨p, hp, hdecode, hcut⟩ := decode_head hne
    have hwidth := p.width_pos
    rw [hdecode, stops]
    by_cases hpiece : p.width ≤ n
    · obtain ⟨m, rfl⟩ := Nat.exists_eq_add_of_le hpiece
      have hlonger : m ≤ (bytes.drop p.width).length := by
        rw [List.length_drop]
        omega
      have hrest := ih _ (by omega) (offset + p.width) hlonger List.length_drop
      rw [hcut _ hpiece, List.drop_take, Nat.add_sub_cancel_left, List.length_cons, hrest,
        List.filter_cons_of_pos (by simp), List.length_cons, List.getLast?_cons,
        Option.getD_some, ← Nat.add_assoc]
      omega
    · -- The first piece is cut through: it is a character, and no piece stops before it does.
      have hnone :
          ((offset + p.width) :: stops (offset + p.width) (decode (bytes.drop p.width))).filter
          (· ≤ offset + n) = [] := by
        refine List.filter_eq_nil_iff.mpr fun o ho => ?_
        have hfar : offset + p.width ≤ o := by
          rcases List.mem_cons.mp ho with rfl | ho
          · exact Nat.le_refl _
          · exact Nat.le_of_lt (bounds_of_mem_stops ho).1
        rw [decide_eq_true_eq]
        omega
      rw [hnone]
      cases hhead : headChar? bytes with
      | none =>
        obtain ⟨b, rest, rfl⟩ := List.exists_cons_of_ne_nil hne
        rw [decode_stray hhead] at hdecode
        obtain ⟨rfl, _⟩ := List.cons.inj hdecode
        obtain rfl : n = 0 := by
          change ¬ 1 ≤ n at hpiece
          omega
        simp [decode_nil]
      | some c =>
        rw [decode_char hhead] at hdecode
        obtain ⟨rfl, _⟩ := List.cons.inj hdecode
        rw [decode_cut hhead (Nat.lt_of_not_le hpiece), List.length_map, List.length_take,
          Nat.min_eq_left hn]
        simp

end Text

/-! ## Line ends -/

/-- A line end is read: characters that end a line, from where it starts to where it stops. -/
structure EndsLine (c : Cursor) (t : Token) (d : Cursor) (ending : Text) : Prop where
  rest : c.rest = ending ++ d.rest
  ends : ∀ p ∈ ending, isLineTerminator p.scalar = true
  nonempty : ending ≠ []
  start : t.start = c.offset
  stop : t.stop = c.offset + ending.width
  offset : d.offset = t.stop

/-- A line terminator is one character, or a carriage return with the line feed behind it. -/
theorem readLineTerminator_some {c d : Cursor} {t : Token}
    (h : readLineTerminator c = some (t, d)) :
    ∃ ending, EndsLine c t d ending := by
  unfold readLineTerminator at h
  split at h
  · cases h
  · next p rest hrest =>
    split at h
    · next hp =>
      cases h
      split
      · next hreturn =>
        obtain rfl := beq_iff_eq.mp hreturn
        cases htake : Cursor.take? ⟨rest, c.offset + (Piece.char '\r').width⟩ '\n' with
        | none => exact ⟨[.char '\r'], hrest, by simpa using hp, nofun, rfl, rfl, rfl⟩
        | some d =>
          obtain ⟨hnewline, hoffset⟩ := take?_eq_some htake
          refine ⟨[.char '\r', .char '\n'], ?_, by decide, nofun, rfl, ?_, rfl⟩
          · rw [hrest, show rest = _ from hnewline]
            rfl
          · exact hoffset
      · exact ⟨[p], hrest, by simpa using hp, nofun, rfl, rfl, rfl⟩
    · cases h

/-- Reading it moves on by what it is made of. -/
theorem EndsLine.passes {c d : Cursor} {t : Token} {ending : Text} (h : EndsLine c t d ending) :
    c.Passes d := by
  refine ⟨⟨ending, h.rest, h.offset.trans h.stop⟩, ?_⟩
  rw [h.rest, List.length_append]
  have := List.length_pos_iff.mpr h.nonempty
  omega

/-- The line ends from a cursor on, each read where it stands; what stands between them is
passed over. -/
def Cursor.lineEnds (c : Cursor) : List Token :=
  match _hc : readLineTerminator c with
  | some (t, d) => t :: d.lineEnds
  | none =>
    match c with
    | ⟨[], _⟩ => []
    | ⟨p :: rest, offset⟩ => lineEnds ⟨rest, offset + p.width⟩
termination_by c.rest.length
decreasing_by
  · obtain ⟨_, hends⟩ := readLineTerminator_some _hc
    exact hends.passes.shorter
  · exact Nat.lt_succ_self _

/-- The ends of lines from here on: this one and those behind it. -/
theorem lineEnds_of_some {c d : Cursor} {t : Token} (h : readLineTerminator c = some (t, d)) :
    c.lineEnds = t :: d.lineEnds := by
  rw [Cursor.lineEnds]
  split
  · next hread =>
    rw [h] at hread
    cases hread
    rfl
  · next hread =>
    rw [h] at hread
    cases hread

theorem lineEnds_nil {offset : Nat} : lineEnds ⟨[], offset⟩ = [] := by
  rw [lineEnds]
  rfl

/-- A character that ends no line is passed. -/
theorem lineEnds_cons {p : Piece} {rest : Text} {offset : Nat}
    (h : isLineTerminator p.scalar = false) :
    lineEnds ⟨p :: rest, offset⟩ = lineEnds ⟨rest, offset + p.width⟩ := by
  rw [lineEnds]
  split
  · next hread =>
    simp [readLineTerminator, h] at hread
  · rfl

/-- What holds no line end is passed over. -/
theorem lineEnds_append {body rest : Text} {offset : Nat}
    (h : ∀ p ∈ body, isLineTerminator p.scalar = false) :
    lineEnds ⟨body ++ rest, offset⟩ = lineEnds ⟨rest, offset + body.width⟩ := by
  induction body generalizing offset with
  | nil => rfl
  | cons p body ih =>
    rw [List.cons_append, lineEnds_cons (h p List.mem_cons_self),
      ih fun q hq => h q (List.mem_cons_of_mem p hq), width_cons, Nat.add_assoc]

/-- Lines start where line ends stop. -/
theorem lineStartsFrom_eq (offset : Nat) (text : Text) :
    SourceFile.lineStartsFrom offset text = (lineEnds ⟨text, offset⟩).map (·.stop) := by
  fun_induction SourceFile.lineStartsFrom offset text with
  | case1 offset => rw [lineEnds_nil, List.map_nil]
  | case2 offset rest ih =>
    rw [lineEnds_of_some (c := ⟨.char '\r' :: .char '\n' :: rest, offset⟩) rfl, List.map_cons, ih]
    rfl
  | case3 offset p rest hpair next hline ih =>
    have hread : ∃ t, readLineTerminator ⟨p :: rest, offset⟩ = some (t, ⟨rest, next⟩) ∧ t.stop =
        next := by
      by_cases hreturn : p = .char '\r'
      · subst hreturn
        have htake : Cursor.take? ⟨rest, next⟩ '\n' = none := by
          cases htake : Cursor.take? ⟨rest, next⟩ '\n' with
          | none => rfl
          | some d => exact absurd (take?_eq_some htake).1 (hpair d.rest rfl)
        simp only [readLineTerminator, hline, if_true, beq_self_eq_true]
        rw [htake]
        exact ⟨_, rfl, rfl⟩
      · simp only [readLineTerminator, hline, if_true, beq_eq_false_iff_ne.mpr hreturn]
        exact ⟨_, rfl, rfl⟩
    obtain ⟨t, hread, hstop⟩ := hread
    rw [lineEnds_of_some hread, List.map_cons, hstop, ih]
  | case4 offset p rest hpair next hline ih => rw [lineEnds_cons (Bool.not_eq_true _ ▸ hline), ih]

/-- A text is one line, or it starts with a line and what ends it. -/
theorem line_cases (offset : Nat) (text : Text) : (∀ p ∈ text, isLineTerminator p.scalar = false) ∨
    ∃ body ending t d, text = body ++ ending ++ d.rest ∧
    (∀ p ∈ body, isLineTerminator p.scalar = false) ∧
      EndsLine ⟨ending ++ d.rest, offset + width body⟩ t d ending ∧ lineEnds ⟨text, offset⟩ =
        t :: lineEnds d := by
  have hsplit := List.takeWhile_append_dropWhile (p := fun p : Piece => !isLineTerminator p.scalar)
    (l := text)
  have hbody : ∀ p ∈ text.takeWhile fun p => !isLineTerminator p.scalar, isLineTerminator p.scalar =
      false := by
    intro p hp
    simpa using List.all_eq_true.mp List.all_takeWhile p hp
  have hstops := List.head?_dropWhile_not (fun p : Piece => !isLineTerminator p.scalar) text
  generalize text.takeWhile (fun p => !isLineTerminator p.scalar) = body at hsplit hbody
  generalize text.dropWhile (fun p => !isLineTerminator p.scalar) = after at hsplit hstops
  subst hsplit
  cases after with
  | nil => exact .inl (by simpa using hbody)
  | cons p after =>
    have hp : isLineTerminator p.scalar = true := by simpa using hstops
    obtain ⟨t, d, hread⟩ : ∃ t d, readLineTerminator ⟨p :: after, offset + width body⟩ =
        some (t, d) := by
      simp only [readLineTerminator, hp, if_true]
      exact ⟨_, _, rfl⟩
    obtain ⟨ending, hends⟩ := readLineTerminator_some hread
    have hrest : p :: after = ending ++ d.rest := hends.rest
    refine .inr ⟨body, ending, t, d, ?_, hbody, hrest ▸ hends, ?_⟩
    · rw [hrest, List.append_assoc]
    · rw [lineEnds_append hbody, lineEnds_of_some hread]

/-- Line ends stop where pieces do. -/
theorem lineEnds_sublist (text : Text) (offset : Nat) :
    ((lineEnds ⟨text, offset⟩).map (·.stop)).Sublist (stops offset text) := by
  rw [← lineStartsFrom_eq]
  fun_induction SourceFile.lineStartsFrom offset text with
  | case1 => exact .slnil
  | case2 offset rest ih => exact .cons _ (.cons_cons _ ih)
  | case3 offset p rest hpair next hline ih => exact .cons_cons _ ih
  | case4 offset p rest hpair next hline ih => exact .cons _ ih

/-- The beginning of an ascending list is what is small in it. -/
theorem takeWhile_eq_filter {ns : List Nat} (h : ns.Pairwise (· < ·)) (o : Nat) :
    ns.takeWhile (· ≤ o) = ns.filter (· ≤ o) := by
  induction h with
  | nil => rfl
  | @cons n ns hn _ ih =>
    by_cases hle : n ≤ o
    · rw [List.takeWhile_cons_of_pos (by simpa using hle),
        List.filter_cons_of_pos (by simpa using hle), ih]
    · rw [List.takeWhile_cons_of_neg (by simpa using hle),
        List.filter_cons_of_neg (by simpa using hle), eq_comm, List.filter_eq_nil_iff]
      intro m hm
      have := hn m hm
      simp only [decide_eq_true_eq]
      omega

/-! ## The linear reading of a file -/

/-- A position stands before another one: on an earlier line, or in an earlier column of the
same line. -/
def Position.Before (p q : Position) : Prop :=
  p.line < q.line ∨ p.line = q.line ∧ p.column < q.column

instance (p q : Position) : Decidable (p.Before q) :=
  inferInstanceAs (Decidable (_ ∨ _))

/-- Lines with the line ends that stand between them. -/
def joinLines : List Text → List Text → Text
  | line :: lines, ending :: endings => line ++ ending ++ joinLines lines endings
  | lines, _ => lines.flatten

namespace SourceFile

variable (f : SourceFile) {s b o p : Nat}

/-- The offset in the file that an offset stands for: its start before it, its end behind it. -/
def clamp (offset : Int) : Nat :=
  min offset.toNat f.size

/-- The line ends of the file, as the scanner reads them from its start on. -/
def lineEnds : List Token :=
  (Cursor.ofText f.text).lineEnds

/-- The line ends that stop at an offset or before it. -/
def lineEndsTo (o : Nat) : List Token :=
  f.lineEnds.filter (·.stop ≤ o)

/-- Where the last of these line ends stops; the start of the file if there is none. -/
def lastStop (o : Nat) : Nat :=
  ((f.lineEndsTo o).getLast?.map (·.stop)).getD 0

/-- The offsets at which code points start or stop; the start of the file is one, and so is its
end. -/
def boundaries : List Nat :=
  0 :: stops 0 f.text

/-- How many code points stop behind an offset and not behind another. -/
def codePoints (start stop : Nat) : Nat :=
  (f.boundaries.filter fun b => start < b && b ≤ stop).length

/-- How many bytes of the code point that an offset cuts through stand before the offset. -/
def cut (o : Nat) : Nat :=
  o - (f.boundaries.filter (· ≤ o)).getLast?.getD 0

/-- The lines of the file. -/
def lines : List Text :=
  (List.range f.lineCount).map fun i : Nat => f.line (i + 1)

/-- What stands between the lines of the file. -/
def lineEndings : List Text :=
  f.lineEnds.map fun t => f.slice t.start t.stop

variable {f}

/-! ## Columns -/

/-- The file on both sides of a boundary. -/
theorem split_boundaries (h : s ∈ f.boundaries) : ∃ a b, f.text = a ++ b ∧ s = a.width ∧
    Text.decode (f.bytes.drop s) = b ∧ f.boundaries = 0 :: stops 0 a ++ stops s b := by
  obtain ⟨a, b, htext, hs⟩ : ∃ a b, f.text = a ++ b ∧ s = a.width := by
    rcases List.mem_cons.mp h with rfl | h
    · exact ⟨[], f.text, rfl, rfl⟩
    · obtain ⟨a, b, htext, hs⟩ := cut_of_mem_stops h
      exact ⟨a, b, htext, by rw [hs, Nat.zero_add]⟩
  refine ⟨a, b, htext, hs, ?_, ?_⟩
  · rw [hs]
    exact (decode_split htext).2.2
  · rw [boundaries, htext, stops_append, Nat.zero_add, hs, List.cons_append]

/-- The boundaries up to an offset behind a boundary. -/
theorem filter_boundaries {a b : Text} (hs : s = a.width)
    (hsplit : f.boundaries = 0 :: stops 0 a ++ stops s b) (hso : s ≤ o) :
    f.boundaries.filter (· ≤ o) = 0 :: stops 0 a ++ (stops s b).filter (· ≤ o) := by
  rw [hsplit, List.filter_append, List.filter_eq_self.mpr]
  intro x hx
  rcases List.mem_cons.mp hx with rfl | hx
  · simp
  · have := (bounds_of_mem_stops hx).2
    simp only [decide_eq_true_eq]
    omega

theorem getLast?_boundaries {a : Text} {l : List Nat} :
    (0 :: stops 0 a ++ l).getLast?.getD 0 = l.getLast?.getD a.width := by
  rw [List.getLast?_append, List.getLast?_cons, getLast?_stops, Nat.zero_add]
  cases l.getLast? <;> rfl

/-- How many characters lie between two boundaries: the boundaries between them are
counted. -/
theorem codePoints_eq {a b : Text} (hs : s = a.width)
    (hsplit : f.boundaries = 0 :: stops 0 a ++ stops s b) :
    f.codePoints s o = ((stops s b).filter (· ≤ o)).length := by
  rw [codePoints, hsplit, List.filter_append, List.filter_eq_nil_iff.mpr, List.nil_append]
  · congr 1
    refine List.filter_congr fun x hx => ?_
    rw [decide_eq_true (bounds_of_mem_stops hx).1, Bool.true_and]
  · intro x hx
    rcases List.mem_cons.mp hx with rfl | hx
    · simp
    · have := (bounds_of_mem_stops hx).2
      simp only [Bool.and_eq_true, decide_eq_true_eq]
      omega

/-- What is read from a boundary on: the code points that stop up to an offset, and what of a
code point is left over. -/
theorem length_slice (hs : s ∈ f.boundaries) (hso : s ≤ o) (ho : o ≤ f.size) :
    (f.slice s o).length = f.codePoints s o + f.cut o := by
  obtain ⟨a, b, -, hwidth, hdecode, hsplit⟩ := split_boundaries hs
  have hlength : o - s ≤ (f.bytes.drop s).length := by
    rw [List.length_drop]
    exact Nat.sub_le_sub_right ho s
  have hread := length_decode_take s hlength
  rw [hdecode, Nat.add_sub_cancel' hso] at hread
  rw [slice, hread, codePoints_eq hwidth hsplit, cut, filter_boundaries hwidth hsplit hso,
    getLast?_boundaries, ← hwidth]

/-- Nothing is left over at a boundary. -/
theorem cut_boundary (h : b ∈ f.boundaries) : f.cut b = 0 := by
  obtain ⟨l, r, -, hwidth, -, hsplit⟩ := split_boundaries h
  have hnone : (stops b r).filter (· ≤ b) = [] := by
    refine List.filter_eq_nil_iff.mpr fun x hx => ?_
    rw [decide_eq_true_eq, Nat.not_le]
    exact (bounds_of_mem_stops hx).1
  rw [cut, filter_boundaries hwidth hsplit (Nat.le_refl b), getLast?_boundaries, hnone, ← hwidth]
  exact Nat.sub_self b

/-! ## Lines -/

/-- Lines start at the front and behind the ends of lines. -/
theorem lineStarts_eq : f.lineStarts = 0 :: f.lineEnds.map (·.stop) := by
  rw [lineStarts, lineStartsFrom_eq]
  rfl

/-- The starts of lines up to an offset. -/
theorem lineStarts_takeWhile :
    f.lineStarts.takeWhile (· ≤ o) = 0 :: (f.lineEndsTo o).map (·.stop) := by
  have hascends : (f.lineEnds.map (·.stop)).Pairwise (· < ·) :=
    stops_ascend.sublist (lineEnds_sublist f.text 0)
  rw [lineStarts_eq, List.takeWhile_cons_of_pos (by simp), takeWhile_eq_filter hascends,
    List.filter_map]
  rfl

/-- Where the line of an offset starts. -/
theorem lastStop_eq : (0 :: (f.lineEndsTo o).map (·.stop)).getLast?.getD 0 = f.lastStop o := by
  rw [List.getLast?_cons, Option.getD_some, List.getLast?_map, lastStop]

/-- The start of the line of an offset is a boundary that is not behind the offset. -/
theorem lastStop_boundary : f.lastStop o ∈ f.boundaries ∧ f.lastStop o ≤ o := by
  rw [lastStop]
  cases hlast : (f.lineEndsTo o).getLast? with
  | none => exact ⟨List.mem_cons_self, Nat.zero_le _⟩
  | some t =>
    obtain ⟨ht, hstop⟩ := List.mem_filter.mp (List.mem_of_getLast? hlast)
    refine ⟨List.mem_cons_of_mem 0 ((lineEnds_sublist f.text 0).subset (List.mem_map_of_mem ht)),
      ?_⟩
    simpa using hstop

/-- The line of an offset is told by how many line ends lie before it. -/
theorem position_line (o : Nat) :
    (f.position o).line = 1 + (f.lineEndsTo (min o f.size)).length := by
  rw [position, positionIn, lineStarts_takeWhile]
  simp [Int.add_comm]

/-- Its column counts characters, and one more where it cuts one. -/
theorem position_column (o : Nat) : (f.position o).column =
    1 + f.codePoints (f.lastStop (min o f.size)) (min o f.size) + f.cut (min o f.size) := by
  obtain ⟨hstart, hle⟩ := lastStop_boundary (f := f) (o := min o f.size)
  rw [position, positionIn]
  dsimp only
  rw [lineStarts_takeWhile, lastStop_eq, length_slice hstart hle (Nat.min_le_right _ _)]
  push_cast
  omega

/-! ## Order -/

/-- No boundary lies behind the end. -/
theorem boundary_le (h : b ∈ f.boundaries) : b ≤ f.size := by
  rcases List.mem_cons.mp h with rfl | h
  · exact Nat.zero_le _
  · have hle := (bounds_of_mem_stops h).2
    rwa [Nat.zero_add, text, width_decode] at hle

/-- Line and column of a boundary. -/
theorem position_boundary (h : b ∈ f.boundaries) :
    (f.position b).line = 1 + (f.lineEndsTo b).length ∧
    (f.position b).column = 1 + f.codePoints (f.lastStop b) b := by
  rw [position_line, position_column, Nat.min_eq_left (boundary_le h), cut_boundary h]
  exact ⟨rfl, rfl⟩

/-- A boundary that stands behind another one has a position behind it: if no line ends between
them, the code point that stops there is counted. -/
theorem before_of_lt (hb : b ∈ f.boundaries) (hp : p ∈ f.boundaries) (h : b < p) :
    (f.position b).Before (f.position p) := by
  obtain ⟨hbline, hbcolumn⟩ := position_boundary hb
  obtain ⟨hpline, hpcolumn⟩ := position_boundary hp
  rw [Position.Before, hbline, hbcolumn, hpline, hpcolumn]
  have hends : (f.lineEndsTo b).Sublist (f.lineEndsTo p) :=
    List.monotone_filter_right _ fun t ht => by simp only [decide_eq_true_eq] at ht ⊢; omega
  rcases Nat.lt_or_eq_of_le hends.length_le with hmore | hsame
  · exact .inl (by omega)
  · refine .inr ⟨by rw [hsame], ?_⟩
    have hstart : f.lastStop b = f.lastStop p :=
      by rw [lastStop, lastStop, hends.eq_of_length hsame]
    have hcounted : (f.boundaries.filter fun x => f.lastStop p < x && x ≤ b).Sublist
        (f.boundaries.filter fun x => f.lastStop p < x && x ≤ p) :=
      List.monotone_filter_right _ fun x hx =>
        by simp only [Bool.and_eq_true, decide_eq_true_eq] at hx ⊢; omega
    have hlast : p ∈ f.boundaries.filter fun x => f.lastStop p < x && x ≤ p := by
      refine List.mem_filter.mpr ⟨hp, ?_⟩
      have hle := (lastStop_boundary (f := f) (o := b)).2
      rw [hstart] at hle
      simp only [Bool.and_eq_true, decide_eq_true_eq]
      omega
    have hless : f.codePoints (f.lastStop p) b < f.codePoints (f.lastStop p) p := by
      refine Nat.lt_of_le_of_ne hcounted.length_le fun heq => ?_
      rw [← hcounted.eq_of_length heq, List.mem_filter, Bool.and_eq_true, decide_eq_true_eq,
        decide_eq_true_eq] at hlast
      omega
    rw [hstart]
    omega

/-- Positions are ordered by line and then by column. -/
theorem before_asymm {p q : Position} (h : p.Before q) : ¬ q.Before p := by
  rw [Position.Before] at *
  omega

/-- Offsets that cut no character are in the order of their positions. -/
theorem lt_iff_before (hb : b ∈ f.boundaries) (hp : p ∈ f.boundaries) :
    b < p ↔ (f.position b).Before (f.position p) := by
  refine ⟨before_of_lt hb hp, fun h => Nat.lt_of_not_le fun hle => ?_⟩
  rcases Nat.lt_or_eq_of_le hle with hlt | rfl
  · exact before_asymm h (before_of_lt hp hb hlt)
  · exact before_asymm h h

/-! ## Lines, joined -/

/-- A text without the line ends at its end. -/
def trimEnd (text : Text) : Text :=
  (text.reverse.dropWhile fun p => isLineTerminator p.scalar).reverse

/-- What is trimmed is the end of the line and nothing else. -/
theorem trimEnd_append {body ending : Text} (hbody : ∀ p ∈ body, isLineTerminator p.scalar = false)
    (hending : ∀ p ∈ ending, isLineTerminator p.scalar = true) :
    trimEnd (body ++ ending) = body := by
  have hstop : body.reverse.dropWhile (fun p => isLineTerminator p.scalar) = body.reverse := by
    refine List.dropWhile_eq_self_iff.mpr fun hlength => ?_
    rw [hbody _ (List.mem_reverse.mp (List.getElem_mem hlength))]
    exact Bool.false_ne_true
  rw [trimEnd, List.reverse_append, List.dropWhile_append_of_pos (by simpa using hending), hstop,
    List.reverse_reverse]

/-- What stands between two places of a text that is read from a place of the file. -/
theorem slice_eq {a b c : Text} (h : Text.decode (f.bytes.drop s) = a ++ b ++ c) :
    f.slice (s + a.width) (s + a.width + b.width) = b := by
  rw [List.append_assoc] at h
  have hrest := (decode_split h).2.2
  rw [List.drop_drop] at hrest
  rw [slice, Nat.add_sub_cancel_left]
  exact (decode_split hrest).2.1

/-- The text of a line lies between where it starts and where the next does. -/
theorem line_eq {i : Nat} (h : i < f.lineCount) : f.line (i + 1) =
    trimEnd (f.slice (f.lineStarts.getD i 0) (f.lineStarts.getD (i + 1) f.size)) := by
  have hinside : ((i + 1 : Int) < 1 || Int.ofNat f.lineStarts.length < i + 1) = false := by
    change i < f.lineStarts.length at h
    rw [Bool.or_eq_false_iff, decide_eq_false_iff_not, decide_eq_false_iff_not,
      Int.ofNat_eq_natCast]
    omega
  rw [line]
  simp only [hinside, Bool.false_eq_true, if_false]
  rfl

/-- The lines stand between the places where they start and the places where the next ones do. -/
theorem lines_eq : f.lines = List.zipWith (fun start stop => trimEnd (f.slice start stop))
    (0 :: f.lineEnds.map (·.stop)) (f.lineEnds.map (·.stop) ++ [f.size]) := by
  have hcount : f.lineCount = f.lineEnds.length + 1 := by
    rw [lineCount, lineStarts_eq, List.length_cons, List.length_map]
  refine List.ext_getElem (by simp [lines, hcount]) fun i hi hj => ?_
  rw [lines, List.length_map, List.length_range] at hi
  simp only [lines, List.getElem_map, List.getElem_range, List.getElem_zipWith]
  rw [line_eq hi, lineStarts_eq, List.getD_eq_getElem _ _ (by rw [← lineStarts_eq]; exact hi),
    List.getD_cons_succ]
  congr 2
  by_cases hlast : i < (f.lineEnds.map (·.stop)).length
  · rw [List.getD_eq_getElem _ _ hlast, List.getElem_append_left hlast]
  · rw [List.getD_eq_default _ _ (Nat.le_of_not_lt hlast),
      List.getElem_append_right (Nat.le_of_not_lt hlast), List.getElem_singleton]

/-- From the start of a line on, the lines and the line ends between them are what is left of
the file. -/
theorem joinLines_eq {s : Nat} {text : Text} (hs : s ≤ f.size)
    (h : Text.decode (f.bytes.drop s) = text) :
    joinLines (List.zipWith (fun start stop => trimEnd (f.slice start stop))
      (s :: (Cursor.lineEnds ⟨text, s⟩).map (·.stop))
        ((Cursor.lineEnds ⟨text, s⟩).map (·.stop) ++ [f.size]))
      ((Cursor.lineEnds ⟨text, s⟩).map fun t => f.slice t.start t.stop) = text := by
  induction hlength : text.length using Nat.strongRecOn generalizing s text with
  | _ length ih =>
    -- By induction on the length of what is left: either no line ends in it, or it is a line, its
    -- end and the rest.
    rcases line_cases s text with hline | ⟨body, ending, t, ⟨rest, next⟩, rfl, hbody, hends, hmore⟩
    · have hnone : Cursor.lineEnds ⟨text, s⟩ = [] := by
        rw [← List.append_nil text, lineEnds_append hline, lineEnds_nil]
      have hslice : f.slice s f.size = text := by
        rw [slice, size, ← List.length_drop, List.take_length, h]
      have htrim : trimEnd (text ++ []) = text := trimEnd_append hline nofun
      rw [List.append_nil] at htrim
      simp only [hnone, List.map_nil, List.nil_append, List.zipWith_cons_cons,
        List.zipWith_nil_left, joinLines, hslice, htrim, List.flatten_cons, List.flatten_nil,
        List.append_nil]
    · replace hlength : (body ++ ending ++ rest).length = length := hlength
      have hstart : t.start = s + width body := hends.start
      have hstop : t.stop = s + width body + width ending := hends.stop
      obtain rfl : next = s + width body + width ending := hends.offset.trans hstop
      obtain ⟨hwide, -, hdrop⟩ := decode_split h
      rw [List.length_drop, width_append] at hwide
      rw [List.drop_drop, width_append, ← Nat.add_assoc] at hdrop
      have hline : f.slice s t.stop = body ++ ending := by
        have := slice_eq (a := []) (b := body ++ ending) h
        rwa [width_nil, Nat.add_zero, width_append, ← Nat.add_assoc, ← hstop] at this
      have hending : f.slice t.start t.stop = ending := by
        rw [hstart, hstop]
        exact slice_eq h
      have hnonempty := List.length_pos_iff.mpr hends.nonempty
      have hsize : f.size = f.bytes.length := rfl
      have hshorter : rest.length < length := by
        rw [← hlength, List.length_append, List.length_append]
        omega
      have hrest := ih _ hshorter (by omega) hdrop rfl
      rw [hmore, List.map_cons, List.map_cons, List.cons_append, List.zipWith_cons_cons, joinLines,
        hline, trimEnd_append hbody hends.ends, hending, hstop, hrest]

end SourceFile

/-! ## Positions are exact -/

/-- What positions and lines of a file owe its text. -/
structure SourceFile.Exact (f : SourceFile) : Prop where
  /-- The line counts the line ends up to the offset. -/
  line (o : Int) : (f.positionAt o).line = 1 + (f.lineEndsTo (f.clamp o)).length
  /-- The column counts the code points behind the last of them, and of a code point that is cut
  through its bytes. -/
  column (o : Int) : (f.positionAt o).column =
    1 + f.codePoints (f.lastStop (f.clamp o)) (f.clamp o) + f.cut (f.clamp o)
  whole {b : Nat} : b ∈ f.boundaries → f.cut b = 0
  ordered {b p : Nat} : b ∈ f.boundaries → p ∈ f.boundaries →
    (b < p ↔ (f.position b).Before (f.position p))
  distinct {b p : Nat} : b ∈ f.boundaries → p ∈ f.boundaries → (f.position b).line =
    (f.position p).line →
    (f.position b).column = (f.position p).column → b = p
  /-- The lines with the line ends between them are the file. -/
  separated : f.lines.length = f.lineEndings.length + 1
  joined : (joinLines f.lines f.lineEndings).encode = f.bytes

/-- Positions are exact in every file, whatever its bytes. -/
theorem positions_exact (f : SourceFile) : f.Exact where
  line o := SourceFile.position_line _
  column o := SourceFile.position_column _
  whole := SourceFile.cut_boundary
  ordered := SourceFile.lt_iff_before
  distinct {b p} hb hp hline hcolumn := by
    have hnot {q r : Position} (hline : q.line = r.line) (hcolumn : q.column = r.column) :
        ¬ q.Before r := by
      rw [Position.Before]
      omega
    rcases Nat.lt_trichotomy b p with hlt | heq | hlt
    · exact absurd (SourceFile.before_of_lt hb hp hlt) (hnot hline hcolumn)
    · exact heq
    · exact absurd (SourceFile.before_of_lt hp hb hlt) (hnot hline.symm hcolumn.symm)
  separated := by simp [SourceFile.lines_eq, SourceFile.lineEndings]
  joined := by
    rw [SourceFile.lines_eq, SourceFile.lineEndings]
    exact (congrArg Text.encode (SourceFile.joinLines_eq (Nat.zero_le _) rfl)).trans
      (encode_decode f.bytes)

/-- Inside a code point positions are out of order. The third byte of the euro
sign starts at offset 2 and stops at offset 3, but the position of 3, behind the
whole sign, is before the position of 2, behind two bytes of it. -/
theorem positions_misordered :
    (SourceFile.ofString "" "€").position 2 = ⟨"", 1, 3, 2⟩ ∧
    (SourceFile.ofString "" "€").position 3 = ⟨"", 1, 2, 3⟩ ∧
      ((SourceFile.ofString "" "€").position 3).Before ((SourceFile.ofString "" "€").position 2) ∧
      ¬ ∀ (f : SourceFile) (b p : Nat), b ≤ f.size → p ≤ f.size →
        (b < p ↔ (f.position b).Before (f.position p)) := by
  refine ⟨by decide, by decide, by decide, fun h => ?_⟩
  have hordered := (h (.ofString "" "€") 2 3 (by decide) (by decide)).mp (by decide)
  revert hordered
  decide

end EcmaStack

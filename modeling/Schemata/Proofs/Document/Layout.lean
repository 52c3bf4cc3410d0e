import Schemata.Document.Layout

/-!
Rows of cells. A cell that is padded to the width of the widest one ends at the same place in
every row, so that the cells behind it begin at one place. Padding is spaces, and the text of the
cell is all there.
-/
namespace Schemata.Document

theorem foldl_max_le_iff (lengths : List Nat) (least width : Nat) :
    lengths.foldl max least ≤ width ↔ least ≤ width ∧ ∀ length ∈ lengths, length ≤ width := by
  induction lengths generalizing least with
  | nil => simp
  | cons length lengths ih => rw [List.foldl_cons, ih, Nat.max_le, List.forall_mem_cons, and_assoc]

theorem widest_le_iff (texts : List String) (width : Nat) :
    widest texts ≤ width ↔ ∀ text ∈ texts, text.length ≤ width := by
  simp [widest, foldl_max_le_iff]

theorem length_le_widest {texts : List String} {text : String} (h : text ∈ texts) :
    text.length ≤ widest texts :=
  (widest_le_iff texts _).mp (Nat.le_refl _) text h

/-- A padded word with a space behind it is the word and a gap. -/
theorem padded_append (width : Nat) (word : String) (rest : List Char) :
    (padded width word).toList ++ ' ' :: rest =
      word.toList ++ ' ' :: (List.replicate (width - word.length) ' ' ++ rest) := by
  have hgap (n : Nat) : List.replicate n ' ' ++ [' '] = ' ' :: List.replicate n ' ' := by
    rw [← List.replicate_succ', List.replicate_succ]
  rw [padded, String.toList_append, String.toList_ofList, List.append_assoc, List.append_cons,
    hgap, List.cons_append]

/-- Cells with the offsets they begin at, behind so many characters. In front of each there is at
least one space, and nothing but spaces. -/
inductive Spaced : Nat → List (Nat × String) → List Char → Prop
  | nil (offset : Nat) : Spaced offset [] []
  | cons {offset gap : Nat} {cell : String} {cells : List (Nat × String)} {rest : List Char}
      (h : Spaced (offset + (gap + 1) + cell.length) cells rest) :
      Spaced offset ((offset + (gap + 1), cell) :: cells)
        (' ' :: (List.replicate gap ' ' ++ (cell.toList ++ rest)))

/-- A row with a first cell behind its indent and further cells at their offsets. -/
def IsRow (indent first : String) (cells : List (Nat × String)) (row : String) : Prop :=
  ∃ rest, row.toList = indent.toList ++ (first.toList ++ rest) ∧
    Spaced (indent.length + first.length) cells rest

/-- Behind a padded cell the next one begins at the same offset, however long the cell is. -/
theorem exists_spaced_padded {width : Nat} {word : String} (hwidth : word.length ≤ width)
    {offset : Nat} {cell : String} {cells : List (Nat × String)} {rest : List Char}
    (h : Spaced (offset + (width + 1) + cell.length) cells rest) :
    ∃ behind, (padded width word).toList ++ ' ' :: (cell.toList ++ rest) =
        word.toList ++ behind ∧
      Spaced (offset + word.length) ((offset + (width + 1), cell) :: cells) behind := by
  have hoffset : offset + (width + 1) = offset + word.length + (width - word.length + 1) := by
    omega
  rw [hoffset] at h ⊢
  exact ⟨_, padded_append width word _, .cons h⟩

theorem isRow_two (indent : String) {first : String} {width : Nat} (h : first.length ≤ width)
    (second : String) :
    IsRow indent first [(indent.length + (width + 1), second)]
      (indent ++ padded width first ++ " " ++ second) := by
  obtain ⟨behind, htext, hspaced⟩ := exists_spaced_padded h
    (Spaced.nil (indent.length + (width + 1) + second.length))
  refine ⟨behind, ?_, hspaced⟩
  rw [← htext]
  simp [String.toList_append]

theorem isRow_three (indent : String) {first second : String} {width secondWidth : Nat}
    (h : first.length ≤ width) (hsecond : second.length ≤ secondWidth) (third : String) :
    IsRow indent first
      [(indent.length + (width + 1), second),
        (indent.length + (width + 1) + (secondWidth + 1), third)]
      (indent ++ padded width first ++ " " ++ (padded secondWidth second ++ " " ++ third)) := by
  have hthird := Spaced.nil
    (indent.length + (width + 1) + (secondWidth + 1) + third.length)
  obtain ⟨behindSecond, hsecondText, hbehind⟩ := exists_spaced_padded hsecond hthird
  obtain ⟨behind, htext, hspaced⟩ := exists_spaced_padded h hbehind
  refine ⟨behind, ?_, hspaced⟩
  rw [← htext, ← hsecondText]
  simp [String.toList_append]

end Schemata.Document

import Mathlib.Data.List.TakeWhile
import Schemata.Text.Blank

/-!
What trimming takes away: blanks at both ends of a text, and nothing from a text without them.
-/
namespace Schemata.Text

/-- The text holds nothing but blanks. -/
def Blanks (s : List Char) : Prop := ∀ c ∈ s, isBlank c = true

theorem exists_blanks_around_trim (s : String) :
    ∃ front back, Blanks front ∧ Blanks back ∧ s.toList = front ++ ((trim s).toList ++ back) := by
  refine ⟨s.toList.takeWhile isBlank, ((dropBlanks s.toList).reverse.takeWhile isBlank).reverse,
    fun c hc => List.mem_takeWhile_imp hc, fun c hc => ?_, ?_⟩
  · exact List.mem_takeWhile_imp (List.mem_reverse.mp hc)
  · rw [trim, String.toList_ofList, dropTrailingBlanks, ← List.reverse_append,
      List.takeWhile_append_dropWhile, List.reverse_reverse, dropBlanks,
      List.takeWhile_append_dropWhile]

theorem dropBlanks_of_not_isBlank {s : List Char} (h : ∀ c ∈ s, isBlank c = false) :
    dropBlanks s = s := by
  rw [dropBlanks, List.dropWhile_eq_self_iff]
  intro hlength
  rw [h _ (List.getElem_mem hlength)]
  exact Bool.false_ne_true

theorem dropTrailingBlanks_of_not_isBlank {s : List Char} (h : ∀ c ∈ s, isBlank c = false) :
    dropTrailingBlanks s = s := by
  have hreverse := dropBlanks_of_not_isBlank fun c hc => h c (List.mem_reverse.mp hc)
  rw [dropBlanks] at hreverse
  rw [dropTrailingBlanks, hreverse, List.reverse_reverse]

/-- The text has an end that is no blank. -/
def endsInInk (s : List Char) : Bool := s.getLast?.any (!isBlank ·)

theorem endsInInk_append {t : List Char} (h : endsInInk t = true) (s : List Char) :
    endsInInk (s ++ t) = true := by
  obtain ⟨c, hlast, hc⟩ := (Option.any_eq_true _ _).mp h
  rw [endsInInk, List.getLast?_append, hlast, Option.some_or, Option.any_some]
  exact hc

theorem endsInInk_toList_append (s : String) {t : String} (h : endsInInk t.toList = true) :
    endsInInk (s ++ t).toList = true := by
  rw [String.toList_append]
  exact endsInInk_append h _

theorem dropTrailingBlanks_of_endsInInk {s : List Char} (h : endsInInk s = true) :
    dropTrailingBlanks s = s := by
  obtain ⟨c, hlast, hc⟩ := (Option.any_eq_true _ _).mp h
  obtain ⟨front, rfl⟩ := List.getLast?_eq_some_iff.mp hlast
  have hink : isBlank c = false := by simpa using hc
  simp [dropTrailingBlanks, hink]

theorem trimEnd_of_endsInInk {s : String} (h : endsInInk s.toList = true) : trimEnd s = s := by
  rw [trimEnd, dropTrailingBlanks_of_endsInInk h, String.ofList_toList]

/-- Blanks around a text are taken away with those at its own ends. -/
theorem dropBlanks_between {front back : List Char} (hfront : Blanks front) (hback : Blanks back)
    (s : List Char) :
    dropTrailingBlanks (dropBlanks (front ++ (s ++ back))) = dropTrailingBlanks (dropBlanks s) := by
  have hreverse : Blanks back.reverse := fun c hc => hback c (List.mem_reverse.mp hc)
  have hright (t : List Char) : dropTrailingBlanks (t ++ back) = dropTrailingBlanks t := by
    rw [dropTrailingBlanks, List.reverse_append, List.dropWhile_append_of_pos hreverse,
      ← dropTrailingBlanks]
  rw [dropBlanks, dropBlanks, List.dropWhile_append_of_pos hfront, List.dropWhile_append]
  split
  · rename_i hempty
    have hnone : back.dropWhile isBlank = [] := List.dropWhile_eq_nil_iff.mpr hback
    rw [hnone, List.isEmpty_iff.mp hempty]
  · exact hright _

/-- What holds no blank is left over when the blanks around it are gone. -/
theorem dropBlanks_around {front s back : List Char} (hfront : Blanks front) (hback : Blanks back)
    (h : ∀ c ∈ s, isBlank c = false) :
    dropTrailingBlanks (dropBlanks (front ++ (s ++ back))) = s := by
  rw [dropBlanks_between hfront hback, dropBlanks_of_not_isBlank h,
    dropTrailingBlanks_of_not_isBlank h]

end Schemata.Text

/-!
Texts joined by a separator. Behind the first texts every further one comes with the
separator in front of it, and what is joined has no characters but those of the texts and of
the separator.
-/
namespace Schemata

theorem intercalate_cons_eq_flatMap {α : Type} (separator line : List α) (lines : List (List α)) :
    separator.intercalate (line :: lines) = line ++ lines.flatMap (separator ++ ·) := by
  induction lines generalizing line with
  | nil => simp
  | cons next lines ih =>
    simp only [List.intercalate_cons_cons, ih, List.flatMap_cons, List.append_assoc]

theorem intercalate_append_eq_flatMap {α : Type} {separator : List α} {lines : List (List α)}
    (hne : lines ≠ []) (more : List (List α)) :
    separator.intercalate (lines ++ more) =
      separator.intercalate lines ++ more.flatMap (separator ++ ·) := by
  obtain ⟨line, rest, rfl⟩ := List.exists_cons_of_ne_nil hne
  rw [List.cons_append, intercalate_cons_eq_flatMap, intercalate_cons_eq_flatMap,
    List.flatMap_append, List.append_assoc]

/-- What holds of the separator and of every text holds of all of their characters. -/
theorem forall_mem_intercalate {α : Type} {p : α → Prop} {separator : List α}
    {lines : List (List α)} (hseparator : ∀ a ∈ separator, p a)
    (hlines : ∀ line ∈ lines, ∀ a ∈ line, p a) : ∀ a ∈ separator.intercalate lines, p a := by
  intro a ha
  cases lines with
  | nil => cases ha
  | cons line lines =>
    obtain ⟨hline, hlines⟩ := List.forall_mem_cons.mp hlines
    rw [intercalate_cons_eq_flatMap, List.mem_append, List.mem_flatMap] at ha
    rcases ha with hfirst | ⟨next, hnext, hlater⟩
    · exact hline a hfirst
    · rcases List.mem_append.mp hlater with hbetween | hlater
      · exact hseparator a hbetween
      · exact hlines next hnext a hlater

/-- A text that is neither the first nor the last one has separators on both sides. -/
theorem intercalate_around {separator : String} {above below : List String} (habove : above ≠ [])
    (hbelow : below ≠ []) (line : String) :
    String.intercalate separator (above ++ line :: below) =
      String.intercalate separator above ++ separator ++ line ++ separator ++
        String.intercalate separator below := by
  rw [String.intercalate_append_of_ne_nil habove (List.cons_ne_nil line below),
    ← List.singleton_append, String.intercalate_append_of_ne_nil (List.cons_ne_nil line []) hbelow,
    String.intercalate_singleton]
  simp only [String.append_assoc]

end Schemata

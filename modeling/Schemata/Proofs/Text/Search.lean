import Mathlib.Data.List.Infix
import Mathlib.Data.List.TakeWhile
import Schemata.Text.Search

/-!
What it means to cut a text. The part before the first occurrence of a separator does not
contain it, and a text put together around a separator is cut there again, when the separator
cannot begin inside itself. Text that lacks the separator changes nothing when it is put around
another one. The part behind the last occurrence of a character lacks it. A text can also be cut
before its first character of a kind.
-/
namespace Schemata.Text

/-- What stands before the first character of a kind has none of the kind, and what is left
begins with one. -/
theorem exists_of_before (stop : Char → Bool) (s : List Char) :
    ∃ rest, s = before stop s ++ rest ∧ (∀ d ∈ before stop s, stop d = false) ∧
      ∀ d, rest.head? = some d → stop d = true := by
  refine ⟨s.dropWhile (!stop ·), List.takeWhile_append_dropWhile.symm, fun d hd => ?_,
    fun d hd => ?_⟩
  · simpa using List.mem_takeWhile_imp hd
  · have hstop := List.head?_dropWhile_not (!stop ·) s
    rw [hd] at hstop
    simpa using hstop

variable {c : Char} {separator s before after : List Char}

theorem cut_eq_none_iff (hne : separator ≠ []) :
    cut separator s = none ↔ ¬separator <:+: s := by
  induction s with
  | nil => simp [cut, hne]
  | cons d s ih =>
    rw [List.infix_cons_iff, cut]
    by_cases hfirst : separator.isPrefixOf (d :: s) = true
    · simp [hfirst, List.isPrefixOf_iff_prefix.mp hfirst]
    · have hnot : ¬separator <+: d :: s := fun h => hfirst (List.isPrefixOf_iff_prefix.mpr h)
      simp [hfirst, hnot, ih]

theorem eq_append_of_cut (hne : separator ≠ []) (h : cut separator s = some (before, after)) :
    s = before ++ (separator ++ after) ∧ ¬separator <:+: before := by
  induction s generalizing before with
  | nil => simp [cut, hne] at h
  | cons d s ih =>
    rw [cut] at h
    split at h
    · rename_i hfirst
      obtain ⟨rest, hrest⟩ := List.isPrefixOf_iff_prefix.mp hfirst
      obtain ⟨rfl, rfl⟩ := Prod.mk.inj (Option.some.inj h)
      rw [← hrest, List.drop_left]
      exact ⟨rfl, by simpa using hne⟩
    · rename_i hfirst
      obtain ⟨⟨body, rest⟩, hcut, hpair⟩ := Option.map_eq_some_iff.mp h
      obtain ⟨rfl, rfl⟩ := Prod.mk.inj hpair
      obtain ⟨rfl, hbody⟩ := ih hcut
      refine ⟨rfl, fun hinfix => ?_⟩
      rcases List.infix_cons_iff.mp hinfix with hprefix | hlater
      · have hwhole : separator <+: d :: (body ++ (separator ++ rest)) :=
          hprefix.trans (List.prefix_append (d :: body) _)
        exact hfirst (List.isPrefixOf_iff_prefix.mpr hwhole)
      · exact hbody hlater

/-- What lacks a character and begins a text has ended before the character comes. -/
theorem prefix_of_prefix_append (hc : c ∉ separator)
    (h : separator <+: before ++ c :: after) : separator <+: before := by
  have hjoined : before ++ [c] <+: before ++ c :: after := ⟨after, by simp⟩
  rcases List.prefix_or_prefix_of_prefix h hjoined with hshort | hlong
  · rcases List.prefix_concat_iff.mp hshort with rfl | hprefix
    · exact absurd (List.mem_append_right _ List.mem_cons_self) hc
    · exact hprefix
  · exact absurd (hlong.subset (List.mem_append_right _ List.mem_cons_self)) hc

/-- What lacks the first character of the separator is only passed over. -/
theorem cut_append_left (h : c ∉ before) (separator s : List Char) :
    cut (c :: separator) (before ++ s) =
      (cut (c :: separator) s).map fun (body, rest) => (before ++ body, rest) := by
  induction before with
  | nil => simp
  | cons d before ih =>
    obtain ⟨hne, hbefore⟩ : c ≠ d ∧ c ∉ before := by simpa using h
    have hfirst : (c :: separator).isPrefixOf (d :: (before ++ s)) = false := by
      rw [List.isPrefixOf, beq_eq_false_iff_ne.mpr hne, Bool.false_and]
    rw [List.cons_append, cut, if_neg (ne_true_of_eq_false hfirst), ih hbefore, Option.map_map]
    rfl

/-- A text that lacks the first character of the separator is cut behind it. -/
theorem cut_append (h : c ∉ s) (separator rest : List Char) :
    cut (c :: separator) (s ++ (c :: separator ++ rest)) = some (s, rest) := by
  rw [cut_append_left h]
  simp [cut]

/-- A separator that cannot begin inside itself is first met where it was put. -/
theorem cut_of_not_infix (hc : c ∉ separator) (h : ¬(c :: separator) <:+: before)
    (after : List Char) :
    cut (c :: separator) (before ++ (c :: separator ++ after)) = some (before, after) := by
  induction before with
  | nil => simp [cut]
  | cons d before ih =>
    obtain ⟨hhere, hlater⟩ := not_or.mp (List.infix_cons_iff.not.mp h)
    have hfirst : ¬(c :: separator).isPrefixOf (d :: (before ++ (c :: separator ++ after))) := by
      rw [List.isPrefixOf_iff_prefix, List.cons_prefix_cons]
      rintro ⟨rfl, hprefix⟩
      exact hhere (List.cons_prefix_cons.mpr ⟨rfl, prefix_of_prefix_append hc hprefix⟩)
    rw [List.cons_append, cut, if_neg hfirst, ih hlater]
    rfl

/-- The first separator is met no later than any other. -/
theorem suffix_of_cut (hne : separator ≠ []) {earlier behind : List Char}
    (h : cut separator (earlier ++ (separator ++ behind)) = some (before, after)) :
    behind <:+ after := by
  induction earlier generalizing before with
  | nil =>
    obtain ⟨c, separator, rfl⟩ := List.exists_cons_of_ne_nil hne
    have hhere : cut (c :: separator) (c :: separator ++ behind) = some ([], behind) := by
      simp [cut]
    rw [List.nil_append, hhere] at h
    obtain ⟨-, rfl⟩ := Prod.mk.inj (Option.some.inj h)
    exact List.suffix_rfl
  | cons d earlier ih =>
    rw [List.cons_append, cut] at h
    split at h
    · obtain ⟨-, rfl⟩ := Prod.mk.inj (Option.some.inj h)
      have hlength : separator.length ≤ (d :: earlier ++ separator).length := by
        rw [List.length_append]
        omega
      rw [← List.cons_append, ← List.append_assoc, List.drop_append_of_le_length hlength]
      exact List.suffix_append _ _
    · obtain ⟨⟨body, rest⟩, hcut, hpair⟩ := Option.map_eq_some_iff.mp h
      obtain ⟨-, rfl⟩ := Prod.mk.inj hpair
      exact ih hcut

/-- What lacks the character stays behind the place where the text is cut. -/
theorem cut_append_right (h : c ∉ after) (s : List Char) :
    cut [c] (s ++ after) = (cut [c] s).map fun (body, rest) => (body, rest ++ after) := by
  induction s with
  | nil =>
    have hnone : cut [c] after = none := by
      rw [cut_eq_none_iff (List.cons_ne_nil _ _), List.singleton_infix_iff]
      exact h
    rw [List.nil_append, hnone]
    rfl
  | cons d s ih =>
    by_cases hd : c = d
    · simp [cut, hd]
    · simp [cut, hd, ih, Function.comp_def, prepend]

theorem occursIn_iff {pattern : List Char} : occursIn pattern s = true ↔ pattern <:+: s := by
  induction s with
  | nil => simp [occursIn]
  | cons d s ih =>
    rw [occursIn, Bool.or_eq_true, List.isPrefixOf_iff_prefix, ih, List.infix_cons_iff]

/-- A pattern is found where its characters are. -/
theorem infix_append_left_iff {pattern : List Char} (hne : pattern ≠ [])
    (h : ∀ d ∈ before, d ∉ pattern) : pattern <:+: before ++ s ↔ pattern <:+: s := by
  induction before with
  | nil => rfl
  | cons d before ih =>
    have hfirst : ¬pattern <+: d :: (before ++ s) := by
      intro hprefix
      obtain ⟨first, rest, rfl⟩ := List.exists_cons_of_ne_nil hne
      obtain ⟨rfl, _⟩ := List.cons_prefix_cons.mp hprefix
      exact h _ List.mem_cons_self List.mem_cons_self
    rw [List.cons_append, List.infix_cons_iff, or_iff_right hfirst]
    exact ih fun e he => h e (List.mem_cons_of_mem _ he)

theorem infix_append_right_iff {pattern : List Char} (hne : pattern ≠ [])
    (h : ∀ d ∈ after, d ∉ pattern) : pattern <:+: s ++ after ↔ pattern <:+: s := by
  have hreverse : ∀ d ∈ after.reverse, d ∉ pattern.reverse :=
    fun d hd hmem => h d (List.mem_reverse.mp hd) (List.mem_reverse.mp hmem)
  rw [← List.reverse_infix, List.reverse_append,
    infix_append_left_iff (List.reverse_ne_nil_iff.mpr hne) hreverse, List.reverse_infix]

theorem cutLast_eq_none_iff : cutLast c s = none ↔ c ∉ s := by
  induction s with
  | nil => simp [cutLast]
  | cons d s ih =>
    rw [cutLast]
    cases hrest : cutLast c s with
    | some parts =>
      have hmem : c ∈ s := by
        by_contra hnot
        rw [ih.mpr hnot] at hrest
        cases hrest
      simp [hmem]
    | none =>
      have hnot : c ∉ s := ih.mp hrest
      by_cases hd : d = c
      · simp [hd]
      · simp [hd, hnot, Ne.symm hd]

theorem cutLast_append (h : c ∉ after) (before : List Char) :
    cutLast c (before ++ c :: after) = some (before, after) := by
  induction before with
  | nil => simp [cutLast, cutLast_eq_none_iff.mpr h]
  | cons d before ih =>
    rw [List.cons_append, cutLast, ih]
    rfl

theorem eq_append_of_cutLast (h : cutLast c s = some (before, after)) :
    s = before ++ c :: after ∧ c ∉ after := by
  induction s generalizing before with
  | nil => cases h
  | cons d s ih =>
    rw [cutLast] at h
    cases hrest : cutLast c s with
    | some parts =>
      obtain ⟨body, rest⟩ := parts
      rw [hrest] at h
      obtain ⟨rfl, rfl⟩ := Prod.mk.inj (Option.some.inj h)
      obtain ⟨rfl, hafter⟩ := ih hrest
      exact ⟨rfl, hafter⟩
    | none =>
      rw [hrest] at h
      by_cases hd : d = c
      · simp only [hd, if_true, Option.some.injEq, Prod.mk.injEq] at h
        obtain ⟨rfl, rfl⟩ := h
        exact ⟨by rw [hd]; rfl, cutLast_eq_none_iff.mp hrest⟩
      · simp [hd] at h

end Schemata.Text

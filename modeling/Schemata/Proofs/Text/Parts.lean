import Mathlib.Data.List.Forall2
import Mathlib.Data.List.Infix
import Schemata.Proofs.Text.Search

/-!
The parts of a text between separators. No part holds the separator, and a text put together
from such parts falls into them again; a word that lacks the separator stands in the text just
when it stands in a part.
-/
namespace Schemata.Text

variable {c : Char} {pattern s t : List Char}

theorem not_mem_of_mem_splitOn {part : List Char} (h : part ∈ s.splitOn c) : c ∉ part := by
  induction s generalizing part with
  | nil =>
    rw [List.splitOn, List.splitOnP_nil, List.mem_singleton] at h
    rw [h]
    exact List.not_mem_nil
  | cons d s ih =>
    obtain ⟨first, more, hparts⟩ := List.exists_cons_of_ne_nil (List.splitOn_ne_nil c s)
    rw [List.splitOn] at ih hparts h
    rw [List.splitOnP_cons_eq_if_modifyHead, hparts] at h
    rw [hparts] at ih
    by_cases hd : d = c
    · rw [if_pos (beq_iff_eq.mpr hd)] at h
      rcases List.mem_cons.mp h with rfl | hlater
      · exact List.not_mem_nil
      · exact ih hlater
    · rw [if_neg fun heq => hd (beq_iff_eq.mp heq), List.modifyHead_cons] at h
      rcases List.mem_cons.mp h with rfl | hlater
      · rw [List.mem_cons, not_or]
        exact ⟨Ne.symm hd, ih List.mem_cons_self⟩
      · exact ih (List.mem_cons_of_mem _ hlater)

theorem map_intercalate (f : Char → Char) (c : Char) (parts : List (List Char)) :
    ([c].intercalate parts).map f = [f c].intercalate (parts.map (List.map f)) := by
  induction parts with
  | nil => rfl
  | cons part parts ih =>
    cases parts with
    | nil => simp
    | cons next parts =>
      simp only [List.intercalate_cons_cons, List.map_append, List.map_cons, List.map_nil] at ih ⊢
      rw [ih]

theorem splitOn_map {f : Char → Char} (h : ∀ d, f d = c ↔ d = c) (s : List Char) :
    (s.map f).splitOn c = (s.splitOn c).map (List.map f) := by
  have hparts : ∀ part ∈ (s.splitOn c).map (List.map f), c ∉ part := by
    intro part hpart hmem
    obtain ⟨whole, hwhole, rfl⟩ := List.mem_map.mp hpart
    obtain ⟨d, hd, heq⟩ := List.mem_map.mp hmem
    exact not_mem_of_mem_splitOn hwhole ((h d).mp heq ▸ hd)
  have hne : (s.splitOn c).map (List.map f) ≠ [] := by
    simp [List.splitOn_ne_nil]
  have hjoined : s.map f = [c].intercalate ((s.splitOn c).map (List.map f)) := by
    have hmap := map_intercalate f c (s.splitOn c)
    rwa [List.intercalate_splitOn, (h c).mpr rfl] at hmap
  rw [hjoined, List.splitOn_intercalate c hparts hne]

theorem cut_map {f : Char → Char} (h : ∀ d, f d = c ↔ d = c) (s : List Char) :
    cut [c] (s.map f) = (cut [c] s).map fun (before, after) => (before.map f, after.map f) := by
  induction s with
  | nil => rfl
  | cons d s ih =>
    have hfirst : [c].isPrefixOf (f d :: s.map f) = [c].isPrefixOf (d :: s) := by
      have hsame : (c == f d) = (c == d) := by
        rw [Bool.eq_iff_iff, beq_iff_eq, beq_iff_eq, eq_comm, h, eq_comm]
      simp [List.isPrefixOf, hsame]
    rw [List.map_cons, cut, cut, hfirst, ih]
    split
    · simp
    · simp [Function.comp_def, prepend]

/-- A word without the character lies before it or behind it. -/
theorem infix_append_cons_iff (hc : c ∉ pattern) (hne : pattern ≠ []) :
    pattern <:+: s ++ c :: t ↔ pattern <:+: s ∨ pattern <:+: t := by
  induction s with
  | nil =>
    have hfirst : ¬pattern <+: c :: t := by
      intro hprefix
      have hbehind : pattern <+: [] ++ c :: t := hprefix
      exact hne (List.prefix_nil.mp (prefix_of_prefix_append hc hbehind))
    have hempty : ¬pattern <:+: [] := fun h => hne (List.infix_nil.mp h)
    rw [List.nil_append, List.infix_cons_iff, or_iff_right hfirst, or_iff_right hempty]
  | cons d s ih =>
    have hfirst : pattern <+: (d :: s) ++ c :: t ↔ pattern <+: d :: s :=
      ⟨prefix_of_prefix_append hc, fun h => h.trans (List.prefix_append (d :: s) _)⟩
    rw [List.cons_append] at hfirst ⊢
    rw [List.infix_cons_iff, List.infix_cons_iff, hfirst, ih, or_assoc]

theorem infix_intercalate_iff (hc : c ∉ pattern) (hne : pattern ≠ []) (parts : List (List Char)) :
    pattern <:+: [c].intercalate parts ↔ ∃ part ∈ parts, pattern <:+: part := by
  induction parts with
  | nil => simp [hne]
  | cons part parts ih =>
    cases parts with
    | nil => simp
    | cons next parts =>
      rw [List.intercalate_cons_cons, List.append_assoc, List.singleton_append,
        infix_append_cons_iff hc hne, ih, List.exists_mem_cons_iff _ part]

/-- The parts hold characters of the text only. -/
theorem mem_of_mem_splitOn {part : List Char} (h : part ∈ s.splitOn c) {d : Char}
    (hd : d ∈ part) : d ∈ s := by
  have hother : c ∉ [d] := by
    rw [List.mem_singleton]
    rintro rfl
    exact not_mem_of_mem_splitOn h hd
  have hinfix : [d] <:+: [c].intercalate (s.splitOn c) :=
    (infix_intercalate_iff hother (List.cons_ne_nil d []) _).mpr
      ⟨part, h, (List.singleton_infix_iff d part).mpr hd⟩
  rw [List.intercalate_splitOn] at hinfix
  exact (List.singleton_infix_iff d s).mp hinfix

end Schemata.Text

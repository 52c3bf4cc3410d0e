import Schemata.Naming
import Schemata.Proofs.Text.Capitals
import Schemata.Proofs.Text.Parts

/-!
Names brought into a form that they have already. The pascal form of a name with an underscore
in it is made of the forms of the parts on both sides. It has no underscore left, and its front
is a capital form, so that the pascal form of a pascal form is the same again, and so is its
camel form. For names of ASCII the camel form has lost nothing either.
-/
namespace Schemata.Naming

open Text

theorem pascalChars_append (s t : List Char) :
    pascalChars (s ++ '_' :: t) = pascalChars s ++ pascalChars t := by
  have hparts : (s ++ '_' :: t).splitOn '_' = s.splitOn '_' ++ t.splitOn '_' :=
    List.splitOnP_append_cons s t (beq_self_eq_true '_')
  rw [pascalChars, hparts, List.filter_append, List.flatMap_append, ← pascalChars, ← pascalChars]

theorem pascal_append (s t : String) : pascal (s ++ "_" ++ t) = pascal s ++ pascal t := by
  have hchars : (s ++ "_" ++ t).toList = s.toList ++ '_' :: t.toList := by
    simp [String.toList_append]
  rw [pascal, hchars, pascalChars_append, String.ofList_append]
  rfl

theorem underscore_not_mem_capitalised {s : List Char} (h : '_' ∉ s) : '_' ∉ capitalised s := by
  cases s with
  | nil => exact h
  | cons c rest =>
    rw [List.mem_cons, not_or] at h
    rw [capitalised, List.mem_append, not_or]
    exact ⟨underscore_not_mem_capital (Ne.symm h.1), h.2⟩

theorem underscore_not_mem_pascalChars (s : List Char) : '_' ∉ pascalChars s := by
  intro h
  obtain ⟨part, hpart, hmem⟩ := List.mem_flatMap.mp h
  have hlacks := not_mem_of_mem_splitOn (List.mem_filter.mp hpart).1
  exact underscore_not_mem_capitalised hlacks hmem

/-- Without an underscore there is one part, or none in an empty text. -/
theorem pascalChars_of_not_mem {s : List Char} (h : '_' ∉ s) : pascalChars s = capitalised s := by
  have hparts : s.splitOn '_' = [s] := by
    refine List.splitOnP_eq_singleton fun c hc => ?_
    rw [beq_eq_false_iff_ne]
    rintro rfl
    exact h hc
  rw [pascalChars, hparts]
  cases s with
  | nil => rfl
  | cons c rest => exact List.append_nil _

/-- The front of a pascal form is the capital form of a character, which does not change. -/
theorem capitalised_pascalChars (s : List Char) : capitalised (pascalChars s) = pascalChars s := by
  rw [pascalChars]
  cases hparts : (s.splitOn '_').filter (!·.isEmpty) with
  | nil => rfl
  | cons part parts =>
    have hpart : part ∈ (s.splitOn '_').filter (!·.isEmpty) := hparts ▸ List.mem_cons_self
    have hne : part ≠ [] := by simpa using (List.mem_filter.mp hpart).2
    obtain ⟨c, rest, rfl⟩ := List.exists_cons_of_ne_nil hne
    obtain ⟨d, more, hform⟩ := List.exists_cons_of_ne_nil (capital_ne_nil c)
    have hsettled : capital d = [d] :=
      capital_of_mem_capital (hform ▸ List.mem_cons_self)
    simp only [List.flatMap_cons, capitalised, hform, List.cons_append, hsettled, List.nil_append]

theorem pascalChars_idem (s : List Char) : pascalChars (pascalChars s) = pascalChars s := by
  rw [pascalChars_of_not_mem (underscore_not_mem_pascalChars s), capitalised_pascalChars]

theorem isAscii_capitalised {s : List Char} (h : ∀ c ∈ s, c.toNat < 128) :
    ∀ c ∈ capitalised s, c.toNat < 128 := by
  cases s with
  | nil => exact h
  | cons c rest =>
    obtain ⟨hc, hrest⟩ := List.forall_mem_cons.mp h
    have hform : capital c = [c.toUpper] := if_pos hc
    rw [capitalised, hform, List.singleton_append, List.forall_mem_cons]
    exact ⟨(isAscii_toUpper c).mpr hc, hrest⟩

theorem isAscii_pascalChars {s : List Char} (h : ∀ c ∈ s, c.toNat < 128) :
    ∀ c ∈ pascalChars s, c.toNat < 128 := by
  intro d hd
  obtain ⟨part, hpart, hmem⟩ := List.mem_flatMap.mp hd
  have hwithin : ∀ c ∈ part, c.toNat < 128 := fun c hc =>
    h c (mem_of_mem_splitOn (List.mem_filter.mp hpart).1 hc)
  exact isAscii_capitalised hwithin d hmem

/-- A small letter at the front of a pascal form comes from the capital one, which it is
changed back into. -/
theorem pascalChars_uncapitalised {s : List Char} (h : ∀ c ∈ s, c.toNat < 128) :
    pascalChars (uncapitalised (pascalChars s)) = pascalChars s := by
  have hascii := isAscii_pascalChars h
  have hlacks := underscore_not_mem_pascalChars s
  have hsettled := capitalised_pascalChars s
  cases hform : pascalChars s with
  | nil => rfl
  | cons c rest =>
    rw [hform] at hascii hlacks hsettled
    rw [List.mem_cons, not_or] at hlacks
    have hc : c.toNat < 128 := hascii c List.mem_cons_self
    have hupper : c.toUpper = c := by
      rw [capitalised, capital, if_pos hc] at hsettled
      exact (List.cons.inj hsettled).1
    have hsmall : c.toLower.toNat < 128 := (isAscii_toLower c).mpr hc
    have hfront : '_' ≠ c.toLower := fun heq =>
      hlacks.1 ((toLower_eq_iff (by decide) c).mp heq.symm).symm
    have hchars : uncapitalised (c :: rest) = c.toLower :: rest := by
      rw [uncapitalised, small, if_pos hc, List.singleton_append]
    have hall : '_' ∉ c.toLower :: rest := by
      rw [List.mem_cons, not_or]
      exact ⟨hfront, hlacks.2⟩
    rw [hchars, pascalChars_of_not_mem hall, capitalised, capital, if_pos hsmall,
      toUpper_toLower, hupper, List.singleton_append]

/-- Pascal forms are made part by part, without an underscore; the form of a form is the form
itself, and for names of ASCII the two forms are known from each other. -/
theorem forms_of_forms :
    (∀ s t, pascal (s ++ "_" ++ t) = pascal s ++ pascal t) ∧
      (∀ s, '_' ∉ (pascal s).toList) ∧
      (∀ s, pascal (pascal s) = pascal s) ∧
      (∀ s, camel (pascal s) = camel s) ∧
      ∀ s : String, (∀ c ∈ s.toList, c.toNat < 128) →
        pascal (camel s) = pascal s ∧ camel (camel s) = camel s := by
  refine ⟨pascal_append, fun s => ?_, fun s => ?_, fun s => ?_, fun s h => ?_⟩
  · rw [pascal, String.toList_ofList]
    exact underscore_not_mem_pascalChars _
  · rw [pascal, pascal, String.toList_ofList, pascalChars_idem]
  · rw [camel, camel, pascal, String.toList_ofList, pascalChars_idem]
  · have hback := pascalChars_uncapitalised h
    constructor
    · rw [pascal, camel, String.toList_ofList, hback, pascal]
    · rw [camel, camel, String.toList_ofList, hback]

/-- Underscores at both ends and in a row, and a part that begins with a digit. -/
theorem forms_of_ownerId :
    (∀ c ∈ "_owner__9_Id_".toList, c.toNat < 128) ∧
      camel "_owner__9_Id_" = "owner9Id" ∧ pascal "owner9Id" = "Owner9Id" ∧
      pascal (camel "_owner__9_Id_") = pascal "_owner__9_Id_" ∧
      camel (camel "_owner__9_Id_") = camel "_owner__9_Id_" := by
  have hascii : ∀ c ∈ "_owner__9_Id_".toList, c.toNat < 128 := by simp
  obtain ⟨_, _, _, _, hforms⟩ := forms_of_forms
  exact ⟨hascii, by decide +kernel, by decide +kernel, hforms _ hascii⟩

/-- A letter with a capital form of two characters. -/
example : pascal "ßa_ŉb" = "SSaʼNb" ∧ camel "ßa" = "sSa" := by decide +kernel

end Schemata.Naming

import Mathlib.Data.List.Nodup
import Mathlib.Data.Set.Function
import Schemata.Naming
import Schemata.Proofs.Text.Joined
import Schemata.Proofs.Text.Letters

/-!
Canonical names: segments of small letters and digits, joined by single underscores, each with a
letter at its front. Every segment gets a capital letter in the pascal form and has no other
one, so that the capital letters tell where the segments began, and the name is read back
from its pascal form and from its camel form.
-/
namespace Schemata.Naming

open Text

/-- A small letter of ASCII with small letters and digits behind it. -/
def IsSegment : List Char → Prop
  | [] => False
  | c :: rest => c.isLower = true ∧ ∀ d ∈ rest, d.isLower = true ∨ d.isDigit = true

/-- One or more segments with single underscores between them. -/
def Canonical (name : String) : Prop :=
  ∃ segments : List (List Char), segments ≠ [] ∧ (∀ segment ∈ segments, IsSegment segment) ∧
    name.toList = ['_'].intercalate segments

instance : DecidablePred IsSegment
  | [] => isFalse id
  | _ :: rest =>
    -- by the characters of the segment, and not by all characters
    haveI := List.decidableBAll (fun d : Char => d.isLower = true ∨ d.isDigit = true) rest
    instDecidableAnd

theorem capital_of_isLower {c : Char} (h : c.isLower = true) : capital c = [c.toUpper] := by
  rw [isLower_iff] at h
  exact if_pos (by omega)

/-- A capital letter stands for an underscore and the small letter. -/
def unfolded (s : List Char) : List Char :=
  s.flatMap fun c => if c.isUpper then ['_', c.toLower] else [c]

/-- The name with an underscore wherever a segment begins, except at the front. -/
def snake (s : String) : String :=
  match unfolded s.toList with
  | '_' :: rest => String.ofList rest
  | rest => String.ofList rest

/-- What a segment may hold behind its front is no capital letter and no underscore. -/
theorem of_segment_char {c : Char} (h : c.isLower = true ∨ c.isDigit = true) :
    c.isUpper = false ∧ c ≠ '_' ∧ c.isAlphanum = true := by
  have hcode : 97 ≤ c.toNat ∧ c.toNat ≤ 122 ∨ 48 ≤ c.toNat ∧ c.toNat ≤ 57 :=
    h.imp isLower_iff.mp isDigit_iff.mp
  refine ⟨?_, ?_, ?_⟩
  · rw [← Bool.not_eq_true, isUpper_iff]
    omega
  · rintro rfl
    exact absurd hcode (by decide)
  · rw [Char.isAlphanum, Bool.or_eq_true]
    exact h.imp_left fun hlower => isAlpha_iff.mpr (Or.inr (isLower_iff.mp hlower))

theorem capital_small {c : Char} (h : c.isLower = true) :
    c.toUpper.isUpper = true ∧ c.toUpper.toLower = c := by
  rw [isLower_iff] at h
  have hupper := toNat_toUpper c
  rw [if_pos h] at hupper
  refine ⟨?_, ?_⟩
  · rw [isUpper_iff]
    omega
  · rw [← Char.toNat_inj, toNat_toLower, hupper, if_pos (by omega)]
    omega

theorem IsSegment.exists_cons {segment : List Char} (h : IsSegment segment) :
    ∃ c rest, segment = c :: rest ∧ c.isLower = true ∧
      ∀ d ∈ rest, d.isLower = true ∨ d.isDigit = true := by
  cases segment with
  | nil => exact h.elim
  | cons c rest => exact ⟨c, rest, rfl, h⟩

theorem IsSegment.chars {segment : List Char} (h : IsSegment segment) :
    ∀ d ∈ segment, d.isLower = true ∨ d.isDigit = true := by
  obtain ⟨c, rest, rfl, hc, hrest⟩ := h.exists_cons
  intro d hd
  rcases List.mem_cons.mp hd with rfl | hd
  · exact Or.inl hc
  · exact hrest d hd

theorem IsSegment.not_mem {segment : List Char} (h : IsSegment segment) : '_' ∉ segment :=
  fun hmem => (of_segment_char (h.chars _ hmem)).2.1 rfl

/-- The segments are the parts between the underscores. -/
theorem canonical_iff {name : String} :
    Canonical name ↔ ∀ segment ∈ name.toList.splitOn '_', IsSegment segment := by
  constructor
  · rintro ⟨segments, hne, hsegments, hname⟩
    rw [hname, List.splitOn_intercalate '_' (fun _ hmem => (hsegments _ hmem).not_mem) hne]
    exact hsegments
  · intro h
    exact ⟨_, List.splitOn_ne_nil _ _, h, (List.intercalate_splitOn '_').symm⟩

instance : DecidablePred Canonical := fun _ => decidable_of_iff _ canonical_iff.symm

theorem unfolded_of_no_capital {s : List Char} (h : ∀ c ∈ s, c.isUpper = false) :
    unfolded s = s := by
  induction s with
  | nil => rfl
  | cons c s ih =>
    obtain ⟨hc, hs⟩ := List.forall_mem_cons.mp h
    rw [unfolded, List.flatMap_cons, ← unfolded, ih hs, hc]
    rfl

theorem unfolded_append (s t : List Char) : unfolded (s ++ t) = unfolded s ++ unfolded t :=
  List.flatMap_append

theorem unfolded_capitalised {segment : List Char} (h : IsSegment segment) :
    unfolded (capitalised segment) = '_' :: segment := by
  obtain ⟨c, rest, rfl, hc, hrest⟩ := h.exists_cons
  obtain ⟨hupper, hback⟩ := capital_small hc
  have hfront : unfolded [c.toUpper] = ['_', c] := by
    simp [unfolded, hupper, hback]
  rw [capitalised, capital_of_isLower hc, unfolded_append, hfront,
    unfolded_of_no_capital fun d hd => (of_segment_char (hrest d hd)).1]
  rfl

section Segments

variable {segments : List (List Char)} (h : ∀ segment ∈ segments, IsSegment segment)
include h

theorem unfolded_flatMap_capitalised :
    unfolded (segments.flatMap capitalised) = segments.flatMap ('_' :: ·) := by
  induction segments with
  | nil => rfl
  | cons segment segments ih =>
    obtain ⟨hfirst, hmore⟩ := List.forall_mem_cons.mp h
    rw [List.flatMap_cons, List.flatMap_cons, unfolded_append, unfolded_capitalised hfirst,
      ih hmore]

/-- No segment is lost and none is empty, so that the parts of the name are its segments. -/
theorem pascalChars_intercalate (hne : segments ≠ []) :
    pascalChars (['_'].intercalate segments) = segments.flatMap capitalised := by
  have hparts : ∀ segment ∈ segments, '_' ∉ segment := fun _ hsegment => (h _ hsegment).not_mem
  have hfilter : segments.filter (!·.isEmpty) = segments := by
    refine List.filter_eq_self.mpr fun segment hsegment => ?_
    obtain ⟨c, rest, rfl, _⟩ := (h segment hsegment).exists_cons
    rfl
  rw [pascalChars, List.splitOn_intercalate '_' hparts hne, hfilter]

end Segments

theorem snake_pascal {name : String} (h : Canonical name) : snake (pascal name) = name := by
  obtain ⟨segments, hne, hsegments, hname⟩ := h
  have hunfolded : unfolded (pascal name).toList = '_' :: name.toList := by
    obtain ⟨first, more, rfl⟩ := List.exists_cons_of_ne_nil hne
    rw [pascal, String.toList_ofList, hname, pascalChars_intercalate hsegments hne,
      unfolded_flatMap_capitalised hsegments, intercalate_cons_eq_flatMap]
    rfl
  rw [snake, hunfolded]
  exact String.ofList_toList

theorem snake_camel {name : String} (h : Canonical name) : snake (camel name) = name := by
  obtain ⟨segments, hne, hsegments, hname⟩ := h
  obtain ⟨first, more, rfl⟩ := List.exists_cons_of_ne_nil hne
  obtain ⟨hfirst, hmore⟩ := List.forall_mem_cons.mp hsegments
  obtain ⟨c, rest, rfl, hc, hrest⟩ := hfirst.exists_cons
  obtain ⟨hupper, hback⟩ := capital_small hc
  have hsmall : small c.toUpper = [c] := by
    rw [isUpper_iff] at hupper
    exact (if_pos (by omega)).trans (congrArg ([·]) hback)
  have hcamel : (camel name).toList = c :: rest ++ more.flatMap capitalised := by
    rw [camel, String.toList_ofList, hname, pascalChars_intercalate hsegments hne,
      List.flatMap_cons, capitalised, capital_of_isLower hc, List.append_assoc,
      List.singleton_append, uncapitalised, hsmall]
    rfl
  have hunfolded : unfolded (camel name).toList = name.toList := by
    rw [hcamel, unfolded_append, unfolded_flatMap_capitalised hmore,
      unfolded_of_no_capital fun d hd => (of_segment_char (hfirst.chars d hd)).1, hname,
      intercalate_cons_eq_flatMap]
    rfl
  have hfront : ∀ s, name.toList ≠ '_' :: s := by
    intro s hs
    rw [hname, intercalate_cons_eq_flatMap] at hs
    exact (of_segment_char (Or.inl hc)).2.1 (List.cons.inj hs).1
  rw [snake, hunfolded]
  split
  · rename_i s hs
    exact absurd hs (hfront s)
  · exact String.ofList_toList

theorem pascal_injOn : Set.InjOn pascal {name | Canonical name} :=
  Set.LeftInvOn.injOn fun _ => snake_pascal

theorem camel_injOn : Set.InjOn camel {name | Canonical name} :=
  Set.LeftInvOn.injOn fun _ => snake_camel

theorem isAlphanum_pascal {name : String} (h : Canonical name) :
    ∀ c ∈ (pascal name).toList, c.isAlphanum = true := by
  obtain ⟨segments, hne, hsegments, hname⟩ := h
  rw [pascal, String.toList_ofList, hname, pascalChars_intercalate hsegments hne]
  intro d hd
  obtain ⟨segment, hsegment, hd⟩ := List.mem_flatMap.mp hd
  obtain ⟨c, rest, rfl, hc, hrest⟩ := (hsegments segment hsegment).exists_cons
  rw [capitalised, capital_of_isLower hc, List.singleton_append, List.mem_cons] at hd
  rcases hd with rfl | hd
  · rw [Char.isAlphanum, Bool.or_eq_true]
    exact Or.inl (isAlpha_iff.mpr (Or.inl (isUpper_iff.mp (capital_small hc).1)))
  · exact (of_segment_char (hrest d hd)).2.2

/-- Different names have different pascal forms. -/
theorem nodup_map_pascal {names : List String} (hnames : names.Nodup)
    (h : ∀ name ∈ names, Canonical name) : (names.map pascal).Nodup :=
  List.Nodup.map_on (fun _ hname _ hother => pascal_injOn (h _ hname) (h _ hother)) hnames

end Schemata.Naming

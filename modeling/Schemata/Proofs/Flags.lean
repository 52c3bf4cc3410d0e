import Mathlib.Data.List.Sort
import Schemata.Flags

/-!
Sets of flags are known by their members, so that a list of flags is read as the same set
whatever its order and however often it names a flag.
-/
namespace Schemata.Flags

theorem mem_foldl_insert {flag : String} (flags : List String) (set : Flags) :
    flag ∈ (flags.foldl (fun set flag => set.insert flag) set).toList ↔
      flag ∈ set.toList ∨ flag ∈ flags := by
  induction flags generalizing set with
  | nil => simp
  | cons first rest ih =>
    have hinsert : flag ∈ (set.insert first).toList ↔ flag = first ∨ flag ∈ set.toList :=
      mem_insertInto
    rw [List.foldl_cons, ih, hinsert, List.mem_cons, or_assoc, or_left_comm]

theorem eq_of_mem_iff {set other : Flags} (h : ∀ flag, flag ∈ set.toList ↔ flag ∈ other.toList) :
    set = other := by
  have hlists := set.increasing.eq_of_mem_iff other.increasing h
  cases set
  cases other
  cases hlists
  rfl

theorem ofList_eq_iff {names : List String} {flags : Flags} :
    ofList names = flags ↔ ∀ flag, flag ∈ flags ↔ flag ∈ names := by
  have hmem : ∀ flag, flag ∈ (ofList names).toList ↔ flag ∈ names := by
    intro flag
    rw [ofList, mem_foldl_insert]
    simp [empty]
  constructor
  · rintro rfl
    exact hmem
  · exact fun h => eq_of_mem_iff fun flag => (hmem flag).trans (h flag).symm

theorem ofList_toList (flags : Flags) : ofList flags.toList = flags :=
  ofList_eq_iff.mpr fun _ => Iff.rfl

end Schemata.Flags

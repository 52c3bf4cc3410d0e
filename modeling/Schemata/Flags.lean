/-!
Sets of column flags, kept as strictly increasing lists in code point order. Two sets with
the same members are equal.
-/
namespace Schemata

structure Flags where
  toList : List String
  increasing : toList.Pairwise (· < ·)

namespace Flags

def empty : Flags := ⟨[], List.Pairwise.nil⟩

instance : Inhabited Flags := ⟨empty⟩

instance : Membership String Flags := ⟨fun flags flag => flag ∈ flags.toList⟩

instance : DecidableEq Flags := fun flags others =>
  match flags, others with
  | ⟨xs, _⟩, ⟨ys, _⟩ =>
    if h : xs = ys then isTrue (by subst h; rfl) else isFalse fun e => h (congrArg toList e)

/-- Each flag goes before the first larger one; a flag that is there already stays alone. -/
def insertInto (flag : String) : List String → List String
  | [] => [flag]
  | other :: rest =>
    if flag < other then flag :: other :: rest
    else if flag = other then other :: rest
    else other :: insertInto flag rest

theorem mem_insertInto {flag x : String} {xs : List String} :
    x ∈ insertInto flag xs ↔ x = flag ∨ x ∈ xs := by
  induction xs with
  | nil => simp [insertInto]
  | cons other rest ih =>
    unfold insertInto
    split
    · simp
    · split
      · rename_i h
        subst h
        simp
      · simp only [List.mem_cons, ih]
        exact or_left_comm

theorem lt_of_not_lt_of_ne {s t : String} (hlt : ¬s < t) (hne : s ≠ t) : t < s :=
  Decidable.byContradiction fun h =>
    hne (String.le_antisymm (String.not_lt.mp h) (String.not_lt.mp hlt))

theorem insertInto_increasing {flag : String} {xs : List String}
    (h : xs.Pairwise (· < ·)) : (insertInto flag xs).Pairwise (· < ·) := by
  induction xs with
  | nil => simp [insertInto]
  | cons other rest ih =>
    obtain ⟨hother, hrest⟩ := List.pairwise_cons.mp h
    unfold insertInto
    split
    · rename_i hlt
      refine List.pairwise_cons.mpr ⟨fun x hx => ?_, h⟩
      rcases List.mem_cons.mp hx with rfl | hx
      · exact hlt
      · exact String.lt_trans hlt (hother x hx)
    · split
      · exact h
      · rename_i hlt hne
        refine List.pairwise_cons.mpr ⟨fun x hx => ?_, ih hrest⟩
        rcases mem_insertInto.mp hx with rfl | hx
        · exact lt_of_not_lt_of_ne hlt hne
        · exact hother x hx

def insert (flag : String) (flags : Flags) : Flags :=
  ⟨insertInto flag flags.toList, insertInto_increasing flags.increasing⟩

def ofList (flags : List String) : Flags := flags.foldl (fun set flag => set.insert flag) empty

end Flags

end Schemata

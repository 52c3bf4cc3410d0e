import Mathlib.Data.List.Basic
import Schemata.CommandLine.Plan

/-!
A folder as a map from names to texts. A path that leads to a file of the folder is one step long.
Writing a file changes what is read under its name and nothing else.
-/
namespace Schemata.CommandLine.Folder

variable {folder written : Folder} {path other name name' content text : String}

/-- The path leads to a place in the folder itself that a file can have. -/
structure Leads (path name : String) : Prop where
  nonempty : path.isEmpty = false
  toFile : namesFolder path = false
  step : steps path = [name]

theorem locate_of_leads (h : Leads path name) :
    folder.locate path = (folder.lookup name).elim (.absent name) (.file name) := by
  obtain ⟨hnonempty, hfile, hstep⟩ := h
  cases hlookup : folder.lookup name <;> simp [locate, hnonempty, hfile, hstep, hlookup]

/-- Files are found, and made, only where a path leads into the folder itself. -/
theorem leads_of_locate
    (h : (∃ content, folder.locate path = .file name content) ∨
      folder.locate path = .absent name) :
    Leads path name := by
  unfold locate at h
  split at h
  · rcases h with ⟨_, h⟩ | h <;> cases h
  rename_i hnonempty
  split at h
  · rcases h with ⟨_, h⟩ | h <;> cases h
  · rename_i step hstep
    have hleads (hfile : ¬namesFolder path = true) (hname : step = name) : Leads path name :=
      ⟨Bool.eq_false_iff.mpr hnonempty, Bool.eq_false_iff.mpr hfile, hname ▸ hstep⟩
    split at h
    · split at h
      · rcases h with ⟨_, h⟩ | h <;> cases h
      · rename_i hfile
        rcases h with ⟨_, h⟩ | h
        · exact hleads hfile (Entry.file.inj h).1
        · cases h
    · split at h
      · rcases h with ⟨_, h⟩ | h <;> cases h
      · rename_i hfile
        rcases h with ⟨_, h⟩ | h
        · cases h
        · exact hleads hfile (Entry.absent.inj h)
  · split at h <;> rcases h with ⟨_, h⟩ | h <;> cases h

theorem read_eq_ok_iff :
    folder.read path = .ok content ↔
      ∃ name, Leads path name ∧ folder.lookup name = some content := by
  constructor
  · intro h
    unfold read at h
    split at h
    · rename_i name found hfound
      obtain rfl := Except.ok.inj h
      have hleads := leads_of_locate (Or.inl ⟨_, hfound⟩)
      refine ⟨name, hleads, ?_⟩
      rw [locate_of_leads hleads] at hfound
      cases hlookup : folder.lookup name with
      | none =>
        rw [hlookup] at hfound
        cases hfound
      | some text =>
        rw [hlookup] at hfound
        exact congrArg some (Entry.file.inj hfound).2
    · cases h
    · cases h
    · cases h
  · rintro ⟨name, hleads, hlookup⟩
    rw [read, locate_of_leads hleads, hlookup]
    rfl

theorem exists_of_write (h : folder.write path text = .ok written) :
    ∃ name, Leads path name ∧ written = (name, text) :: folder.filter (·.1 != name) := by
  unfold write at h
  split at h
  · rename_i hfound
    exact ⟨_, leads_of_locate (Or.inl ⟨_, hfound⟩), (Except.ok.inj h).symm⟩
  · rename_i hfound
    exact ⟨_, leads_of_locate (Or.inr hfound), (Except.ok.inj h).symm⟩
  · cases h
  · cases h

theorem lookup_without (h : name' ≠ name) :
    (folder.filter (·.1 != name)).lookup name' = folder.lookup name' := by
  induction folder with
  | nil => rfl
  | cons file folder ih =>
    obtain ⟨own, content⟩ := file
    by_cases hown : own = name
    · have hother : (name' == own) = false := beq_eq_false_iff_ne.mpr (hown ▸ h)
      rw [List.filter_cons_of_neg (by simp [hown]), ih, List.lookup_cons, hother]
    · rw [List.filter_cons_of_pos (by simp [hown]), List.lookup_cons, List.lookup_cons, ih]

/-- A file that was written holds what was written, and every other one what it held. -/
theorem read_of_write (h : folder.write path text = .ok written) :
    written.read path = .ok text ∧ ∀ other content, steps other ≠ steps path →
      (written.read other = .ok content ↔ folder.read other = .ok content) := by
  obtain ⟨name, hleads, rfl⟩ := exists_of_write h
  refine ⟨read_eq_ok_iff.mpr ⟨name, hleads, List.lookup_cons_self⟩, fun other content hother => ?_⟩
  rw [read_eq_ok_iff, read_eq_ok_iff]
  refine exists_congr fun name' => and_congr_right fun hleads' => ?_
  have hne : name' ≠ name := by
    rintro rfl
    exact hother (hleads'.step.trans hleads.step.symm)
  rw [List.lookup_cons, beq_eq_false_iff_ne.mpr hne, lookup_without hne]

end Schemata.CommandLine.Folder

import Mathlib.Data.List.Nodup
import Schemata.Proofs.Catalogue.Links

/-!
The groups of a list of links as a map. Every link that is added makes the groups larger by
one, under the name of its table: in the group that is there, or in a new one at the end.
So no name comes twice, no group is empty, and no link is lost or counted in two groups.
-/
namespace Schemata.Catalogue

def groupNames (groups : RelationGroups) : List String := groups.map (·.1)

/-- The number of relations in all groups together. -/
def groupedCount (groups : RelationGroups) : Nat :=
  groups.foldr (fun group count => group.2.length + count) 0

theorem groupNames_addLink (record : LinkRecord) (groups : RelationGroups) :
    groupNames (addLink record groups) =
      if record.table ∈ groupNames groups then groupNames groups
      else groupNames groups ++ [record.table] := by
  induction groups with
  | nil => rfl
  | cons group rest ih =>
    obtain ⟨table, relations⟩ := group
    by_cases hfound : table = record.table
    · simp [addLink, groupNames, hfound]
    · have hbehind : record.table ∈ groupNames ((table, relations) :: rest) ↔
          record.table ∈ groupNames rest := by
        rw [groupNames, List.map_cons, List.mem_cons, or_iff_right (Ne.symm hfound), groupNames]
      have hnames : groupNames (addLink record ((table, relations) :: rest)) =
          table :: groupNames (addLink record rest) := by
        rw [addLink, if_neg hfound]
        rfl
      rw [hnames, ih]
      by_cases hold : record.table ∈ groupNames rest
      · rw [if_pos hold, if_pos (hbehind.mpr hold)]
        rfl
      · rw [if_neg hold, if_neg fun hmem => hold (hbehind.mp hmem)]
        rfl

theorem groupedCount_addLink (record : LinkRecord) (groups : RelationGroups) :
    groupedCount (addLink record groups) = groupedCount groups + 1 := by
  induction groups with
  | nil => rfl
  | cons group rest ih =>
    obtain ⟨table, relations⟩ := group
    rw [groupedCount] at ih ⊢
    by_cases hfound : table = record.table
    · simp only [addLink, if_pos hfound, groupedCount, List.foldr_cons, List.length_append,
        List.length_singleton]
      omega
    · simp only [addLink, if_neg hfound, groupedCount, List.foldr_cons, ih]
      omega

/-- What the groups have in common with the links that were added to them. -/
structure Groups (records : List LinkRecord) (groups : RelationGroups) : Prop where
  names_nodup : (groupNames groups).Nodup
  mem_names_iff : ∀ name, name ∈ groupNames groups ↔ ∃ record ∈ records, record.table = name
  count_eq : groupedCount groups = records.length

theorem groups_nil : Groups [] [] where
  names_nodup := List.nodup_nil
  mem_names_iff := by simp [groupNames]
  count_eq := rfl

theorem Groups.addLink {records : List LinkRecord} {groups : RelationGroups}
    (h : Groups records groups) (record : LinkRecord) :
    Groups (records ++ [record]) (addLink record groups) := by
  have hadded (name : String) : (∃ other ∈ records ++ [record], other.table = name) ↔
      name ∈ groupNames groups ∨ name = record.table := by
    rw [h.mem_names_iff]
    simp only [List.mem_append, List.mem_singleton, or_and_right, exists_or, exists_eq_left,
      eq_comm (a := name)]
  refine ⟨?_, fun name => ?_, ?_⟩
  · rw [groupNames_addLink]
    split_ifs with hold
    · exact h.names_nodup
    · rw [← List.concat_eq_append]
      exact h.names_nodup.concat hold
  · rw [groupNames_addLink, hadded]
    split_ifs with hold
    · exact ⟨Or.inl, fun hname => hname.elim id fun heq => heq ▸ hold⟩
    · rw [List.mem_append, List.mem_singleton]
  · rw [groupedCount_addLink, h.count_eq, List.length_append, List.length_singleton]

theorem Groups.foldl {before : List LinkRecord} {groups : RelationGroups}
    (h : Groups before groups) (records : List LinkRecord) :
    Groups (before ++ records)
      (records.foldl (fun groups record => Catalogue.addLink record groups) groups) := by
  induction records generalizing before groups with
  | nil => rwa [List.append_nil]
  | cons record records ih =>
    rw [List.append_cons]
    exact ih (h.addLink record)

theorem groups_groupLinks (records : List LinkRecord) : Groups records (groupLinks records) :=
  groups_nil.foldl records

theorem mem_groupNames_iff (groups : RelationGroups) (name : String) :
    name ∈ groupNames groups ↔ ∃ relations, groups.lookup name = some relations := by
  rw [← Option.isSome_iff_exists, ← not_iff_not, Bool.not_eq_true, Option.isSome_eq_false_iff,
    Option.isNone_iff_eq_none, List.lookup_eq_none_iff, groupNames, List.mem_map]
  simp only [not_exists, not_and, bne_iff_ne, ne_comm (a := name)]

/-- Every table that some link starts at has one group, of the relations of its links in the
order of the links; no other table has a group, and the groups hold as many relations as there
are links. -/
theorem links_grouped_by_table (records : List LinkRecord) :
    (groupNames (groupLinks records)).Nodup ∧
      (∀ name, (groupLinks records).lookup name =
        if (records.filter (·.table == name)).isEmpty then none
        else some ((records.filter (·.table == name)).map LinkRecord.relation)) ∧
      (∀ name, name ∈ groupNames (groupLinks records) ↔ records.filter (·.table == name) ≠ []) ∧
      groupedCount (groupLinks records) = records.length := by
  have hgroups := groups_groupLinks records
  have hnames (name : String) : name ∈ groupNames (groupLinks records) ↔
      records.filter (·.table == name) ≠ [] := by
    rw [hgroups.mem_names_iff, Ne, List.filter_eq_nil_iff]
    simp only [beq_iff_eq, not_forall, not_not, exists_prop]
  refine ⟨hgroups.names_nodup, fun name => ?_, hnames, hgroups.count_eq⟩
  have hgroup := relationsOf_groupLinks records name
  have hkey := (mem_groupNames_iff _ name).symm.trans (hnames name)
  rw [relationsOf] at hgroup
  cases hlookup : (groupLinks records).lookup name with
  | none =>
    rw [hlookup] at hkey
    have hempty : records.filter (·.table == name) = [] := by
      by_contra hsome
      obtain ⟨_, hrelations⟩ := hkey.mpr hsome
      cases hrelations
    rw [if_pos (List.isEmpty_iff.mpr hempty)]
  | some relations =>
    have hsome := hkey.mp ⟨relations, hlookup⟩
    rw [hlookup, Option.getD_some] at hgroup
    rw [if_neg fun hempty => hsome (List.isEmpty_iff.mp hempty), hgroup]

end Schemata.Catalogue

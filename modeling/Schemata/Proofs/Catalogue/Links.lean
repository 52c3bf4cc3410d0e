import Schemata.Catalogue.Record

/-!
Links under the name of the table they start at. Grouping keeps every link of a table, in
the order in which the links came, and mixes in none of another table.
-/
namespace Schemata.Catalogue

theorem relationsOf_cons (table : String) (relations : List Relation) (rest : RelationGroups)
    (name : String) :
    relationsOf ((table, relations) :: rest) name =
      if table = name then relations else relationsOf rest name := by
  by_cases hname : table = name
  · simp [relationsOf, hname]
  · have hother : (name == table) = false := by simpa using Ne.symm hname
    simp [relationsOf, List.lookup_cons, hother, hname]

theorem relationsOf_addLink (record : LinkRecord) (groups : RelationGroups) (name : String) :
    relationsOf (addLink record groups) name =
      relationsOf groups name ++ if record.table = name then [record.relation] else [] := by
  induction groups with
  | nil =>
    rw [addLink, relationsOf_cons]
    rfl
  | cons group rest ih =>
    obtain ⟨table, relations⟩ := group
    by_cases hfound : table = record.table
    · rw [addLink, if_pos hfound, relationsOf_cons, relationsOf_cons, hfound]
      by_cases hname : record.table = name
      · simp only [if_pos hname]
      · simp only [if_neg hname, List.append_nil]
    · rw [addLink, if_neg hfound, relationsOf_cons, relationsOf_cons, ih]
      by_cases hname : table = name
      · have hother : record.table ≠ name := fun heq => hfound (hname.trans heq.symm)
        rw [if_pos hname, if_pos hname, if_neg hother, List.append_nil]
      · rw [if_neg hname, if_neg hname]

theorem relationsOf_foldl (records : List LinkRecord) (groups : RelationGroups) (name : String) :
    relationsOf (records.foldl (fun groups record => addLink record groups) groups) name =
      relationsOf groups name ++ (records.filter (·.table == name)).map LinkRecord.relation := by
  induction records generalizing groups with
  | nil => simp
  | cons record records ih =>
    rw [List.foldl_cons, ih, relationsOf_addLink, List.append_assoc]
    by_cases hname : record.table = name
    · simp [hname]
    · simp [hname]

theorem relationsOf_groupLinks (records : List LinkRecord) (name : String) :
    relationsOf (groupLinks records) name =
      (records.filter (·.table == name)).map LinkRecord.relation :=
  relationsOf_foldl records [] name

end Schemata.Catalogue

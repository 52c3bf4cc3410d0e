import Schemata.Document.PrismaModel

/-!
The attributes of a field, one by one. The default of a column is one of them whenever the schema
language can say it.
-/
namespace Schemata.Document.PrismaModel

theorem attribute_cases {column : Column} {text : String} (h : text ∈ attributes column) :
    text = "@id" ∨ text = "@unique" ∨
      (∃ value, defaultArgument? column = some value ∧
        text = "@default(" ++ value ++ ")") ∨
      ∃ n : UInt32, text = "@db.VarChar(" ++ toString n ++ ")" := by
  simp only [attributes, List.mem_append] at h
  rcases h with ((hid | hunique) | hdefault) | hlength
  · split at hid
    · exact Or.inl (List.mem_singleton.mp hid)
    · cases hid
  · split at hunique
    · exact Or.inr (Or.inl (List.mem_singleton.mp hunique))
    · cases hunique
  · obtain ⟨value, hvalue, rfl⟩ := Option.map_eq_some_iff.mp (Option.mem_toList.mp hdefault)
    exact Or.inr (Or.inr (Or.inl ⟨value, hvalue, rfl⟩))
  · split at hlength
    · obtain ⟨n, _, rfl⟩ := Option.map_eq_some_iff.mp (Option.mem_toList.mp hlength)
      exact Or.inr (Or.inr (Or.inr ⟨n, rfl⟩))
    · cases hlength

theorem default_mem_attributes {column : Column} {value : String}
    (h : defaultArgument? column = some value) :
    "@default(" ++ value ++ ")" ∈ attributes column := by
  have hdefault : "@default(" ++ value ++ ")" ∈
      ((defaultArgument? column).map fun value => "@default(" ++ value ++ ")").toList := by
    rw [h, Option.map_some]
    exact List.mem_singleton_self _
  exact List.mem_append_left _ (List.mem_append_right _ hdefault)

end Schemata.Document.PrismaModel

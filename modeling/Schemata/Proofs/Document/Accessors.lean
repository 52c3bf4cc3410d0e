import Mathlib.Data.List.Nodup
import Schemata.Proofs.Document.EloquentClass

/-!
Names of the methods of a model class. Behind its head a class has one method for the casts and
one accessor for each relation. An accessor whose name is taken gets a longer one, which is not
looked at again, and the name of the method for the casts is never looked at. The names are
different just when neither matters.
-/
namespace Schemata.Document.EloquentModel

def methodNames (model : EloquentModel) : List String :=
  "casts" :: model.accessors.map (·.name)

def methodTexts (model : EloquentModel) : List String :=
  castsText model :: model.accessors.map Accessor.text

/-- The text has the head of a method of this name. -/
def Declares (text name : String) : Prop :=
  ∃ before after, text.toList =
    before ++ ("function ".toList ++ (name.toList ++ ("(".toList ++ after)))

theorem declares_castsText (model : EloquentModel) : Declares (castsText model) "casts" := by
  have hhead : "    protected function casts(): array\n    \x7b\n        return [" =
      "    protected " ++ ("function " ++ ("casts" ++ ("(" ++
        "): array\n    \x7b\n        return ["))) := by
    decide +kernel
  unfold castsText
  rw [hhead]
  simp only [Declares, String.toList_append, List.append_assoc, -String.reduceAppend]
  rw [← List.append_assoc]
  exact ⟨_, _, rfl⟩

theorem declares_accessor (accessor : Accessor) : Declares accessor.text accessor.name := by
  have hhead : "\n    public function " = "\n    public " ++ "function " := by decide +kernel
  have hopen : "(): BelongsTo\n    \x7b\n" = "(" ++ "): BelongsTo\n    \x7b\n" := by
    decide +kernel
  unfold Accessor.text
  rw [hhead, hopen]
  simp only [Declares, String.toList_append, List.append_assoc, -String.reduceAppend]
  exact ⟨_, _, rfl⟩

theorem declares_methodTexts (model : EloquentModel) :
    List.Forall₂ Declares (methodTexts model) (methodNames model) := by
  refine .cons (declares_castsText model) ?_
  rw [List.forall₂_map_left_iff, List.forall₂_map_right_iff, List.forall₂_same]
  exact fun accessor _ => declares_accessor accessor

theorem methodsText_eq (model : EloquentModel) :
    methodsText model = String.join (methodTexts model) ++ "\x7d" := by
  rw [methodsText, methodTexts, String.join_cons, String.append_assoc]

/-- The name of an accessor unless it is taken. -/
def shortName (relation : Relation) : String := Naming.camel relation.referencedTable

def longName (relation : Relation) : String :=
  shortName relation ++ "By" ++ Naming.pascal relation.column

def accessorNames (relations : List Relation) : List String :=
  (accessorsAfter [] relations).map (·.name)

theorem accessorName_eq (taken : List String) (relation : Relation) :
    accessorName taken relation =
      if shortName relation ∈ taken then longName relation else shortName relation := by
  unfold accessorName
  by_cases h : shortName relation ∈ taken
  · rw [if_pos h]
    exact if_pos (List.contains_iff_mem.mpr h)
  · rw [if_neg h]
    exact if_neg fun hcontains => h (List.contains_iff_mem.mp hcontains)

theorem accessorName_congr {taken other : List String} (h : ∀ name, name ∈ taken ↔ name ∈ other)
    (relation : Relation) : accessorName taken relation = accessorName other relation := by
  rw [accessorName_eq, accessorName_eq]
  simp only [h]

theorem accessorName_mem_iff {taken : List String} {relation : Relation} :
    accessorName taken relation ∈ taken ↔
      shortName relation ∈ taken ∧ longName relation ∈ taken := by
  rw [accessorName_eq]
  by_cases h : shortName relation ∈ taken
  · rw [if_pos h, and_iff_right h]
  · rw [if_neg h]
    exact iff_of_false h fun hboth => h hboth.1

theorem accessorsAfter_concat (taken : List String) (relations : List Relation)
    (relation : Relation) :
    (accessorsAfter taken (relations ++ [relation])).map (·.name) =
      (accessorsAfter taken relations).map (·.name) ++
        [accessorName ((accessorsAfter taken relations).map (·.name) ++ taken) relation] := by
  induction relations generalizing taken with
  | nil => rfl
  | cons first relations ih =>
    generalize hname : accessorName taken first = name
    have hsame (names : List String) : accessorName (names ++ name :: taken) relation =
        accessorName (name :: names ++ taken) relation := by
      refine accessorName_congr (fun other => ?_) relation
      simp only [List.mem_append, List.mem_cons, or_left_comm, or_assoc]
    simp only [List.cons_append, accessorsAfter, List.map_cons, hname, ih, hsame]

theorem accessorNames_concat (relations : List Relation) (relation : Relation) :
    accessorNames (relations ++ [relation]) =
      accessorNames relations ++ [accessorName (accessorNames relations) relation] := by
  have hnames := accessorsAfter_concat [] relations relation
  rwa [List.append_nil] at hnames

/-- Both names of a relation belong to accessors before it. -/
def Repeats (before : List Relation) (relation : Relation) : Prop :=
  shortName relation ∈ accessorNames before ∧ longName relation ∈ accessorNames before

theorem nodup_accessorNames_iff (relations : List Relation) :
    (accessorNames relations).Nodup ↔
      ∀ before relation after, relations = before ++ relation :: after →
        ¬ Repeats before relation := by
  induction relations using List.reverseRecOn with
  | nil => simp [accessorNames, accessorsAfter]
  | append_singleton relations last ih =>
    rw [accessorNames_concat, ← List.concat_eq_append, List.nodup_concat, accessorName_mem_iff, ih]
    constructor
    · rintro ⟨hlast, hbefore⟩ before relation after hsplit
      rcases List.eq_nil_or_concat after with rfl | ⟨after, final, rfl⟩
      · obtain ⟨rfl, rfl⟩ := List.concat_inj.mp (by simpa using hsplit)
        exact hlast
      · have hparts : relations.concat last = (before ++ relation :: after).concat final := by
          simpa using hsplit
        exact hbefore before relation after (List.concat_inj.mp hparts).1
    · intro h
      refine ⟨h relations last [] rfl, fun before relation after hsplit => ?_⟩
      refine h before relation (after ++ [last]) ?_
      rw [hsplit, List.append_assoc, List.cons_append]

/-- The capital letter of a long name is in no name that has none. -/
theorem longName_ne_casts (relation : Relation) : longName relation ≠ "casts" := by
  intro h
  have hmem : 'B' ∈ (longName relation).toList := by
    simp [longName]
  rw [h] at hmem
  exact absurd hmem (by decide)

theorem casts_mem_accessorNames_iff (relations : List Relation) :
    "casts" ∈ accessorNames relations ↔
      ∃ relation ∈ relations, shortName relation = "casts" := by
  induction relations using List.reverseRecOn with
  | nil => simp [accessorNames, accessorsAfter]
  | append_singleton relations last ih =>
    rw [accessorNames_concat, List.mem_append, List.mem_singleton, accessorName_eq]
    constructor
    · rintro (hbefore | hlast)
      · obtain ⟨relation, hrelation, hname⟩ := ih.mp hbefore
        exact ⟨relation, List.mem_append_left _ hrelation, hname⟩
      · split at hlast
        · exact absurd hlast.symm (longName_ne_casts last)
        · exact ⟨last, List.mem_append_right _ (List.mem_singleton_self last), hlast.symm⟩
    · rintro ⟨relation, hrelation, hname⟩
      rcases List.mem_append.mp hrelation with hbefore | hlast
      · exact Or.inl (ih.mpr ⟨relation, hbefore, hname⟩)
      · rw [List.mem_singleton.mp hlast] at hname
        by_cases htaken : shortName last ∈ accessorNames relations
        · exact Or.inl (hname ▸ htaken)
        · exact Or.inr (by rw [if_neg htaken, hname])

/-- Behind its head a class declares the method for the casts and one method for each relation.
Their names are different just when no table is called like the method for the casts, and no
relation has both of its names taken by relations before it. -/
theorem methodNames_nodup_iff (nameSpace : String) (table : Table) :
    (∃ settings, readSettings nameSpace (Naming.pascal table.name)
        (classText nameSpace (ofTable table)) =
          some (settings, (String.join (methodTexts (ofTable table)) ++ "\x7d").toList)) ∧
      List.Forall₂ Declares (methodTexts (ofTable table)) (methodNames (ofTable table)) ∧
      ((methodNames (ofTable table)).Nodup ↔
        (∀ relation ∈ table.relations, shortName relation ≠ "casts") ∧
        ∀ before relation after, table.relations = before ++ relation :: after →
          ¬ Repeats before relation) := by
  refine ⟨⟨_, methodsText_eq (ofTable table) ▸ readSettings_classText nameSpace _⟩,
    declares_methodTexts _, ?_⟩
  have hnames : methodNames (ofTable table) = "casts" :: accessorNames table.relations := rfl
  rw [hnames, List.nodup_cons, nodup_accessorNames_iff, casts_mem_accessorNames_iff]
  simp only [not_exists, not_and]

/-- The roles of a film lead to the table of its casts. -/
def roles : Table where
  name := "roles"
  columns := [Column.ofType "cast_id" "int"]
  relations := [⟨"cast_id", "casts", "id"⟩]

/-- The third column of the messages has the name of the second one in another spelling. -/
def messages : Table where
  name := "messages"
  columns := ["author_id", "reader_id", "readerId"].map (Column.ofType · "int")
  relations := [⟨"author_id", "users", "id"⟩, ⟨"reader_id", "users", "id"⟩,
    ⟨"readerId", "users", "id"⟩]

theorem roles_and_messages_repeat_a_method :
    ((roles.columns.map (·.name)).Nodup ∧ (roles.relations.map (·.column)).Nodup ∧
        ¬ (methodNames (ofTable roles)).Nodup) ∧
      (messages.columns.map (·.name)).Nodup ∧ (messages.relations.map (·.column)).Nodup ∧
        ¬ (methodNames (ofTable messages)).Nodup := by
  decide +kernel

end Schemata.Document.EloquentModel

import Schemata.Proofs.Document.ModelAgreement

/-!
The columns that a migration makes, read from its calls. A call of a method for a type or of
the one for automatic keys makes one column, the call for timestamps makes two and the one for
soft deletes a third. The columns that record times have no line of their own, and the call for
timestamps needs both of its columns: one of them without the other is not made at all.
-/
namespace Schemata.Document.Migration

open Script ModelAgreement

/-- The call makes the column of this name. -/
inductive MakesColumn (name : String) : List Piece → Prop
  | typed {method : String} {call : List Piece} (hmethod : method ∈ typeMethods)
    (hcall : methodOf call = codes method) (hname : writtenName? call = some name) :
    MakesColumn name call
  | identity {call : List Piece} (hname : identityName? call = some name) : MakesColumn name call
  | timestamps (hname : name = "created_at" ∨ name = "updated_at") :
    MakesColumn name (codes "timestamps()")
  | softDeletes (hname : name = "deleted_at") : MakesColumn name (codes "softDeletes()")

/-- One of the two columns that are made together, in a table that lacks the other one. -/
def IsLoneStamp (table : Table) (column : Column) : Prop :=
  column.name = "created_at" ∧ table.hasColumn "updated_at" = false ∨
    column.name = "updated_at" ∧ table.hasColumn "created_at" = false

theorem hasColumn_of_mem {table : Table} {column : Column} (h : column ∈ table.columns) :
    table.hasColumn column.name = true := by
  rw [Table.hasColumn, Table.column?, List.find?_isSome]
  exact ⟨column, h, beq_self_eq_true column.name⟩

/-- The line of a column makes it. -/
theorem makesColumn_line (column : Column) :
    MakesColumn column.name (Line.callPieces (.column column)) := by
  have hmade := made_column column
  generalize hpieces : Line.callPieces (.column column) = pieces at hmade ⊢
  have hreads := Line.reads (.column column)
  rw [hpieces] at hreads
  cases hreads with
  | column hcreates _ =>
    cases hcreates with
    | unnamed hidentity _ => exact .identity (by rw [hmade.identityName_eq, if_pos hidentity])
    | named hidentity _ => exact .identity (by rw [hmade.identityName_eq, if_pos hidentity])
    | typed _ hmethod =>
      have hopen := (typeMethod_parts _ hmethod).1
      exact .typed hmethod (methodOf_namedCall hopen _ _ _) (writtenName_namedCall hopen _ _ _)

/-- A call that makes a column of this name makes it by its own line, or it is one of the two
calls without arguments. -/
theorem MakesColumn.cases {name : String} {call : List Piece} (h : MakesColumn name call) :
    createdName? call = some name ∨
      (name = "created_at" ∨ name = "updated_at") ∧ call = Line.callPieces .timestamps ∨
      name = "deleted_at" ∧ call = Line.callPieces .softDeletes := by
  cases h with
  | typed hmethod hcall hname =>
    obtain ⟨_, hid, hforeign⟩ := typeMethod_parts _ hmethod
    rw [createdName?, identityName?, hcall, if_neg (codes_inj.not.mpr hforeign),
      if_neg (codes_inj.not.mpr hid), hname]
    exact Or.inl rfl
  | identity hname =>
    have hmethod : methodOf call = codes "id" := by
      by_contra hother
      rw [identityName?, if_neg hother] at hname
      cases hname
    rw [createdName?, hmethod, if_neg (by decide), hname]
    exact Or.inl rfl
  | timestamps hname => exact Or.inr (Or.inl ⟨hname, rfl⟩)
  | softDeletes hname => exact Or.inr (Or.inr ⟨hname, rfl⟩)

theorem not_isLoneStamp_of_hasOwnLine {table : Table} {column : Column}
    (h : hasOwnLine column = true) : ¬IsLoneStamp table column := by
  simp only [hasOwnLine, isTimestampName, Bool.not_eq_true', Bool.or_eq_false_iff,
    beq_eq_false_iff_ne] at h
  rintro (⟨hname, _⟩ | ⟨hname, _⟩)
  · exact h.1.1 hname
  · exact h.1.2 hname

theorem hasTimestamps_iff {table : Table} {column : Column} (hmem : column ∈ table.columns)
    (hname : column.name = "created_at" ∨ column.name = "updated_at") :
    table.hasTimestamps = true ↔ ¬IsLoneStamp table column := by
  have hcolumn := hasColumn_of_mem hmem
  rw [Table.hasTimestamps, Bool.and_eq_true, IsLoneStamp]
  rcases hname with hname | hname
  · rw [hname] at hcolumn ⊢
    simp [hcolumn]
  · rw [hname] at hcolumn ⊢
    simp [hcolumn]

/-- The lines of the body make every column but one whose partner is missing. -/
theorem exists_makesColumn_iff {table : Table} {column : Column} (hmem : column ∈ table.columns) :
    (∃ call ∈ (body table).map Line.callPieces, MakesColumn column.name call) ↔
      ¬IsLoneStamp table column := by
  constructor
  · rintro ⟨call, hcall, hmakes⟩
    rcases hmakes.cases with hcreated | ⟨hname, rfl⟩ | ⟨hname, rfl⟩
    · obtain ⟨line, hline, rfl⟩ := List.mem_map.mp hcall
      rw [createdName_callPieces] at hcreated
      cases line with
      | column source =>
        have hown := (List.mem_filter.mp (column_mem_body.mp hline)).2
        have hsame : source.name = column.name := Option.some.inj hcreated
        rw [hasOwnLine, hsame] at hown
        exact not_isLoneStamp_of_hasOwnLine hown
      | foreignKey relation => cases hcreated
      | timestamps => cases hcreated
      | softDeletes => cases hcreated
    · have hstamps := (callPieces_mem_map (Or.inl rfl) _).mp hcall
      exact (hasTimestamps_iff hmem hname).mp ((timestamps_mem_body table).mp hstamps)
    · rintro (⟨hother, _⟩ | ⟨hother, _⟩)
      · exact absurd (hname.symm.trans hother) (by decide)
      · exact absurd (hname.symm.trans hother) (by decide)
  · intro hpartner
    by_cases hown : hasOwnLine column = true
    · have hline := column_mem_body.mpr (List.mem_filter.mpr ⟨hmem, hown⟩)
      exact ⟨_, List.mem_map_of_mem hline, makesColumn_line column⟩
    · simp only [hasOwnLine, isTimestampName, Bool.not_eq_true', Bool.not_eq_false,
        Bool.or_eq_true, beq_iff_eq] at hown
      rcases hown with hname | hname
      · have hline := (timestamps_mem_body table).mpr ((hasTimestamps_iff hmem hname).mpr hpartner)
        exact ⟨_, List.mem_map_of_mem hline, .timestamps hname⟩
      · have hdeletes : table.hasSoftDeletes = true := by
          rw [Table.hasSoftDeletes, ← hname]
          exact hasColumn_of_mem hmem
        have hline := (softDeletes_mem_body table).mpr hdeletes
        exact ⟨_, List.mem_map_of_mem hline, .softDeletes hname⟩

/-- Read from its text, a migration has one call for each column with a line of its own, in
their order, and makes every column of its table, unless it is one of the two that timestamps
make together and the table lacks the other one. -/
theorem columns_made_iff (table : Table) :
    ∃ pieces, pieces? (ofTable table) = some pieces ∧
      (calls pieces).filterMap createdName? =
        (table.columns.filter fun column => !isTimestampName column.name).map (·.name) ∧
      ∀ column ∈ table.columns,
        (∃ call ∈ calls pieces, MakesColumn column.name call) ↔ ¬IsLoneStamp table column := by
  obtain ⟨pieces, hpieces, _, hcalls⟩ := exists_pieces table
  refine ⟨pieces, hpieces, ?_, fun column hmem => ?_⟩
  · rw [hcalls, createdNames_body]
    rfl
  · rw [hcalls]
    exact exists_makesColumn_iff hmem

/-- Drafts record all three times. -/
def drafts : Table where
  name := "drafts"
  columns := ["id", "created_at", "updated_at", "deleted_at"].map (Column.ofType · "timestamp")

theorem drafts_made_with_their_times :
    ∃ pieces, pieces? (ofTable drafts) = some pieces ∧
      ∀ name ∈ ["id", "created_at", "updated_at", "deleted_at"],
        ∃ call ∈ calls pieces, MakesColumn name call := by
  obtain ⟨pieces, hpieces, _, hmade⟩ := columns_made_iff drafts
  refine ⟨pieces, hpieces, fun name hname => ?_⟩
  have hmem : Column.ofType name "timestamp" ∈ drafts.columns := List.mem_map_of_mem hname
  refine (hmade _ hmem).mpr ?_
  rintro (⟨_, hmissing⟩ | ⟨_, hmissing⟩)
  · exact absurd hmissing (by decide)
  · exact absurd hmissing (by decide)

/-- Visits are recorded once and never changed. -/
def visits : Table where
  name := "visits"
  columns := [Column.ofType "id" "int", Column.ofType "created_at" "timestamp"]

theorem visits_lose_their_time :
    ∃ pieces, pieces? (ofTable visits) = some pieces ∧
      ∃ column ∈ visits.columns, ¬∃ call ∈ calls pieces, MakesColumn column.name call := by
  obtain ⟨pieces, hpieces, _, hcalls⟩ := exists_pieces visits
  have hmem : Column.ofType "created_at" "timestamp" ∈ visits.columns :=
    List.mem_cons_of_mem _ List.mem_cons_self
  refine ⟨pieces, hpieces, _, hmem, ?_⟩
  rw [hcalls, exists_makesColumn_iff hmem, not_not]
  exact Or.inl ⟨rfl, by decide⟩

end Schemata.Document.Migration

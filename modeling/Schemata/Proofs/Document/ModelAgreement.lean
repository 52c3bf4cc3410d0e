import Mathlib.Data.List.Perm.Basic
import Schemata.Proofs.Document.EloquentClass
import Schemata.Proofs.Document.Migration

/-!
A model against the migration of its table. Both are read from their texts: the class for what
it says at its head, the migration for its calls on the table. The calls tell which columns
are made, and which of them by the method for automatic keys.
-/
namespace Schemata.Document.ModelAgreement

open Script Migration

def methodOf (call : List Piece) : List Piece := call.takeWhile (· != .code '(')

/-- What stands in the first brackets of a call. -/
def argumentsOf (call : List Piece) : List Piece :=
  ((call.dropWhile (· != .code '(')).drop 1).takeWhile (· != .code ')')

def writtenName? (call : List Piece) : Option String := (stringsOf (argumentsOf call)).head?

/-- The column that a call makes as an automatic key; without a name it is called `id`. -/
def identityName? (call : List Piece) : Option String :=
  if methodOf call = codes "id" then some ((writtenName? call).getD "id") else none

/-- The column that a call makes. -/
def createdName? (call : List Piece) : Option String :=
  if methodOf call = codes "foreign" then none
  else (identityName? call).or (writtenName? call)

theorem codes_inj {s t : String} : codes s = codes t ↔ s = t := by
  constructor
  · intro h
    exact String.toList_inj.mp (List.map_injective_iff.mpr (fun _ _ => Piece.code.inj) h)
  · rintro rfl
    rfl

section Calls

variable {method : String} (hmethod : '(' ∉ method.toList)
include hmethod

theorem ne_bracket_of_mem_codes : ∀ piece ∈ codes method, (piece != Piece.code '(') = true := by
  intro piece hpiece
  obtain ⟨c, hc, rfl⟩ := List.mem_map.mp hpiece
  rw [bne_iff_ne]
  rintro heq
  exact hmethod (Piece.code.inj heq ▸ hc)

theorem methodOf_codes (rest : List Piece) :
    methodOf (codes (method ++ "(") ++ rest) = codes method := by
  rw [codes_append, List.append_assoc, methodOf,
    List.takeWhile_append_of_pos (ne_bracket_of_mem_codes hmethod)]
  exact List.append_nil _

theorem argumentsOf_codes (rest : List Piece) :
    argumentsOf (codes (method ++ "(") ++ rest) = rest.takeWhile (· != .code ')') := by
  rw [codes_append, List.append_assoc, argumentsOf,
    List.dropWhile_append_of_pos (ne_bracket_of_mem_codes hmethod)]
  rfl

theorem methodOf_namedCall (name rest : String) (more : List Piece) :
    methodOf (namedCall method name rest ++ more) = codes method := by
  rw [namedCall, List.append_assoc, methodOf_codes hmethod]

theorem writtenName_namedCall (name rest : String) (more : List Piece) :
    writtenName? (namedCall method name rest ++ more) = some name := by
  rw [writtenName?, namedCall, List.append_assoc, argumentsOf_codes hmethod]
  rfl

end Calls

theorem typeMethod_parts : ∀ method ∈ typeMethods,
    '(' ∉ method.toList ∧ method ≠ "id" ∧ method ≠ "foreign" := by
  decide

/-- How a call is read that makes a column. -/
structure Made (column : Column) (call : List Piece) : Prop where
  method_ne : methodOf call ≠ codes "foreign"
  identityName_eq : identityName? call = if isIdentity column then some column.name else none
  writtenName_eq : writtenName? call = nameString? column

theorem made_of_creates {column : Column} {pieces : List Piece} (h : Creates column pieces)
    (more : List Piece) : Made column (pieces ++ more) := by
  cases h with
  | unnamed hidentity hname =>
    have hmethod : methodOf (codes "id()" ++ more) = codes "id" := rfl
    have hwritten : writtenName? (codes "id()" ++ more) = none := rfl
    constructor
    · rw [hmethod]
      decide
    · rw [identityName?, hmethod, if_pos rfl, hwritten, if_pos hidentity, hname]
      rfl
    · rw [hwritten, nameString?, if_pos ⟨hidentity, hname⟩]
  | named hidentity hname =>
    have hid : '(' ∉ "id".toList := by decide
    have hmethod := methodOf_namedCall hid column.name ")" more
    have hwritten := writtenName_namedCall hid column.name ")" more
    constructor
    · rw [hmethod]
      decide
    · rw [identityName?, hmethod, if_pos rfl, hwritten, if_pos hidentity]
      rfl
    · rw [hwritten, nameString?, if_neg fun h => hname h.2]
  | @typed method rest hidentity hmem =>
    obtain ⟨hparts, hid, hforeign⟩ := typeMethod_parts method hmem
    have hmethod := methodOf_namedCall hparts column.name rest more
    constructor
    · rw [hmethod]
      exact fun heq => hforeign (codes_inj.mp heq)
    · rw [identityName?, hmethod, if_neg fun heq => hid (codes_inj.mp heq), hidentity]
      rfl
    · rw [writtenName_namedCall hparts, nameString?, hidentity, if_neg (by simp)]

theorem made_column (column : Column) : Made column (Line.callPieces (.column column)) := by
  -- The pieces are kept as a variable for the cases on how the line is read.
  generalize hpieces : Line.callPieces (.column column) = pieces
  have hreads := Line.reads (.column column)
  rw [hpieces] at hreads
  cases hreads with
  | column hcreates _ => exact made_of_creates hcreates _

theorem Made.createdName_eq {column : Column} {call : List Piece} (h : Made column call) :
    createdName? call = some column.name := by
  rw [createdName?, if_neg h.method_ne, h.identityName_eq, h.writtenName_eq, nameString?]
  cases isIdentity column with
  | true => rfl
  | false => rfl

theorem methodOf_foreignKey (relation : Relation) :
    methodOf (Line.callPieces (.foreignKey relation)) = codes "foreign" := by
  generalize hpieces : Line.callPieces (.foreignKey relation) = pieces
  have hreads := Line.reads (.foreignKey relation)
  rw [hpieces] at hreads
  cases hreads with
  | foreignKey => exact methodOf_namedCall (by decide) _ _ _

theorem callPieces_timestamps : Line.callPieces .timestamps = codes "timestamps()" := rfl

theorem callPieces_softDeletes : Line.callPieces .softDeletes = codes "softDeletes()" := rfl

/-- Which column the call of a line makes. -/
def created? : Line → Option String
  | .column source => some source.name
  | .foreignKey _ | .timestamps | .softDeletes => none

theorem createdName_callPieces (line : Line) : createdName? line.callPieces = created? line := by
  cases line with
  | column source => exact (made_column source).createdName_eq
  | foreignKey relation => rw [createdName?, if_pos (methodOf_foreignKey relation), created?]
  | timestamps => rfl
  | softDeletes => rfl

/-- The calls without arguments belong to one line each. -/
theorem eq_of_callPieces_eq {line other : Line} (hplain : line = .timestamps ∨ line = .softDeletes)
    (h : other.callPieces = line.callPieces) : other = line := by
  have hcreated : created? other = none := by
    rw [← createdName_callPieces, h, createdName_callPieces]
    rcases hplain with rfl | rfl
    · rfl
    · rfl
  have hmethod : methodOf other.callPieces ≠ codes "foreign" := by
    rw [h]
    rcases hplain with rfl | rfl
    · decide
    · decide
  cases other with
  | column source => cases hcreated
  | foreignKey relation => exact absurd (methodOf_foreignKey relation) hmethod
  | timestamps =>
    rcases hplain with rfl | rfl
    · rfl
    · exact absurd h (by decide)
  | softDeletes =>
    rcases hplain with rfl | rfl
    · exact absurd h (by decide)
    · rfl

theorem callPieces_mem_map {line : Line} (hplain : line = .timestamps ∨ line = .softDeletes)
    (lines : List Line) : line.callPieces ∈ lines.map Line.callPieces ↔ line ∈ lines := by
  constructor
  · intro hmem
    obtain ⟨other, hother, hcall⟩ := List.mem_map.mp hmem
    exact eq_of_callPieces_eq hplain hcall ▸ hother
  · exact fun hline => List.mem_map_of_mem hline

theorem timestamps_mem_body (table : Table) :
    Line.timestamps ∈ body table ↔ table.hasTimestamps = true := by
  simp [body]

theorem softDeletes_mem_body (table : Table) :
    Line.softDeletes ∈ body table ↔ table.hasSoftDeletes = true := by
  simp [body]

theorem column_mem_body {table : Table} {column : Column} :
    Line.column column ∈ body table ↔ column ∈ table.columns.filter hasOwnLine := by
  simp [body]

/-- The calls make the columns with a line of their own, in their order. -/
theorem createdNames_body (table : Table) :
    ((body table).map Line.callPieces).filterMap createdName? =
      (table.columns.filter hasOwnLine).map (·.name) := by
  have hcreated : (createdName? ∘ Line.callPieces) = created? := funext createdName_callPieces
  have hcolumns (columns : List Column) :
      (columns.map Line.column).filterMap created? = columns.map (·.name) := by
    rw [List.filterMap_map]
    exact congrFun (List.filterMap_eq_map (f := Column.name)) columns
  have hrelations (relations : List Relation) :
      (relations.map Line.foreignKey).filterMap created? = [] := by
    simp [List.filterMap_map, created?]
  rw [List.filterMap_map, hcreated, body]
  simp only [List.filterMap_append, hcolumns, hrelations]
  cases table.hasTimestamps <;> cases table.hasSoftDeletes <;> simp [created?]

/-- A column with a line of its own may be filled, unless the database counts it. -/
theorem perm_fillable (table : Table) :
    ((table.columns.filter hasOwnLine).map (·.name)).Perm
      ((EloquentModel.fillableColumns table).map (·.name) ++
        (table.columns.filter fun column =>
          column.autoIncrement && !isTimestampName column.name).map (·.name)) := by
  have hparts := List.filter_append_perm (fun column : Column => !column.autoIncrement)
    (table.columns.filter hasOwnLine)
  simp only [List.filter_filter, Bool.not_not] at hparts
  have hnames := (hparts.map (·.name)).symm
  rw [List.map_append] at hnames
  exact hnames

/-- A call that makes an automatic key is the one of the only key. -/
theorem identity_call {table : Table} {key : Column} {call : List Piece} {name : String}
    (hkey : table.columns.filter Column.isPrimary = [key])
    (hcall : call ∈ (body table).map Line.callPieces) (hname : identityName? call = some name) :
    call = Line.callPieces (.column key) ∧ isIdentity key = true := by
  obtain ⟨line, hline, rfl⟩ := List.mem_map.mp hcall
  have hcreated := createdName_callPieces line
  cases line with
  | column source =>
    rw [(made_column source).identityName_eq] at hname
    have hidentity : isIdentity source = true := by
      by_contra h
      rw [if_neg h] at hname
      cases hname
    -- What this method makes is primary, and only one column of the table is.
    have hprimary : source ∈ table.columns.filter Column.isPrimary :=
      List.mem_filter.mpr ⟨List.mem_of_mem_filter (column_mem_body.mp hline),
        (Bool.and_eq_true_iff.mp hidentity).2⟩
    rw [hkey, List.mem_singleton] at hprimary
    exact hprimary ▸ ⟨rfl, hidentity⟩
  | foreignKey relation =>
    rw [identityName?, methodOf_foreignKey, if_neg (by decide)] at hname
    cases hname
  | timestamps => cases hname
  | softDeletes => cases hname

/-- The only key is made by the method for automatic keys just when the database counts it. -/
theorem identityName_key {table : Table} {key : Column}
    (hkey : table.columns.filter Column.isPrimary = [key])
    (hname : isTimestampName key.name = false) :
    (∃ call ∈ (body table).map Line.callPieces, identityName? call = some key.name) ↔
      key.autoIncrement = true := by
  have hmem : key ∈ table.columns.filter Column.isPrimary := by
    rw [hkey]
    exact List.mem_singleton_self key
  obtain ⟨hcolumn, hprimary⟩ := List.mem_filter.mp hmem
  constructor
  · rintro ⟨call, hcall, hidentity⟩
    exact (Bool.and_eq_true_iff.mp (identity_call hkey hcall hidentity).2).1
  · intro hcounted
    have hidentity : isIdentity key = true := Bool.and_eq_true_iff.mpr ⟨hcounted, hprimary⟩
    have hline : key ∈ table.columns.filter hasOwnLine :=
      List.mem_filter.mpr ⟨hcolumn, by rw [hasOwnLine, hname, Bool.not_false]⟩
    refine ⟨_, List.mem_map_of_mem (column_mem_body.mpr hline), ?_⟩
    rw [(made_column key).identityName_eq, if_pos hidentity]

theorem writtenName_key {table : Table} {key : Column} {call : List Piece} {name : String}
    (hkey : table.columns.filter Column.isPrimary = [key])
    (hcall : call ∈ (body table).map Line.callPieces) (hname : identityName? call = some name) :
    writtenName? call = none ↔ key.name = "id" := by
  obtain ⟨rfl, hidentity⟩ := identity_call hkey hcall hname
  rw [(made_column key).writtenName_eq, nameString?]
  by_cases hid : key.name = "id"
  · simp [hid, hidentity]
  · simp [hid]

/-- Read from their texts, the class and the migration of a table agree: on soft deletes and
time stamps, on the columns that are made and may be filled, and on how the only key of the
table is made and named. -/
theorem class_agrees_with_migration (nameSpace : String) (table : Table) :
    ∃ pieces settings rest,
      pieces? (Migration.ofTable table) = some pieces ∧
      EloquentModel.readSettings nameSpace (Naming.pascal table.name)
        (EloquentModel.classText nameSpace (EloquentModel.ofTable table)) =
          some (settings, rest) ∧
      (settings.softDeletes = true ↔ codes "softDeletes()" ∈ calls pieces) ∧
      (settings.timestamps = false ↔ codes "timestamps()" ∉ calls pieces) ∧
      ((calls pieces).filterMap createdName?).Perm
        (settings.fillable ++ (table.columns.filter fun column =>
          column.autoIncrement && !isTimestampName column.name).map (·.name)) ∧
      ∀ key, table.columns.filter Column.isPrimary = [key] → isTimestampName key.name = false →
        (settings.incrementing = true ↔
          ∃ call ∈ calls pieces, identityName? call = some key.name) ∧
        ∀ call ∈ calls pieces, identityName? call = some key.name →
          (settings.primaryKey = none ↔ writtenName? call = none) := by
  obtain ⟨pieces, hpieces, _, hcalls⟩ := exists_pieces table
  refine ⟨pieces, _, _, hpieces, EloquentModel.readSettings_classText nameSpace _, ?_, ?_, ?_, ?_⟩
  · rw [hcalls, ← callPieces_softDeletes, callPieces_mem_map (Or.inr rfl), softDeletes_mem_body]
    rfl
  · rw [hcalls, ← callPieces_timestamps, callPieces_mem_map (Or.inl rfl), timestamps_mem_body,
      Bool.not_eq_true]
    rfl
  · rw [hcalls, createdNames_body]
    exact perm_fillable table
  · intro key hkey hname
    have hsole : EloquentModel.soleKey? table = some key := by
      rw [EloquentModel.soleKey?, hkey]
    rw [hcalls]
    constructor
    · rw [identityName_key hkey hname]
      simp [EloquentModel.settingsOf, EloquentModel.conventionsOf, EloquentModel.ofTable, hsole]
    · intro call hcall hidentity
      rw [writtenName_key hkey hcall hidentity]
      simp [EloquentModel.settingsOf, EloquentModel.conventionsOf, EloquentModel.ofTable, hsole]

def postId : Column :=
  { Column.ofType "post_id" "bigint unsigned" with key := .primary, autoIncrement := true }

/-- Posts have a counted key of another name than the usual one. -/
def posts : Table where
  name := "posts"
  columns := [postId, Column.ofType "title" "varchar(120)", Column.ofType "deleted_at" "timestamp"]

theorem postId_named_in_both :
    ∃ pieces settings rest,
      pieces? (Migration.ofTable posts) = some pieces ∧
      EloquentModel.readSettings "App\\Models" (Naming.pascal posts.name)
        (EloquentModel.classText "App\\Models" (EloquentModel.ofTable posts)) =
          some (settings, rest) ∧
      settings.incrementing = true ∧ settings.primaryKey = some "post_id" ∧
      ∃ call ∈ calls pieces, identityName? call = some "post_id" ∧ writtenName? call ≠ none := by
  obtain ⟨pieces, settings, rest, hpieces, hread, _, _, _, hkey⟩ :=
    class_agrees_with_migration "App\\Models" posts
  obtain ⟨hcounted, hwritten⟩ := hkey postId rfl (by decide)
  have hsettings : settings = EloquentModel.settingsOf (EloquentModel.ofTable posts) := by
    have hboth := hread.symm.trans (EloquentModel.readSettings_classText _ _)
    exact (Prod.mk.inj (Option.some.inj hboth)).1
  have hincrementing : settings.incrementing = true := by
    rw [hsettings]
    decide
  have hprimary : settings.primaryKey = some "post_id" := by
    rw [hsettings]
    decide
  obtain ⟨call, hcall, hidentity⟩ := hcounted.mp hincrementing
  refine ⟨pieces, settings, rest, hpieces, hread, hincrementing, hprimary, call, hcall,
    hidentity, ?_⟩
  intro hnone
  have hmissing := (hwritten call hcall hidentity).mpr hnone
  rw [hprimary] at hmissing
  cases hmissing

end Schemata.Document.ModelAgreement

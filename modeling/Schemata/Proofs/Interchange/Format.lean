import Schemata.Interchange.Read
import Schemata.Proofs.Flags
import Schemata.Proofs.Json.Records
import Schemata.Proofs.Names

/-!
The format of a document of tables, said without its reader: one JSON text with nothing but
blanks around it, whose tree is a list of tables. Main statement: the texts of the format are
read as the tables they stand for, and all other texts are refused with a problem.
-/
namespace Schemata.Interchange

open Json (Accepts Blanks Piece Problem Reader Spelled Spells SpellsPiece Tree)

section Kinds

def IsFamily (tree : Tree) (family : Family) : Prop := tree.IsVariant family.name

def IsKey (tree : Tree) (key : Key) : Prop := tree.IsVariant key.name

/-- A list of names, read as a set. -/
def IsFlags (tree : Tree) (flags : Flags) : Prop :=
  ∃ names, tree.IsList Tree.IsString names ∧ ∀ flag, flag ∈ flags ↔ flag ∈ names

-- Which keys may stand in the objects of a document, be they the names of parts or not.
variable (keys : List Piece → Prop)

def IsColumnType (tree : Tree) (type : ColumnType) : Prop :=
  tree.IsRecord keys [
    .needed "base" IsFamily type.family,
    .needed "token" Tree.IsString type.token,
    .defaulted "length" (Tree.IsOptional Tree.IsCount) none type.length,
    .defaulted "precision" (Tree.IsOptional Tree.IsCount) none type.precision,
    .defaulted "scale" (Tree.IsOptional Tree.IsCount) none type.scale,
    .defaulted "unsigned" Tree.IsFlag false type.unsigned]

def IsColumn (tree : Tree) (column : Column) : Prop :=
  tree.IsRecord keys [
    .needed "name" Tree.IsString column.name,
    .needed "rawType" Tree.IsString column.rawType,
    .needed "parsedType" (IsColumnType keys) column.type,
    .defaulted "nullable" Tree.IsFlag false column.nullable,
    .defaulted "key" IsKey .plain column.key,
    .defaulted "defaultValue" (Tree.IsOptional Tree.IsString) none column.default?,
    .defaulted "autoIncrement" Tree.IsFlag false column.autoIncrement,
    .defaulted "extraFlags" IsFlags .empty column.flags]

def IsRelation (tree : Tree) (relation : Relation) : Prop :=
  tree.IsRecord keys [
    .needed "sourceColumn" Tree.IsString relation.column,
    .needed "referencedTable" Tree.IsString relation.referencedTable,
    .needed "referencedColumn" Tree.IsString relation.referencedColumn]

def IsTable (tree : Tree) (table : Table) : Prop :=
  tree.IsRecord keys [
    .needed "name" Tree.IsString table.name,
    .needed "columns" (Tree.IsList (IsColumn keys)) table.columns,
    .defaulted "relations" (Tree.IsList (IsRelation keys)) [] table.relations]

/-- The text is one JSON text that stands for the tables, with blanks around it. -/
def IsDocument (text : String) (tables : List Table) : Prop :=
  ∃ before written tree after, Blanks before ∧ Blanks after ∧ Spells written tree ∧
    tree.IsList (IsTable keys) tables ∧ text.toList = before ++ (written ++ after)

end Kinds

open Json (keyDecodes)

theorem accepts_family : Accepts family IsFamily :=
  Reader.accepts_variant _ Family.ofName_eq_some_iff

theorem accepts_key : Accepts key IsKey := Reader.accepts_variant _ Key.ofName_eq_some_iff

theorem accepts_flags : Accepts flags IsFlags where
  reads {piece tree value} hspells hkind := by
    obtain ⟨names, hnames, hmembers⟩ := hkind
    intro blanks rest hblanks hrest
    have hread := (Reader.accepts_list Reader.accepts_string).reads hspells hnames
    rw [flags, hread blanks rest hblanks hrest, Json.ok_bind]
    simp only [Flags.ofList_eq_iff.mpr hmembers]
    rfl
  holds {s rest value} h := by
    obtain ⟨⟨names, after⟩, hread, hvalue⟩ := Json.exists_of_bind_ok h
    cases hvalue
    obtain ⟨blanks, piece, tree, hblanks, hspells, hkind, hs⟩ :=
      (Reader.accepts_list Reader.accepts_string).holds hread
    exact ⟨blanks, piece, tree, hblanks, hspells, ⟨names, hkind, Flags.ofList_eq_iff.mp rfl⟩, hs⟩

theorem accepts_optionalCount :
    Accepts (Reader.optional Reader.count) (Tree.IsOptional Tree.IsCount) :=
  Reader.accepts_optional Reader.accepts_count fun _ h => h

theorem accepts_optionalString :
    Accepts (Reader.optional Reader.string) (Tree.IsOptional Tree.IsString) :=
  Reader.accepts_optional Reader.accepts_string fun _ h => h

open Json (accepts_record blanks_nil)

theorem accepts_columnType : Accepts columnType (IsColumnType keyDecodes) := by
  have haccepts : Accepts columnType _ := accepts_record "struct ParsedType"
    (.cons IsFamily (.cons Tree.IsString (.cons (Tree.IsOptional Tree.IsCount)
      (.cons (Tree.IsOptional Tree.IsCount) (.cons (Tree.IsOptional Tree.IsCount)
        (.cons Tree.IsFlag .nil)))))) _
    ⟨accepts_family, Reader.accepts_string, accepts_optionalCount, accepts_optionalCount,
      accepts_optionalCount, Reader.accepts_flag, trivial⟩ (by decide)
  refine Accepts.congr haccepts fun tree type => ⟨fun h => ?_, ?_⟩
  · exact ⟨(type.family, type.token, type.length, type.precision, type.scale, type.unsigned, ()),
      rfl, h⟩
  · rintro ⟨⟨family, token, length, precision, scale, unsigned, ⟨⟩⟩, rfl, h⟩
    exact h

theorem accepts_column : Accepts column (IsColumn keyDecodes) := by
  have haccepts : Accepts column _ := accepts_record "struct ColumnSchema"
    (.cons Tree.IsString (.cons Tree.IsString (.cons (IsColumnType keyDecodes)
      (.cons Tree.IsFlag (.cons IsKey (.cons (Tree.IsOptional Tree.IsString)
        (.cons Tree.IsFlag (.cons IsFlags .nil)))))))) _
    ⟨Reader.accepts_string, Reader.accepts_string, accepts_columnType, Reader.accepts_flag,
      accepts_key, accepts_optionalString, Reader.accepts_flag, accepts_flags, trivial⟩
    (by decide)
  refine Accepts.congr haccepts fun tree c => ⟨fun h => ?_, ?_⟩
  · exact ⟨(c.name, c.rawType, c.type, c.nullable, c.key, c.default?, c.autoIncrement, c.flags, ()),
      rfl, h⟩
  · rintro ⟨⟨name, rawType, type, nullable, key, default?, autoIncrement, flags, ⟨⟩⟩, rfl, h⟩
    exact h

theorem accepts_relation : Accepts relation (IsRelation keyDecodes) := by
  have haccepts : Accepts relation _ := accepts_record "struct RelationSchema"
    (.cons Tree.IsString (.cons Tree.IsString (.cons Tree.IsString .nil))) _
    ⟨Reader.accepts_string, Reader.accepts_string, Reader.accepts_string, trivial⟩ (by decide)
  refine Accepts.congr haccepts fun tree r => ⟨fun h => ?_, ?_⟩
  · exact ⟨(r.column, r.referencedTable, r.referencedColumn, ()), rfl, h⟩
  · rintro ⟨⟨column, referencedTable, referencedColumn, ⟨⟩⟩, rfl, h⟩
    exact h

theorem accepts_table : Accepts table (IsTable keyDecodes) := by
  have haccepts : Accepts table _ := accepts_record "struct TableSchema"
    (.cons Tree.IsString (.cons (Tree.IsList (IsColumn keyDecodes))
      (.cons (Tree.IsList (IsRelation keyDecodes)) .nil))) _
    ⟨Reader.accepts_string, Reader.accepts_list accepts_column,
      Reader.accepts_list accepts_relation, trivial⟩ (by decide)
  refine Accepts.congr haccepts fun tree t => ⟨fun h => ?_, ?_⟩
  · exact ⟨(t.name, t.columns, t.relations, ()), rfl, h⟩
  · rintro ⟨⟨name, columns, relations, ⟨⟩⟩, rfl, h⟩
    exact h

theorem read_eq_ok_iff {α : Type} (reader : Reader α) (text : String) (value : α) :
    Reader.read reader text = .ok value ↔ Reader.whole reader text.toList = .ok value := by
  unfold Reader.read
  cases Reader.whole reader text.toList with
  | ok found => simp [Except.mapError]
  | error fault => simp [Except.mapError]

/-- A text is read as some tables if and only if it is a document of these tables, and a text
that is no document at all gives a problem. -/
theorem readTables_accepts_documents (text : String) :
    (∀ tables, readTables text = .ok tables ↔ IsDocument keyDecodes text tables) ∧
      ((¬ ∃ tables, IsDocument keyDecodes text tables) ↔
        ∃ problem, readTables text = .error problem) := by
  have hread : ∀ tables, readTables text = .ok tables ↔ IsDocument keyDecodes text tables := by
    intro tables
    unfold readTables IsDocument
    rw [read_eq_ok_iff, Reader.whole_eq_ok_iff (Reader.accepts_list accepts_table)]
  refine ⟨hread, ?_⟩
  simp only [← hread]
  cases readTables text with
  | ok tables => exact ⟨fun h => absurd ⟨tables, rfl⟩ h, fun h => nomatch h⟩
  | error problem => exact ⟨fun _ => ⟨problem, rfl⟩, fun _ h => nomatch h⟩

/-- A table with half of a surrogate pair in a key that names no part of it. -/
def halfPairInKey : String := "[\x7b\"name\":\"t\",\"columns\":[],\"\\ud800\":1\x7d]"

theorem isDocument_halfPairInKey : IsDocument (fun _ => True) halfPairInKey [⟨"t", [], []⟩] := by
  have hname : Spelled ['n', 'a', 'm', 'e'] _ := Json.spelled_chars (by decide)
  have hcolumns : Spelled ['c', 'o', 'l', 'u', 'm', 'n', 's'] _ := Json.spelled_chars (by decide)
  have hpiece : SpellsPiece ['\\', 'u', 'd', '8', '0', '0']
      (.unit (16 * (16 * (16 * 13 + 8) + 0) + 0)) := .hex rfl rfl rfl rfl
  have hhalf : Spelled ['\\', 'u', 'd', '8', '0', '0'] [.unit 0xD800] := .singleton hpiece
  have ht : Spelled ['t'] _ := Json.spelled_chars (by decide)
  have hempty : Spells ['[', ']'] (.array []) := .array (.close blanks_nil) .nil
  have hone : Spells ['1'] (.number ['1']) :=
    .number (Or.inl ⟨['1'], [], [], ⟨⟨by simp, by simp⟩, by simp⟩, Or.inl rfl, Or.inl rfl, rfl⟩)
  have htable := Spells.object
    (.first blanks_nil (.next blanks_nil blanks_nil (.next blanks_nil blanks_nil
      (.close blanks_nil))))
    (.cons (.mk hname blanks_nil blanks_nil (.string ht))
      (.cons (.mk hcolumns blanks_nil blanks_nil hempty)
        (.cons (.mk hhalf blanks_nil blanks_nil hone) .nil)))
  refine ⟨[], _, _, [], blanks_nil, blanks_nil,
    .array (.first blanks_nil (.close blanks_nil)) (.cons htable .nil), ?_, ?_⟩
  · refine .cons ⟨fun _ _ => trivial, ?_⟩ .nil
    refine List.forall_mem_cons.mpr ⟨?_, List.forall_mem_cons.mpr ⟨?_,
      List.forall_mem_singleton.mpr ?_⟩⟩
    · exact Json.Part.inObject_iff.mpr (Or.inr ⟨.string [.char 't'], rfl, rfl⟩)
    · exact Json.Part.inObject_iff.mpr (Or.inr ⟨.array [], rfl, .nil⟩)
    · exact Json.Part.inObject_iff.mpr (Or.inl ⟨rfl, rfl⟩)
  · decide

/-- The key is refused, although the value behind it would be passed over. -/
theorem half_pair_in_a_key_is_refused :
    ¬ (readTables halfPairInKey = .ok [⟨"t", [], []⟩] ↔
      IsDocument (fun _ => True) halfPairInKey [⟨"t", [], []⟩]) := by
  intro h
  have hread := congrArg Except.toOption (h.mpr isDocument_halfPairInKey)
  exact absurd hread (by decide +kernel)

end Schemata.Interchange

import Schemata.Interchange.Read
import Schemata.Interchange.Written
import Schemata.Proofs.Flags
import Schemata.Proofs.Json.Written
import Schemata.Proofs.Names

/-!
Tables survive being written and read. Each part of a table is written in a form its reader
takes back, and the reader of a document does not mind blanks around it.
-/
namespace Schemata

namespace Interchange

open Json (Written StartsWritten Writes Reader Blanks)

theorem written_flags (flags : Flags) :
    Written Interchange.flags (.array (flags.toList.map .string)) flags := by
  intro depth blanks rest hblanks hrest
  have hlist : Written (Reader.list Reader.string) (.array (flags.toList.map .string))
      flags.toList :=
    Json.written_list Json.written_string (Json.startsWritten_string (by decide)) flags.toList
  rw [Interchange.flags, hlist depth blanks rest hblanks hrest, Json.ok_bind]
  simp only [Flags.ofList_toList]
  rfl

theorem written_family (family : Family) :
    Written Interchange.family (.string family.name) family :=
  Json.written_variant ((Family.ofName_eq_some_iff _ family).mpr rfl)

theorem written_key (key : Key) : Written Interchange.key (.string key.name) key :=
  Json.written_variant ((Key.ofName_eq_some_iff _ key).mpr rfl)

theorem written_ofOption (value : Option String) :
    Written (Reader.optional Reader.string) (ofOption value) value := by
  cases value with
  | none => exact Json.written_none Reader.string
  | some s =>
    exact Json.written_some (Json.startsWritten_string (by decide) s) (Json.written_string s)

/-- A count that is missing is left out, and is missing again when it is read. -/
theorem writes_optionalCount {αs : List Type} {fields : Json.Fields αs} {row : Json.Row αs}
    {members : List (String × Json)} (name : String) (count : Option UInt32)
    (h : Writes fields row members) :
    Writes (.cons ⟨name, Reader.optional Reader.count, some none⟩ fields) (count, row)
      (optionalCount name count ++ members) := by
  cases count with
  | none => exact .absent rfl h
  | some n =>
    have hcount := Json.written_some (Json.startsWritten_count (by decide) n.toNat)
      (Json.written_count n)
    exact .present hcount h

theorem written_ofType (type : ColumnType) : Written columnType (ofType type) type := by
  simp only [ofType, List.append_assoc, List.cons_append, List.nil_append]
  refine Json.written_record (type.family, type.token, type.length, type.precision, type.scale,
    type.unsigned, ()) rfl (by decide) ?_
  refine .present (written_family type.family) ?_
  refine .present (Json.written_string type.token) ?_
  refine writes_optionalCount "length" type.length ?_
  refine writes_optionalCount "precision" type.precision ?_
  refine writes_optionalCount "scale" type.scale ?_
  exact .present (Json.written_flag type.unsigned) .nil

theorem written_ofColumn (c : Column) : Written column (ofColumn c) c := by
  refine Json.written_record (c.name, c.rawType, c.type, c.nullable, c.key, c.default?,
    c.autoIncrement, c.flags, ()) rfl (by decide) ?_
  refine .present (Json.written_string c.name) ?_
  refine .present (Json.written_string c.rawType) ?_
  refine .present (written_ofType c.type) ?_
  refine .present (Json.written_flag c.nullable) ?_
  refine .present (written_key c.key) ?_
  refine .present (written_ofOption c.default?) ?_
  refine .present (Json.written_flag c.autoIncrement) ?_
  exact .present (written_flags c.flags) .nil

theorem written_ofRelation (r : Relation) : Written relation (ofRelation r) r := by
  refine Json.written_record (r.column, r.referencedTable, r.referencedColumn, ()) rfl
    (by decide) ?_
  refine .present (Json.written_string r.column) ?_
  refine .present (Json.written_string r.referencedTable) ?_
  exact .present (Json.written_string r.referencedColumn) .nil

theorem written_ofTable (t : Table) : Written table (ofTable t) t := by
  have hcolumns : Written (Reader.list column) (.array (t.columns.map ofColumn)) t.columns :=
    Json.written_list written_ofColumn (fun _ => Json.startsWritten_object (by decide) _) t.columns
  have hrelations : Written (Reader.list relation) (.array (t.relations.map ofRelation))
      t.relations :=
    Json.written_list written_ofRelation (fun _ => Json.startsWritten_object (by decide) _)
      t.relations
  refine Json.written_record (t.name, t.columns, t.relations, ()) rfl (by decide) ?_
  refine .present (Json.written_string t.name) ?_
  refine .present hcolumns ?_
  exact .present hrelations .nil

theorem written_ofTables (tables : List Table) :
    Written (Reader.list table) (ofTables tables) tables :=
  Json.written_list written_ofTable (fun _ => Json.startsWritten_object (by decide) _) tables

/-- Tables that are written and read again are the same tables, also with blanks before and
after the text. -/
theorem readTables_text (tables : List Table) {before after : String}
    (hbefore : Blanks before.toList) (hafter : Blanks after.toList) :
    readTables (before ++ text tables ++ after) = .ok tables := by
  have htables : Written (Reader.list table) (ofTables tables) tables :=
    Json.written_list written_ofTable (fun _ => Json.startsWritten_object (by decide) _) tables
  have hread := htables 0 before.toList after.toList hbefore (Json.endsNumber_of_blanks hafter)
  have htext : (before ++ text tables ++ after).toList =
      before.toList ++ ((ofTables tables).text 0).toList ++ after.toList := by
    simp [text, Json.document]
  rw [readTables, Reader.read, htext, Reader.whole, hread, Json.ok_bind]
  simp only [Json.skipBlanks_blanks hafter]
  rfl

def stampedOrders : Table where
  name := "order \"lines\""
  columns := [
    { name := "id", rawType := "int(10) unsigned", type := ColumnType.ofText "int(10) unsigned",
      key := .primary, autoIncrement := true },
    { name := "übertragen", rawType := "timestamp", type := ColumnType.ofText "timestamp",
      nullable := true, default? := some "current_timestamp()",
      flags := .ofList ["stored", "on update now()"] }]
  relations := [⟨"id", "orders", "id"⟩]

theorem stampedOrders_survive_printing : Blanks "".toList ∧ Blanks "\n".toList ∧
    readTables ("" ++ text [stampedOrders] ++ "\n") = .ok [stampedOrders] :=
  ⟨by decide, by decide, readTables_text [stampedOrders] (by decide) (by decide)⟩

end Interchange

end Schemata

import Mathlib.Data.List.Forall2
import Schemata.Proofs.Json.Layout
import Schemata.Proofs.Text.Joined

/-!
Values that a reader takes back from their written form, at whatever depth they stand. A
list goes back item by item. A record goes back when every field is either a member of the
written object or has its default for a value.
-/
namespace Schemata.Json

def Written {α : Type} (reader : Reader α) (json : Json) (value : α) : Prop :=
  ∀ depth, Reads reader (json.text depth).toList value

/-- No depth makes the value begin with a blank or with the given character. -/
def StartsWritten (avoided : Char) (json : Json) : Prop :=
  ∀ depth, Starts avoided (json.text depth).toList

theorem laid_lines (closing : Char) (width width' : Nat) (lines : List (List Char)) :
    Laid closing false
      ((lines.map (List.replicate width ' ' ++ ·)).flatMap (",\n".toList ++ ·) ++
        ('\n' :: List.replicate width' ' ' ++ [closing])) lines := by
  induction lines with
  | nil => exact .close (blanks_newline width')
  | cons line lines ih =>
    have hnext : Laid closing false
        ([] ++ ',' :: ('\n' :: List.replicate width ' ' ++ line ++ _)) (line :: lines) :=
      .next blanks_nil (blanks_newline width) ih
    simpa using hnext

/-- A bracketed text is its opening bracket with its lines laid out behind it. -/
theorem laid_bracketed (opening : String) {closing : String} {c : Char}
    (hclosing : closing.toList = [c]) (depth : Nat) (lines : List String) :
    ∃ s, (bracketed opening closing depth lines).toList = opening.toList ++ s ∧
      Laid c true s (lines.map String.toList) := by
  cases lines with
  | nil => exact ⟨[c], by simp [bracketed, hclosing], .close blanks_nil⟩
  | cons line lines =>
    refine ⟨_, ?_, .first (blanks_newline (4 * (depth + 1)))
      (laid_lines c (4 * (depth + 1)) (4 * depth) (lines.map String.toList))⟩
    simp [bracketed, indent, String.toList_intercalate, intercalate_cons_eq_flatMap, hclosing,
      Function.comp_def]

theorem itemTexts_eq_map (depth : Nat) (items : List Json) :
    itemTexts depth items = items.map (text depth) := by
  induction items with
  | nil => rfl
  | cons item items ih => rw [itemTexts, ih, List.map_cons]

theorem memberTexts_eq_map (depth : Nat) (members : List (String × Json)) :
    memberTexts depth members =
      members.map fun (key, value) => quoted key ++ ": " ++ text depth value := by
  induction members with
  | nil => rfl
  | cons member members ih => rw [memberTexts, ih, List.map_cons]

theorem laid_array (depth : Nat) (items : List Json) :
    ∃ s, ((Json.array items).text depth).toList = '[' :: s ∧
      Laid ']' true s (items.map fun item => (item.text (depth + 1)).toList) := by
  have hclosing : "]".toList = [']'] := rfl
  obtain ⟨s, hs, hlaid⟩ := laid_bracketed "[" hclosing depth (itemTexts (depth + 1) items)
  rw [itemTexts_eq_map, List.map_map] at hlaid
  exact ⟨s, hs, hlaid⟩

/-- What follows the key of a member. -/
def behindKey (depth : Nat) (value : Json) : List Char :=
  ':' :: ([' '] ++ (value.text depth).toList)

def writtenMembers (depth : Nat) (members : List (String × Json)) : List (String × List Char) :=
  members.map fun (key, value) => (key, behindKey depth value)

theorem laid_object (depth : Nat) (members : List (String × Json)) :
    ∃ s, ((Json.object members).text depth).toList = '\x7b' :: s ∧
      Laid '\x7d' true s ((writtenMembers (depth + 1) members).map memberPiece) := by
  have hclosing : "\x7d".toList = ['\x7d'] := rfl
  obtain ⟨s, hs, hlaid⟩ := laid_bracketed "\x7b" hclosing depth (memberTexts (depth + 1) members)
  refine ⟨s, hs, ?_⟩
  have hpieces : (memberTexts (depth + 1) members).map String.toList =
      (writtenMembers (depth + 1) members).map memberPiece := by
    rw [memberTexts_eq_map, writtenMembers, List.map_map, List.map_map]
    refine List.map_congr_left fun member _ => ?_
    simp [memberPiece, behindKey, quoted]
  rw [← hpieces]
  exact hlaid

theorem startsWritten_string {avoided : Char} (h : '"' ≠ avoided) (s : String) :
    StartsWritten avoided (.string s) := by
  intro depth
  exact ⟨'"', s.toList.flatMap escapedChar ++ ['"'], by simp [text, quoted, quotedChars],
    by decide, h⟩

theorem startsWritten_count {avoided : Char} (h : avoided.isDigit = false) (n : Nat) :
    StartsWritten avoided (.number (.natural n)) := by
  intro depth
  have htext : ((Json.number (.natural n)).text depth).toList = Nat.toDigits 10 n := by
    simp [text, JsonNumber.text]
  rw [htext]
  exact Reader.starts_toDigits h n

theorem startsWritten_object {avoided : Char} (h : '\x7b' ≠ avoided)
    (members : List (String × Json)) : StartsWritten avoided (.object members) := by
  intro depth
  obtain ⟨s, hs, _⟩ := laid_object depth members
  exact ⟨'\x7b', s, hs, by decide, h⟩

variable {α : Type} {reader : Reader α} {json : Json} {value : α}

theorem written_string (s : String) : Written Reader.string (.string s) s := by
  intro depth
  simpa [text, quoted] using Reader.reads_string s

theorem written_flag (value : Bool) : Written Reader.flag (.boolean value) value := by
  intro depth
  cases value with
  | false => exact Reader.reads_false
  | true => exact Reader.reads_true

theorem written_count (n : UInt32) : Written Reader.count (.number (.natural n.toNat)) n := by
  intro depth
  simpa [text, JsonNumber.text] using Reader.reads_count n

theorem written_none (reader : Reader α) : Written (Reader.optional reader) .null none :=
  fun _ => Reader.reads_none reader

theorem written_some (hstarts : StartsWritten 'n' json) (h : Written reader json value) :
    Written (Reader.optional reader) json (some value) :=
  fun depth => Reader.reads_some (hstarts depth) (h depth)

theorem written_variant {known : List String} {ofName? : String → Option α} {name : String}
    (h : ofName? name = some value) :
    Written (Reader.variant known ofName?) (.string name) value := by
  intro depth
  have hreads : Reads (Reader.variant known ofName?) (quotedChars name.toList) value :=
    Reader.reads_variant h
  simpa [text, quoted] using hreads

theorem written_list {write : α → Json} (h : ∀ value, Written reader (write value) value)
    (hstarts : ∀ value, StartsWritten ']' (write value)) (values : List α) :
    Written (Reader.list reader) (.array (values.map write)) values := by
  intro depth
  obtain ⟨s, hs, hlaid⟩ := laid_array depth (values.map write)
  rw [hs]
  refine Reader.reads_list hlaid ?_
  rw [List.map_map, List.forall₂_map_left_iff, List.forall₂_same]
  exact fun value _ => ⟨hstarts value _, h value _⟩

/-- A document may have blanks around it. -/
theorem read_document (h : Written reader json value) {before after : String}
    (hbefore : Blanks before.toList) (hafter : Blanks after.toList) :
    Reader.read reader (before ++ json.document ++ after) = .ok value := by
  have hread := h 0 before.toList after.toList hbefore (endsNumber_of_blanks hafter)
  have htext : (before ++ json.document ++ after).toList =
      before.toList ++ (json.text 0).toList ++ after.toList := by
    simp [document]
  rw [Reader.read, htext, Reader.whole, hread, ok_bind]
  simp only [skipBlanks_blanks hafter]
  rfl

section Records

variable {αs : List Type}

/-- The members of a record, in the order of its fields, with values that can be told from
their absence left out. -/
inductive Writes : {αs : List Type} → Fields αs → Row αs → List (String × Json) → Prop
  | nil : Writes .nil () []
  | present {α : Type} {αs : List Type} {field : Field α} {fields : Fields αs} {value : α}
      {row : Row αs} {json : Json} {members : List (String × Json)}
      (hvalue : Written field.reader json value) (h : Writes fields row members) :
      Writes (.cons field fields) (value, row) ((field.name, json) :: members)
  | absent {α : Type} {αs : List Type} {field : Field α} {fields : Fields αs} {value : α}
      {row : Row αs} {members : List (String × Json)} (hvalue : field.absent = some value)
      (h : Writes fields row members) : Writes (.cons field fields) (value, row) members

theorem Writes.mem_names {fields : Fields αs} {row : Row αs} {members : List (String × Json)}
    (h : Writes fields row members) : ∀ key ∈ members.map Prod.fst, key ∈ fields.names := by
  induction h with
  | nil => exact fun _ hkey => nomatch hkey
  | present _ _ ih =>
    intro key hkey
    rcases List.mem_cons.mp hkey with rfl | hkey
    · exact List.mem_cons_self
    · exact List.mem_cons_of_mem _ (ih key hkey)
  | absent _ _ ih => exact fun key hkey => List.mem_cons_of_mem _ (ih key hkey)

/-- Members whose keys are other fields leave the slot of a field alone. -/
theorem Fills.skipField {field : Field α} {fields : Fields αs} {row : Row αs}
    {members : List (String × Json)} {slots slots' : Slots αs} {depth : Nat}
    (hwrites : Writes fields row members) (hfresh : field.name ∉ fields.names)
    (h : Fills fields (writtenMembers depth members) slots slots') (slot : Option α) :
    Fills (.cons field fields) (writtenMembers depth members) (slot, slots) (slot, slots') := by
  refine h.there ?_ slot
  intro key hkey heq
  rw [writtenMembers, List.map_map] at hkey
  exact hfresh (heq ▸ hwrites.mem_names key hkey)

theorem Writes.fills {fields : Fields αs} {row : Row αs} {members : List (String × Json)}
    (h : Writes fields row members) (hnames : fields.names.Nodup) (depth : Nat) :
    ∃ slots, Fills fields (writtenMembers depth members) (Slots.empty αs) slots ∧
      fields.complete slots = .ok row := by
  induction h with
  | nil => exact ⟨(), .nil, rfl⟩
  | @present α αs field fields value row json members hvalue h ih =>
    obtain ⟨hfresh, hnames⟩ := List.nodup_cons.mp hnames
    obtain ⟨slots, hfills, hrow⟩ := ih hnames
    have hpiece : ReadsMember (.cons field fields) field.name (behindKey depth json)
        (none, Slots.empty αs) (some value, Slots.empty αs) :=
      readsMember_here blanks_nil blanks_space (hvalue depth) (Slots.empty αs)
    refine ⟨(some value, slots), .cons hpiece (hfills.skipField h hfresh _), ?_⟩
    simp only [Fields.complete, Option.some_or, hrow]
    rfl
  | @absent α αs field fields value row members hvalue h ih =>
    obtain ⟨hfresh, hnames⟩ := List.nodup_cons.mp hnames
    obtain ⟨slots, hfills, hrow⟩ := ih hnames
    refine ⟨(none, slots), hfills.skipField h hfresh _, ?_⟩
    simp only [Fields.complete, Option.none_or, hvalue, hrow]
    rfl

theorem written_record {β : Type} {title : String} {fields : Fields αs} {build : Row αs → β}
    {members : List (String × Json)} {value : β} (row : Row αs) (hvalue : build row = value)
    (hnames : fields.names.Nodup) (h : Writes fields row members) :
    Written (record title fields build) (.object members) value := by
  intro depth
  obtain ⟨s, hs, hlaid⟩ := laid_object depth members
  obtain ⟨slots, hfills, hrow⟩ := h.fills hnames (depth + 1)
  have hkeyed : List.Forall₂ Keyed ((writtenMembers (depth + 1) members).map memberPiece)
      (writtenMembers (depth + 1) members) :=
    List.forall₂_map_left_iff.mpr (List.forall₂_same.mpr fun member _ => keyed_memberPiece member)
  rw [hs, ← hvalue]
  exact reads_record hlaid hkeyed hfills hrow

end Records

end Schemata.Json

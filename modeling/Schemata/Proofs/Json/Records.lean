import Schemata.Proofs.Json.Accepts
import Schemata.Proofs.Json.Skip

/-!
Records against the meaning of trees. When the readers of its fields accept some kinds of
values, a record accepts the objects and the arrays that have its parts. An object fills the
slots of the fields member by member, and what has been filled is known from the members that
have been met.
-/
namespace Schemata.Json

/-- The kinds of the values of some fields. -/
inductive Kinds : List Type → Type 1
  | nil : Kinds []
  | cons {α : Type} {αs : List Type} (kind : Tree → α → Prop) (kinds : Kinds αs) :
      Kinds (α :: αs)

/-- Every key makes up a text, whether it is the name of a part or not. -/
def keyDecodes (key : List Piece) : Prop := (textOf? key).isSome = true

section Names

variable {name key : String} {pieces : List Piece} {tree : Tree}

theorem valuesOf_append (name : String) (members more : List (List Piece × Tree)) :
    valuesOf name (members ++ more) = valuesOf name members ++ valuesOf name more :=
  List.filterMap_append

theorem valuesOf_of_eq (h : textOf? pieces = some name) :
    valuesOf name [(pieces, tree)] = [tree] := by
  simp [valuesOf, h]

theorem valuesOf_of_ne (h : textOf? pieces = some key) (hne : key ≠ name) :
    valuesOf name [(pieces, tree)] = [] := by
  simp [valuesOf, h, hne]

theorem Part.inObject_iff {part : Part} {members : List (List Piece × Tree)} :
    part.InObject members ↔ valuesOf part.name members = [] ∧ part.isDefault ∨
      ∃ value, valuesOf part.name members = [value] ∧ part.holds value := by
  unfold InObject
  match valuesOf part.name members with
  | [] => simp
  | [value] => simp
  | first :: second :: rest => simp

end Names

section Parts

variable {α : Type}

def Field.part (field : Field α) (kind : Tree → α → Prop) (value : α) : Part :=
  match field.absent with
  | none => .needed field.name kind value
  | some default => .defaulted field.name kind default value

variable {field : Field α} {kind : Tree → α → Prop} {value : α}

theorem Field.part_name : (field.part kind value).name = field.name := by
  unfold part
  split
  · rfl
  · rfl

theorem Field.part_holds (tree : Tree) :
    (field.part kind value).holds tree ↔ kind tree value := by
  unfold part
  split
  · exact Iff.rfl
  · exact Iff.rfl

theorem Field.part_isDefault : (field.part kind value).isDefault ↔ field.absent = some value := by
  unfold part
  split
  · rename_i habsent
    rw [habsent]
    exact ⟨False.elim, fun h => nomatch h⟩
  · rename_i default habsent
    rw [habsent, Option.some.injEq]
    exact Iff.rfl

end Parts

namespace Fields

variable {α : Type} {αs : List Type}

def Accept : {αs : List Type} → Fields αs → Kinds αs → Prop
  | _, nil, .nil => True
  | _, cons field fields, .cons kind kinds => Accepts field.reader kind ∧ fields.Accept kinds

def parts : {αs : List Type} → Fields αs → Kinds αs → Row αs → List Part
  | _, nil, .nil, () => []
  | _, cons field fields, .cons kind kinds, (value, row) =>
    field.part kind value :: fields.parts kinds row

/-- The slots of a row when only some members of its object have been met. -/
def slots : {αs : List Type} → Fields αs → Row αs → List (List Piece × Tree) → Slots αs
  | _, nil, (), _ => ()
  | _, cons field fields, (value, row), members =>
    (if (valuesOf field.name members).isEmpty then none else some value, fields.slots row members)

/-- A slot holds what the only member of its name stands for, or there is no such member. -/
def Filled : {αs : List Type} → Fields αs → Kinds αs → Slots αs → List (List Piece × Tree) → Prop
  | _, nil, .nil, (), _ => True
  | _, cons field fields, .cons kind kinds, (slot, slots), members =>
    (match slot with
      | none => valuesOf field.name members = []
      | some value => ∃ tree, valuesOf field.name members = [tree] ∧ kind tree value) ∧
    fields.Filled kinds slots members

theorem slots_nil (fields : Fields αs) (row : Row αs) : fields.slots row [] = Slots.empty αs := by
  induction fields with
  | nil => rfl
  | cons field fields ih =>
    obtain ⟨value, row⟩ := row
    rw [slots, ih]
    rfl

theorem filled_empty (fields : Fields αs) (kinds : Kinds αs) :
    fields.Filled kinds (Slots.empty αs) [] := by
  induction fields with
  | nil =>
    cases kinds
    trivial
  | cons field fields ih =>
    cases kinds with
    | cons kind kinds => exact ⟨rfl, ih kinds⟩

end Fields

section Reading

variable {αs : List Type} {pieces : List Piece} {tree : Tree} {key : String}
  {met later : List (List Piece × Tree)}

/-- A member whose key is no field changes no slot. -/
theorem Fields.slots_append_of_not_mem (fields : Fields αs) (row : Row αs)
    (hkey : textOf? pieces = some key) (hfresh : key ∉ fields.names) :
    fields.slots row (met ++ [(pieces, tree)]) = fields.slots row met := by
  induction fields with
  | nil => rfl
  | cons field fields ih =>
    obtain ⟨hne, hfresh⟩ := not_or.mp (fun h => hfresh (List.mem_cons.mpr h))
    obtain ⟨value, row⟩ := row
    rw [slots, slots, valuesOf_append, valuesOf_of_ne hkey hne, List.append_nil, ih row hfresh]

/-- When the parts of an object are right, each member takes the slots one step on. -/
theorem Fields.readsMember_slots {fields : Fields αs} {kinds : Kinds αs} {row : Row αs}
    {blanks blanks' value : List Char} (haccept : fields.Accept kinds)
    (hnames : fields.names.Nodup) (hkey : textOf? pieces = some key) (hblanks : Blanks blanks)
    (hblanks' : Blanks blanks') (hvalue : Spells value tree)
    (hparts : ∀ part ∈ fields.parts kinds row, part.InObject (met ++ (pieces, tree) :: later)) :
    ReadsMember fields key (blanks ++ ':' :: (blanks' ++ value)) (fields.slots row met)
      (fields.slots row (met ++ [(pieces, tree)])) := by
  induction fields with
  | nil =>
    intro rest hrest
    have hskip := skipValue_append hblanks' hvalue hrest
    change Fields.nil.readMember key () _ = _
    rw [readMember, List.append_assoc, List.cons_append, colon_append hblanks, ok_bind,
      List.append_assoc, hskip]
    rfl
  | cons field fields ih =>
    cases kinds with
    | cons kind kinds =>
      obtain ⟨x, row⟩ := row
      obtain ⟨hreader, haccept⟩ := haccept
      obtain ⟨hfresh, hnames⟩ := List.nodup_cons.mp hnames
      obtain ⟨hpart, hparts⟩ := List.forall_mem_cons.mp hparts
      have hvalues : valuesOf field.name (met ++ (pieces, tree) :: later) =
          valuesOf field.name met ++ (valuesOf field.name [(pieces, tree)] ++
            valuesOf field.name later) := by
        rw [← valuesOf_append, ← valuesOf_append, List.singleton_append]
      by_cases hname : key = field.name
      · subst hname
        -- the part is right in the whole object, so this is the only member of its name
        obtain ⟨hmet, hkind⟩ : valuesOf field.name met = [] ∧ kind tree x := by
          rcases Part.inObject_iff.mp hpart with ⟨hnone, _⟩ | ⟨only, hone, hholds⟩
          · rw [Field.part_name, hvalues, valuesOf_of_eq hkey] at hnone
            simp at hnone
          · rw [Field.part_name, hvalues, valuesOf_of_eq hkey] at hone
            obtain ⟨hmet, rfl, _⟩ : valuesOf field.name met = [] ∧ tree = only ∧
                valuesOf field.name later = [] := by
              simpa [List.append_eq_cons_iff] using hone
            exact ⟨hmet, (Field.part_holds tree).mp hholds⟩
        rw [slots, slots, fields.slots_append_of_not_mem row hkey hfresh, valuesOf_append,
          valuesOf_of_eq hkey, hmet]
        exact readsMember_here hblanks hblanks' (hreader.reads hvalue hkind) _
      · rw [slots, slots, valuesOf_append, valuesOf_of_ne hkey hname, List.append_nil]
        exact readsMember_there hname (ih haccept hnames hparts) _

theorem keyed_of_spellsMember {text : List Char} {member : List Piece × Tree}
    (h : SpellsMember Spells text member) (hkey : textOf? member.1 = some key) :
    ∃ blanks blanks' value, Blanks blanks ∧ Blanks blanks' ∧ Spells value member.2 ∧
      Keyed text (key, blanks ++ ':' :: (blanks' ++ value)) := by
  obtain ⟨hspelled, hblanks, hblanks', hvalue⟩ := h
  exact ⟨_, _, _, hblanks, hblanks', hvalue, _, rfl,
    readString_of_spelled hspelled (textOf_eq_some.mp hkey)⟩

theorem Fields.fills_slots {fields : Fields αs} {kinds : Kinds αs} {row : Row αs}
    {texts : List (List Char)} {members : List (List Piece × Tree)}
    (haccept : fields.Accept kinds) (hnames : fields.names.Nodup)
    (h : List.Forall₂ (SpellsMember Spells) texts members)
    (hkeys : ∀ member ∈ members, keyDecodes member.1)
    (hparts : ∀ part ∈ fields.parts kinds row, part.InObject (met ++ members)) :
    ∃ written, List.Forall₂ Keyed texts written ∧
      Fills fields written (fields.slots row met) (fields.slots row (met ++ members)) := by
  induction h generalizing met with
  | nil =>
    rw [List.append_nil]
    exact ⟨[], .nil, .nil⟩
  | @cons text member texts members hmember _ ih =>
    obtain ⟨hkey, hkeys⟩ := List.forall_mem_cons.mp hkeys
    obtain ⟨key, hkey⟩ := Option.isSome_iff_exists.mp hkey
    obtain ⟨blanks, blanks', value, hblanks, hblanks', hvalue, hkeyed⟩ :=
      keyed_of_spellsMember hmember hkey
    have hstep := readsMember_slots haccept hnames hkey hblanks hblanks' hvalue hparts
    have hmore : met ++ member :: members = met ++ [member] ++ members := by simp
    rw [hmore] at hparts ⊢
    obtain ⟨written, hwritten, hfills⟩ := ih hkeys hparts
    exact ⟨_, .cons hkeyed hwritten, .cons hstep hfills⟩

theorem Fields.complete_slots {fields : Fields αs} {kinds : Kinds αs} {row : Row αs}
    {members : List (List Piece × Tree)}
    (hparts : ∀ part ∈ fields.parts kinds row, part.InObject members) :
    fields.complete (fields.slots row members) = .ok row := by
  induction fields with
  | nil => rfl
  | cons field fields ih =>
    cases kinds with
    | cons kind kinds =>
      obtain ⟨value, row⟩ := row
      obtain ⟨hpart, hparts⟩ := List.forall_mem_cons.mp hparts
      have hrest := ih hparts
      rw [slots, complete]
      rcases Part.inObject_iff.mp hpart with ⟨hnone, hdefault⟩ | ⟨only, hone, _⟩
      · rw [Field.part_name] at hnone
        simp only [hnone, List.isEmpty_nil, if_true, Option.none_or,
          Field.part_isDefault.mp hdefault, hrest]
        rfl
      · rw [Field.part_name] at hone
        simp only [hone, List.isEmpty_cons, Bool.false_eq_true, if_false, Option.some_or, hrest]
        rfl

theorem Fields.readItems_cons {α : Type} {field : Field α} {fields : Fields αs} {row : Row αs}
    {wanted : String} {found : Nat} {text piece rest left : List Char} {value : α}
    (hnext : Reader.nextItem? (found == 0) text = .ok (some (piece ++ rest)))
    (hpiece : Reads field.reader piece value) (hends : EndsNumber rest)
    (hrest : fields.readItems wanted (found + 1) rest = .ok (row, left)) :
    (cons field fields).readItems wanted found text = .ok ((value, row), left) := by
  have hread := hpiece [] rest blanks_nil hends
  rw [List.nil_append] at hread
  rw [readItems, hnext, ok_bind]
  simp only [hread, ok_bind, hrest]
  rfl

/-- A field that has its default is skipped at the end of an array. -/
theorem Fields.readItems_default {α : Type} {field : Field α} {fields : Fields αs} {row : Row αs}
    {wanted : String} {found : Nat} {text left : List Char} {value : α}
    (hnext : Reader.nextItem? (found == 0) text = .ok none) (hdefault : field.absent = some value)
    (hrest : fields.readItems wanted (found + 1) text = .ok (row, left)) :
    (cons field fields).readItems wanted found text = .ok ((value, row), left) := by
  rw [readItems, hnext, ok_bind]
  simp only [hdefault]
  rw [hrest]
  rfl

/-- The items of an array are read field by field, up to its closing bracket. -/
theorem Fields.readItems_append {fields : Fields αs} {kinds : Kinds αs} {row : Row αs}
    {found : Nat} {s : List Char} {texts : List (List Char)} {items : List Tree}
    (haccept : fields.Accept kinds) (hlaid : Laid ']' (found == 0) s texts)
    (hspells : List.Forall₂ Spells texts items)
    (horder : Part.InOrder (fields.parts kinds row) items) (wanted : String) (rest : List Char) :
    ∃ blanks, Blanks blanks ∧
      fields.readItems wanted found (s ++ rest) = .ok (row, blanks ++ ']' :: rest) := by
  induction fields generalizing s texts items found with
  | nil =>
    cases kinds
    cases hspells with
    | cons => exact horder.elim
    | nil =>
      obtain ⟨blanks, hblanks, rfl⟩ := hlaid.eq_close
      exact ⟨blanks, hblanks, by rw [List.append_assoc, readItems]; rfl⟩
  | cons field fields ih =>
    cases kinds with
    | cons kind kinds =>
      obtain ⟨value, row⟩ := row
      obtain ⟨hreader, haccept⟩ := haccept
      cases hspells with
      | nil =>
        obtain ⟨hdefault, horder⟩ := horder
        obtain ⟨before, hbefore, rfl⟩ := hlaid.eq_close
        have hend : Laid ']' (found + 1 == 0) (before ++ [']']) [] := .close hbefore
        obtain ⟨blanks, hblanks, hread⟩ := ih haccept hend .nil horder
        have hnext : Reader.nextItem? (found == 0) (before ++ [']'] ++ rest) = .ok none := by
          rw [List.append_assoc]
          exact Reader.nextItem_close hbefore rest
        exact ⟨blanks, hblanks, readItems_default hnext (Field.part_isDefault.mp hdefault) hread⟩
      | cons hitem hitems =>
        obtain ⟨hholds, horder⟩ := horder
        obtain ⟨t, ht, _, hnext⟩ := Reader.nextItem_of_laid hlaid hitem.starts_item rest
        have hmore : Laid ']' (found + 1 == 0) t _ := ht
        obtain ⟨blanks, hblanks, hread⟩ := ih haccept hmore hitems horder
        have hpiece := hreader.reads hitem ((Field.part_holds _).mp hholds)
        exact ⟨blanks, hblanks, readItems_cons hnext hpiece
          (ht.endsNumber (endsNumber_cons (by decide)) rest) hread⟩

end Reading

section Met

variable {αs : List Type} {fields : Fields αs} {kinds : Kinds αs} {slots slots' : Slots αs}
  {pieces : List Piece} {tree : Tree} {key : String} {met : List (List Piece × Tree)}
  {s t rest : List Char}

theorem Fields.Filled.append_of_not_mem (h : fields.Filled kinds slots met)
    (hkey : textOf? pieces = some key) (hfresh : key ∉ fields.names) :
    fields.Filled kinds slots (met ++ [(pieces, tree)]) := by
  induction fields with
  | nil =>
    cases kinds
    trivial
  | cons field fields ih =>
    cases kinds with
    | cons kind kinds =>
      obtain ⟨slot, slots⟩ := slots
      obtain ⟨hslot, h⟩ := h
      obtain ⟨hne, hfresh⟩ := not_or.mp (fun h => hfresh (List.mem_cons.mpr h))
      refine ⟨?_, ih h hfresh⟩
      rw [valuesOf_append, valuesOf_of_ne hkey hne, List.append_nil]
      exact hslot

/-- The value of a member with blanks in front of it, and the slots with the member met. -/
theorem Fields.Filled.readMember (h : fields.Filled kinds slots met)
    (haccept : fields.Accept kinds) (hnames : fields.names.Nodup)
    (hkey : textOf? pieces = some key)
    (hread : fields.readMember key slots s = .ok (slots', rest)) :
    ∃ blanks blanks' value tree, Blanks blanks ∧ Blanks blanks' ∧ Spells value tree ∧
      s = blanks ++ ':' :: (blanks' ++ (value ++ rest)) ∧
      fields.Filled kinds slots' (met ++ [(pieces, tree)]) := by
  induction fields with
  | nil =>
    cases kinds
    obtain ⟨afterColon, hcolon, hskip⟩ := exists_of_bind_ok hread
    obtain ⟨after, hskip, hvalue⟩ := exists_of_bind_ok hskip
    cases hvalue
    obtain ⟨blanks, hblanks, rfl⟩ := Reader.colon_eq_ok hcolon
    obtain ⟨blanks', value, tree, hblanks', hspells, rfl⟩ := holdsValue_of_skipValue hskip
    exact ⟨blanks, blanks', value, tree, hblanks, hblanks', hspells, rfl, trivial⟩
  | cons field fields ih =>
    cases kinds with
    | cons kind kinds =>
      obtain ⟨slot, slots⟩ := slots
      obtain ⟨hslot, h⟩ := h
      obtain ⟨hreader, haccept⟩ := haccept
      obtain ⟨hfresh, hnames⟩ := List.nodup_cons.mp hnames
      rw [Fields.readMember] at hread
      split at hread
      · rename_i hname
        subst hname
        split at hread
        · cases hread
        · rename_i hempty
          have hnone : slot = none := by simpa using hempty
          subst hnone
          -- an empty slot has had no member, so that this one stays alone
          obtain ⟨afterColon, hcolon, hread⟩ := exists_of_bind_ok hread
          obtain ⟨⟨x, after⟩, hvalue, hslots⟩ := exists_of_bind_ok hread
          cases hslots
          obtain ⟨blanks, hblanks, rfl⟩ := Reader.colon_eq_ok hcolon
          obtain ⟨blanks', value, tree, hblanks', hspells, hkind, rfl⟩ := hreader.holds hvalue
          refine ⟨blanks, blanks', value, tree, hblanks, hblanks', hspells, rfl, ?_,
            h.append_of_not_mem hkey hfresh⟩
          refine ⟨tree, ?_, hkind⟩
          rw [valuesOf_append, valuesOf_of_eq hkey, hslot]
          rfl
      · rename_i hname
        obtain ⟨⟨slots'', after⟩, hread, hslots⟩ := exists_of_bind_ok hread
        cases hslots
        obtain ⟨blanks, blanks', value, tree, hblanks, hblanks', hspells, hs, hfilled⟩ :=
          ih h haccept hnames hread
        refine ⟨blanks, blanks', value, tree, hblanks, hblanks', hspells, hs, ?_, hfilled⟩
        rw [valuesOf_append, valuesOf_of_ne hkey hname, List.append_nil]
        exact hslot

theorem nextKey_eq_some {first : Bool} (h : nextKey? first s = .ok (some t)) :
    first = true ∧ skipBlanks s = '"' :: t ∨
      first = false ∧ ∃ after, skipBlanks s = ',' :: after ∧ skipBlanks after = '"' :: t := by
  unfold nextKey? at h
  split at h
  · cases h
  · cases h
  · rename_i c after hclose hs
    split at h
    · rename_i hfirst
      split at h
      · rename_i hquote
        cases h
        exact Or.inl ⟨hfirst, hquote ▸ hs⟩
      · cases h
    · rename_i hfirst
      split at h
      · rename_i hcomma
        subst hcomma
        split at h
        · cases h
        · rename_i hquote
          cases h
          exact Or.inr ⟨Bool.eq_false_iff.mpr hfirst, after, hs, hquote⟩
        · cases h
        · cases h
      · cases h

theorem endObject_eq_ok (h : endObject s = .ok rest) : skipBlanks s = '\x7d' :: rest := by
  unfold endObject at h
  split at h
  · cases h
  · rename_i hs
    cases h
    exact hs
  · cases h
  · cases h

/-- A member of an object has been read with the commas and blanks in front of it. -/
theorem holdsLaid_nextKey {β : Type} {first : Bool} {spells : List Char → β → Prop} {value : β}
    {values : List β} {text after : List Char} (hnext : nextKey? first s = .ok (some t))
    (hitem : spells ('"' :: text) value) (ht : t = text ++ after)
    (h : HoldsLaid '\x7d' spells false after values rest) :
    HoldsLaid '\x7d' spells first s (value :: values) rest := by
  subst ht
  rcases nextKey_eq_some hnext with ⟨rfl, hs⟩ | ⟨rfl, behind, hcomma, hs⟩
  · exact .first blanks_nil hitem hs h
  · obtain ⟨before, hbefore, hbehind⟩ := exists_blanks_of_skipBlanks hs
    exact .next hcomma hbefore hitem hbehind h

theorem Fields.Filled.members {steps : Nat} {first : Bool} (h : fields.Filled kinds slots met)
    (haccept : fields.Accept kinds) (hnames : fields.names.Nodup)
    (hread : Json.members fields steps first slots s = .ok (slots', rest)) :
    ∃ members, HoldsLaid '\x7d' (SpellsMember Spells) first s members rest ∧
      (∀ member ∈ members, keyDecodes member.1) ∧
      fields.Filled kinds slots' (met ++ members) := by
  induction steps generalizing first slots met s with
  | zero => cases hread
  | succ steps ih =>
    rw [Json.members] at hread
    obtain ⟨next, hnext, hread⟩ := exists_of_bind_ok hread
    cases next with
    | none =>
      obtain ⟨after, hend, hslots⟩ := exists_of_bind_ok hread
      cases hslots
      refine ⟨[], .close (endObject_eq_ok hend), List.forall_mem_nil _, ?_⟩
      rw [List.append_nil]
      exact h
    | some t =>
      obtain ⟨⟨text, afterKey⟩, hkey, hmore⟩ := exists_of_bind_ok hread
      obtain ⟨⟨slots'', after⟩, hmember, hlater⟩ := exists_of_bind_ok hmore
      obtain ⟨spelled, pieces, rfl, hspelled, hdecode⟩ := exists_spelled_of_readString hkey
      have hname : textOf? pieces = some (String.ofList text) := by rw [textOf?, hdecode]; rfl
      obtain ⟨blanks, blanks', value, tree, hblanks, hblanks', hspells, rfl, hfilled⟩ :=
        h.readMember haccept hnames hname hmember
      obtain ⟨members, hlaid, hkeys, hall⟩ := ih hfilled hlater
      have hitem : SpellsMember Spells _ (pieces, tree) := .mk hspelled hblanks hblanks' hspells
      refine ⟨(pieces, tree) :: members, holdsLaid_nextKey hnext hitem (by simp) hlaid, ?_, ?_⟩
      · exact List.forall_mem_cons.mpr ⟨by simp [keyDecodes, hname], hkeys⟩
      · rwa [List.append_assoc, List.singleton_append] at hall

theorem Fields.Filled.inObject {row : Row αs} (h : fields.Filled kinds slots met)
    (hrow : fields.complete slots = .ok row) :
    ∀ part ∈ fields.parts kinds row, part.InObject met := by
  induction fields with
  | nil =>
    cases kinds
    exact fun _ hpart => nomatch hpart
  | cons field fields ih =>
    cases kinds with
    | cons kind kinds =>
      obtain ⟨slot, slots⟩ := slots
      obtain ⟨hslot, h⟩ := h
      rw [complete] at hrow
      split at hrow
      · cases hrow
      · rename_i value hvalue
        obtain ⟨row', hrest, hbuilt⟩ := exists_of_bind_ok hrow
        cases hbuilt
        refine List.forall_mem_cons.mpr ⟨Part.inObject_iff.mpr ?_, ih h hrest⟩
        rw [Field.part_name]
        cases slot with
        | none => exact Or.inl ⟨hslot, Field.part_isDefault.mpr hvalue⟩
        | some x =>
          cases hvalue
          obtain ⟨tree, hvalues, hkind⟩ := hslot
          exact Or.inr ⟨tree, hvalues, (Field.part_holds tree).mpr hkind⟩

end Met

section Items

variable {αs : List Type} {fields : Fields αs} {kinds : Kinds αs} {s t rest : List Char}

/-- Nothing is left of a list whose closing bracket comes next. -/
theorem HoldsLaid.eq_nil {α : Type} {spells : List Char → α → Prop} {items : List α}
    (h : HoldsLaid ']' spells false s items rest) (hs : skipBlanks s = ']' :: t) :
    items = [] ∧ t = rest := by
  obtain ⟨laid, texts, hlaid, hitems, rfl⟩ := h
  cases hlaid with
  | close hblanks =>
    cases hitems
    rw [List.append_assoc, List.singleton_append, skipBlanks_token hblanks (by decide)] at hs
    exact ⟨rfl, (List.cons.inj hs).2.symm⟩
  | next hblanks =>
    rw [List.append_assoc, List.cons_append, skipBlanks_token hblanks (by decide)] at hs
    exact absurd (List.cons.inj hs).1 (by decide)

theorem Fields.holdsLaid_of_readItems {wanted : String} {found : Nat} {row : Row αs}
    (haccept : fields.Accept kinds) (hread : fields.readItems wanted found s = .ok (row, t))
    (hend : Reader.endList t = .ok rest) :
    ∃ items, HoldsLaid ']' Spells (found == 0) s items rest ∧
      Part.InOrder (fields.parts kinds row) items := by
  induction fields generalizing s found with
  | nil =>
    cases kinds
    cases hread
    exact ⟨[], .close (Reader.endList_eq_ok hend), trivial⟩
  | cons field fields ih =>
    cases kinds with
    | cons kind kinds =>
      obtain ⟨hreader, haccept⟩ := haccept
      rw [readItems] at hread
      obtain ⟨next, hnext, hread⟩ := exists_of_bind_ok hread
      cases next with
      | some text =>
        obtain ⟨⟨value, after⟩, hvalue, hmore⟩ := exists_of_bind_ok hread
        obtain ⟨⟨row', left⟩, hrest, hrow⟩ := exists_of_bind_ok hmore
        cases hrow
        obtain ⟨items, hlaid, horder⟩ := ih haccept hrest
        obtain ⟨blanks, piece, tree, hblanks, hspells, hkind, htext⟩ := hreader.holds hvalue
        exact ⟨tree :: items, Reader.holdsLaid_nextItem hnext hblanks hspells htext hlaid,
          (Field.part_holds tree).mpr hkind, horder⟩
      | none =>
        dsimp only at hread
        split at hread
        · rename_i value hdefault
          obtain ⟨⟨row', left⟩, hrest, hrow⟩ := exists_of_bind_ok hread
          cases hrow
          obtain ⟨items, hlaid, horder⟩ := ih haccept hrest
          -- the closing bracket comes next, whatever fields are still to come
          obtain ⟨after, hs⟩ := Reader.nextItem_eq_none hnext
          obtain ⟨rfl, rfl⟩ := HoldsLaid.eq_nil hlaid hs
          exact ⟨[], .close hs, Field.part_isDefault.mpr hdefault, horder⟩
        · obtain ⟨after, _, hfault⟩ := exists_of_bind_ok hread
          cases hfault

end Items

section Record

variable {αs : List Type} {fields : Fields αs} {kinds : Kinds αs} {β : Type} {title : String}
  {build : Row αs → β}

/-- The values of a record whose parts a tree has. -/
def IsRecordOf (fields : Fields αs) (kinds : Kinds αs) (build : Row αs → β) (tree : Tree)
    (value : β) : Prop :=
  ∃ row, value = build row ∧ tree.IsRecord keyDecodes (fields.parts kinds row)

theorem reads_items {row : Row αs} {laid : List Char} {texts : List (List Char)}
    {items : List Tree} (haccept : fields.Accept kinds) (hlaid : Laid ']' true laid texts)
    (hspells : List.Forall₂ Spells texts items)
    (horder : Part.InOrder (fields.parts kinds row) items) :
    Reads (record title fields build) ('[' :: laid) (build row) := by
  intro blanks rest hblanks _
  have hlaid : Laid ']' (0 == 0) laid texts := hlaid
  obtain ⟨before, hbefore, hread⟩ := Fields.readItems_append haccept hlaid hspells horder
    (wantedLength title fields.names.length) rest
  rw [record, skipBlanks_text hblanks (by decide)]
  simp only [hread, ok_bind, Reader.endList_close hbefore]
  rfl

theorem accepts_record (title : String) (kinds : Kinds αs) (build : Row αs → β)
    (haccept : fields.Accept kinds) (hnames : fields.names.Nodup) :
    Accepts (record title fields build) (IsRecordOf fields kinds build) where
  reads {piece tree value} hspells hkind := by
    obtain ⟨row, rfl, hrecord⟩ := hkind
    cases hspells with
    | array hlaid hitems => exact reads_items haccept hlaid hitems hrecord
    | @object s texts members hlaid hmembers =>
      obtain ⟨hkeys, hparts⟩ := hrecord
      have hall : ∀ part ∈ fields.parts kinds row, part.InObject ([] ++ members) := hparts
      obtain ⟨written, hkeyed, hfills⟩ := Fields.fills_slots haccept hnames hmembers hkeys hall
      rw [Fields.slots_nil] at hfills
      exact reads_record hlaid hkeyed hfills (Fields.complete_slots hparts)
    | _ => cases hrecord
  holds {s rest value} h := by
    unfold record at h
    split at h
    · rename_i hs
      obtain ⟨⟨row, after⟩, hread, hend⟩ := exists_of_bind_ok h
      obtain ⟨left, hclose, hvalue⟩ := exists_of_bind_ok hend
      cases hvalue
      obtain ⟨items, ⟨laid, texts, hlaid, hspells, rfl⟩, horder⟩ :=
        Fields.holdsLaid_of_readItems haccept hread hclose
      obtain ⟨blanks, hblanks, rfl⟩ := exists_blanks_of_skipBlanks hs
      exact ⟨blanks, _, _, hblanks, .array hlaid hspells, ⟨row, rfl, horder⟩, rfl⟩
    · rename_i hs
      obtain ⟨⟨slots, after⟩, hread, hrow⟩ := exists_of_bind_ok h
      dsimp only at hrow
      split at hrow
      · rename_i row hcomplete
        cases hrow
        obtain ⟨members, ⟨laid, texts, hlaid, hspells, rfl⟩, hkeys, hfilled⟩ :=
          (Fields.filled_empty fields kinds).members haccept hnames hread
        obtain ⟨blanks, hblanks, rfl⟩ := exists_blanks_of_skipBlanks hs
        exact ⟨blanks, _, _, hblanks, .object hlaid hspells,
          ⟨row, rfl, hkeys, hfilled.inObject hcomplete⟩, rfl⟩
      · cases hrow
    · exact absurd h (Reader.refuse_ne_ok _ _ _ _)

end Record

end Schemata.Json

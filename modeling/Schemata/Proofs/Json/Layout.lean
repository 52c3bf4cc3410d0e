import Schemata.Json.Record
import Schemata.Proofs.Json.Reads

/-!
Lists and objects as they are laid out: pieces with commas between them and a bracket
behind, with blanks wherever they may stand. An object reads the pieces into the slots of
its fields one by one, in whatever order the keys come.
-/
namespace Schemata.Json

/-- The rest of a list or an object, from its first piece or from the one after it. -/
inductive Laid (closing : Char) : Bool → List Char → List (List Char) → Prop
  | close {first : Bool} {blanks : List Char} (hblanks : Blanks blanks) :
      Laid closing first (blanks ++ [closing]) []
  | first {blanks piece s : List Char} {pieces : List (List Char)} (hblanks : Blanks blanks)
      (h : Laid closing false s pieces) :
      Laid closing true (blanks ++ piece ++ s) (piece :: pieces)
  | next {blanks blanks' piece s : List Char} {pieces : List (List Char)} (hblanks : Blanks blanks)
      (hblanks' : Blanks blanks') (h : Laid closing false s pieces) :
      Laid closing false (blanks ++ ',' :: (blanks' ++ piece ++ s)) (piece :: pieces)

theorem Laid.eq_close {closing : Char} {first : Bool} {s : List Char}
    (h : Laid closing first s []) : ∃ blanks, Blanks blanks ∧ s = blanks ++ [closing] := by
  cases h with
  | close hblanks => exact ⟨_, hblanks, rfl⟩

theorem Laid.endsNumber {closing : Char} {s : List Char} {pieces : List (List Char)}
    (h : Laid closing false s pieces) (hclosing : ∀ rest, EndsNumber (closing :: rest))
    (rest : List Char) : EndsNumber (s ++ rest) := by
  cases h with
  | close hblanks =>
    rw [List.append_assoc]
    exact endsNumber_append hblanks (hclosing rest)
  | next hblanks =>
    rw [List.append_assoc]
    exact endsNumber_append hblanks (endsNumber_cons (by decide) _)

namespace Reader

variable {α : Type} {item : Reader α} {s : List Char}

theorem nextItem_close {first : Bool} {blanks : List Char} (hblanks : Blanks blanks)
    (rest : List Char) : nextItem? first (blanks ++ ']' :: rest) = .ok none := by
  rw [nextItem?, skipBlanks_token hblanks (by decide)]
  rfl

theorem endList_close {blanks : List Char} (hblanks : Blanks blanks) (rest : List Char) :
    endList (blanks ++ ']' :: rest) = .ok rest := by
  rw [endList, skipBlanks_token hblanks (by decide)]
  rfl

theorem nextItem_first {blanks : List Char} (hblanks : Blanks blanks) (hstarts : Starts ']' s)
    (rest : List Char) : nextItem? true (blanks ++ (s ++ rest)) = .ok (some (s ++ rest)) := by
  obtain ⟨c, t, rfl, hblank, hclose⟩ := hstarts
  rw [nextItem?, List.cons_append, skipBlanks_token hblanks hblank]
  split
  · rename_i heq
    cases heq
  · rename_i heq
    exact absurd (List.cons.inj heq).1 hclose
  · rename_i heq
    obtain ⟨rfl, rfl⟩ := List.cons.inj heq
    rfl

theorem nextItem_next {blanks blanks' : List Char} (hblanks : Blanks blanks)
    (hblanks' : Blanks blanks') (hstarts : Starts ']' s) (rest : List Char) :
    nextItem? false (blanks ++ ',' :: (blanks' ++ (s ++ rest))) = .ok (some (s ++ rest)) := by
  obtain ⟨c, t, rfl, hblank, hclose⟩ := hstarts
  have hskip : skipBlanks (blanks' ++ (c :: t ++ rest)) = c :: (t ++ rest) := by
    rw [List.cons_append, skipBlanks_token hblanks' hblank]
  rw [nextItem?, skipBlanks_token hblanks (by decide)]
  split
  · rename_i heq
    cases heq
  · rename_i heq
    exact absurd (List.cons.inj heq).1 (by decide)
  · rename_i heq
    obtain ⟨rfl, rfl⟩ := List.cons.inj heq
    rw [if_neg Bool.false_ne_true, if_pos rfl, hskip]
    split
    · rename_i heq
      cases heq
    · rename_i heq
      exact absurd (List.cons.inj heq).1 hclose
    · rfl

/-- The first item of what is left of a list comes next, however it is laid out. -/
theorem nextItem_of_laid {first : Bool} {piece : List Char} {pieces : List (List Char)}
    (h : Laid ']' first s (piece :: pieces)) (hstarts : Starts ']' piece) (rest : List Char) :
    ∃ t, Laid ']' false t pieces ∧ piece.length + t.length ≤ s.length ∧
      nextItem? first (s ++ rest) = .ok (some (piece ++ (t ++ rest))) := by
  cases h with
  | @first blanks _ t _ hblanks h =>
    refine ⟨t, h, by simp, ?_⟩
    rw [List.append_assoc, List.append_assoc]
    exact nextItem_first hblanks hstarts (t ++ rest)
  | @next blanks blanks' _ t _ hblanks hblanks' h =>
    refine ⟨t, h, by simp; omega, ?_⟩
    rw [List.append_assoc, List.cons_append, List.append_assoc, List.append_assoc]
    exact nextItem_next hblanks hblanks' hstarts (t ++ rest)

/-- A piece of a list is the text of an item, which no closing bracket begins. -/
def ReadsItem (item : Reader α) (piece : List Char) (value : α) : Prop :=
  Starts ']' piece ∧ Reads item piece value

theorem items_succ {steps : Nat} {first : Bool} {text piece rest rest' : List Char} {value : α}
    {values : List α} (hnext : nextItem? first text = .ok (some (piece ++ rest)))
    (hpiece : Reads item piece value) (hends : EndsNumber rest)
    (hrest : items item steps false rest = .ok (values, rest')) :
    items item (steps + 1) first text = .ok (value :: values, rest') := by
  have hread := hpiece [] rest blanks_nil hends
  rw [List.nil_append] at hread
  rw [items, hnext, ok_bind]
  simp only [hread, hrest, ok_bind]
  rfl

/-- The length of the text bounds the steps, since every piece takes some of it. -/
theorem items_of_laid {first : Bool} {pieces : List (List Char)} {values : List α}
    (h : Laid ']' first s pieces) (hvalues : List.Forall₂ (ReadsItem item) pieces values)
    {steps : Nat} (hsteps : s.length ≤ steps) (rest : List Char) :
    items item steps first (s ++ rest) = .ok (values, rest) := by
  induction hvalues generalizing first s steps with
  | nil =>
    obtain ⟨blanks, hblanks, rfl⟩ := h.eq_close
    cases steps with
    | zero => simp at hsteps
    | succ left =>
      rw [List.append_assoc, List.singleton_append, items, nextItem_close hblanks, ok_bind]
      simp only [endList_close hblanks, ok_bind]
      rfl
  | cons hvalue _ ih =>
    obtain ⟨hstarts, hpiece⟩ := hvalue
    obtain ⟨t, ht, hlength, hnext⟩ := nextItem_of_laid h hstarts rest
    obtain ⟨c, piece, rfl, _⟩ := hstarts
    rw [List.length_cons] at hlength
    cases steps with
    | zero => omega
    | succ left =>
      exact items_succ hnext hpiece (ht.endsNumber (endsNumber_cons (by decide)) rest)
        (ih ht (by omega))

theorem reads_list {pieces : List (List Char)} {values : List α} (h : Laid ']' true s pieces)
    (hvalues : List.Forall₂ (ReadsItem item) pieces values) :
    Reads (list item) ('[' :: s) values := by
  intro blanks rest hblanks _
  rw [list, skipBlanks_text hblanks (by decide)]
  have hsteps : s.length ≤ (s ++ rest).length + 1 := by
    rw [List.length_append]
    omega
  exact items_of_laid h hvalues hsteps rest

end Reader

theorem nextKey_close {first : Bool} {blanks : List Char} (hblanks : Blanks blanks)
    (rest : List Char) : nextKey? first (blanks ++ '\x7d' :: rest) = .ok none := by
  rw [nextKey?, skipBlanks_token hblanks (by decide)]
  rfl

theorem endObject_close {blanks : List Char} (hblanks : Blanks blanks) (rest : List Char) :
    endObject (blanks ++ '\x7d' :: rest) = .ok rest := by
  rw [endObject, skipBlanks_token hblanks (by decide)]
  rfl

theorem nextKey_first {blanks : List Char} (hblanks : Blanks blanks) (rest : List Char) :
    nextKey? true (blanks ++ '"' :: rest) = .ok (some rest) := by
  rw [nextKey?, skipBlanks_token hblanks (by decide)]
  rfl

theorem nextKey_next {blanks blanks' : List Char} (hblanks : Blanks blanks)
    (hblanks' : Blanks blanks') (rest : List Char) :
    nextKey? false (blanks ++ ',' :: (blanks' ++ '"' :: rest)) = .ok (some rest) := by
  rw [nextKey?, skipBlanks_token hblanks (by decide)]
  split
  · rename_i heq
    cases heq
  · rename_i heq
    exact absurd (List.cons.inj heq).1 (by decide)
  · rename_i heq
    obtain ⟨rfl, rfl⟩ := List.cons.inj heq
    rw [if_neg Bool.false_ne_true, if_pos rfl, skipBlanks_token hblanks' (by decide)]
    rfl

section Members

variable {α : Type} {αs : List Type} {field : Field α} {fields : Fields αs}

/-- What stands behind a key takes the slots from one state to the next. -/
def ReadsMember (fields : Fields αs) (key : String) (piece : List Char)
    (slots slots' : Slots αs) : Prop :=
  ∀ rest, EndsNumber rest → fields.readMember key slots (piece ++ rest) = .ok (slots', rest)

theorem colon_append {blanks : List Char} (hblanks : Blanks blanks) (rest : List Char) :
    Reader.colon (blanks ++ ':' :: rest) = .ok rest := by
  rw [Reader.colon, skipBlanks_token hblanks (by decide)]
  rfl

/-- The value of a field goes into its slot, which nothing has been put into before. -/
theorem readsMember_here {blanks blanks' s : List Char} {value : α} (hblanks : Blanks blanks)
    (hblanks' : Blanks blanks') (h : Reads field.reader s value) (slots : Slots αs) :
    ReadsMember (.cons field fields) field.name (blanks ++ ':' :: (blanks' ++ s))
      (none, slots) (some value, slots) := by
  intro rest hrest
  have hread := h blanks' rest hblanks' hrest
  rw [Fields.readMember, if_pos rfl, if_neg (by simp), List.append_assoc, List.cons_append,
    colon_append hblanks, ok_bind, hread]
  rfl

theorem readsMember_there {key : String} {piece : List Char} {slots slots' : Slots αs}
    (hkey : key ≠ field.name) (h : ReadsMember fields key piece slots slots') (slot : Option α) :
    ReadsMember (.cons field fields) key piece (slot, slots) (slot, slots') := by
  intro rest hrest
  rw [Fields.readMember, if_neg hkey, h rest hrest]
  rfl

/-- The members of an object, with their keys, one after the other. -/
inductive Fills (fields : Fields αs) :
    List (String × List Char) → Slots αs → Slots αs → Prop
  | nil {slots : Slots αs} : Fills fields [] slots slots
  | cons {key : String} {piece : List Char} {members : List (String × List Char)}
      {slots slots' slots'' : Slots αs} (hpiece : ReadsMember fields key piece slots slots')
      (h : Fills fields members slots' slots'') :
      Fills fields ((key, piece) :: members) slots slots''

theorem Fills.there {members : List (String × List Char)} {slots slots' : Slots αs}
    (h : Fills fields members slots slots')
    (hkeys : ∀ key ∈ members.map Prod.fst, key ≠ field.name) (slot : Option α) :
    Fills (.cons field fields) members (slot, slots) (slot, slots') := by
  induction h with
  | nil => exact .nil
  | cons hpiece _ ih =>
    have hkey := hkeys _ List.mem_cons_self
    exact .cons (readsMember_there hkey hpiece slot)
      (ih fun key hmem => hkeys key (List.mem_cons_of_mem _ hmem))

/-- The text of a member begins with its key in quotes, however the key is spelled. -/
def Keyed (piece : List Char) (member : String × List Char) : Prop :=
  ∃ spelled, piece = '"' :: (spelled ++ '"' :: member.2) ∧
    ∀ rest, readString .plain (spelled ++ '"' :: rest) = .ok (member.1.toList, rest)

def memberPiece (member : String × List Char) : List Char :=
  quotedChars member.1.toList ++ member.2

theorem keyed_memberPiece (member : String × List Char) : Keyed (memberPiece member) member :=
  ⟨member.1.toList.flatMap escapedChar, by simp [memberPiece, quotedChars],
    readString_escaped member.1.toList⟩

theorem members_succ {steps : Nat} {first : Bool} {text spelled piece rest rest' : List Char}
    {key : String} {slots slots' slots'' : Slots αs}
    (hnext : nextKey? first text = .ok (some (spelled ++ '"' :: (piece ++ rest))))
    (hkey : ∀ rest, readString .plain (spelled ++ '"' :: rest) = .ok (key.toList, rest))
    (hpiece : ReadsMember fields key piece slots slots') (hends : EndsNumber rest)
    (hrest : members fields steps false slots' rest = .ok (slots'', rest')) :
    members fields (steps + 1) first slots text = .ok (slots'', rest') := by
  rw [members, hnext, ok_bind]
  simp only [hkey, ok_bind, String.ofList_toList, hpiece rest hends]
  exact hrest

/-- The first key of what is left of an object comes next, however it is laid out. -/
theorem nextKey_of_laid {first : Bool} {s piece : List Char} {pieces : List (List Char)}
    (h : Laid '\x7d' first s (('"' :: piece) :: pieces)) (rest : List Char) :
    ∃ t, Laid '\x7d' false t pieces ∧ t.length < s.length ∧
      nextKey? first (s ++ rest) = .ok (some (piece ++ (t ++ rest))) := by
  cases h with
  | @first blanks _ t _ hblanks h =>
    refine ⟨t, h, ?_, ?_⟩
    · simp only [List.length_append, List.length_cons]
      omega
    · rw [List.append_assoc, List.append_assoc, List.cons_append]
      exact nextKey_first hblanks _
  | @next blanks blanks' _ t _ hblanks hblanks' h =>
    refine ⟨t, h, ?_, ?_⟩
    · simp only [List.length_append, List.length_cons]
      omega
    · rw [List.append_assoc, List.cons_append, List.append_assoc, List.append_assoc,
        List.cons_append]
      exact nextKey_next hblanks hblanks' _

theorem members_of_laid {first : Bool} {s : List Char} {written : List (String × List Char)}
    {pieces : List (List Char)} {slots slots' : Slots αs} (h : Laid '\x7d' first s pieces)
    (hpieces : List.Forall₂ Keyed pieces written) (hfills : Fills fields written slots slots')
    {steps : Nat} (hsteps : s.length ≤ steps) (rest : List Char) :
    members fields steps first slots (s ++ rest) = .ok (slots', rest) := by
  induction hpieces generalizing first s slots steps with
  | nil =>
    cases hfills
    obtain ⟨blanks, hblanks, rfl⟩ := h.eq_close
    cases steps with
    | zero => simp at hsteps
    | succ left =>
      rw [List.append_assoc, List.singleton_append, members, nextKey_close hblanks, ok_bind]
      simp only [endObject_close hblanks, ok_bind]
      rfl
  | cons hkeyed _ ih =>
    obtain ⟨spelled, rfl, hkey⟩ := hkeyed
    obtain _ | ⟨hpiece, hfills⟩ := hfills
    obtain ⟨t, ht, hlength, hnext⟩ := nextKey_of_laid h rest
    rw [List.append_assoc, List.cons_append] at hnext
    cases steps with
    | zero => omega
    | succ left =>
      exact members_succ hnext hkey hpiece (ht.endsNumber (endsNumber_cons (by decide)) rest)
        (ih ht hfills (by omega))

/-- A record is read from an object as soon as the filled slots make up a row. -/
theorem reads_record {β : Type} {title : String} {build : Row αs → β} {s : List Char}
    {pieces : List (List Char)} {written : List (String × List Char)} {slots : Slots αs}
    {row : Row αs} (h : Laid '\x7d' true s pieces) (hpieces : List.Forall₂ Keyed pieces written)
    (hfills : Fills fields written (Slots.empty αs) slots)
    (hrow : fields.complete slots = .ok row) :
    Reads (record title fields build) ('\x7b' :: s) (build row) := by
  intro blanks rest hblanks _
  have hsteps : s.length ≤ (s ++ rest).length + 1 := by
    rw [List.length_append]
    omega
  have hmembers := members_of_laid h hpieces hfills hsteps rest
  rw [record, skipBlanks_text hblanks (by decide)]
  simp only [hmembers, ok_bind, hrow]
  rfl

end Members

end Schemata.Json

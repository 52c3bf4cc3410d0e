import Schemata.Proofs.Toml.Changes

/-!
What is said by a key and a value. An assignment leaves every path that led somewhere, adds the one
that it gives, and gives no name twice. A table in braces is made of assignments, and so every value
that can be read has each name once in each of its tables.
-/
namespace Schemata.Toml

variable {key : Key} {path : List Key} {shape shape' : Shape} {value : Node}
  {given : Option Node} {names : List String}
  {entries entries' inner inner' table root root' : Entries}

/-- The path leads to the value that is given for it, or else to a table. -/
def Says (entries : Entries) (names : List String) : Option Node → Prop
  | none => ∃ node, node.HoldsTables ∧ Lies names node entries
  | some value => value.IsValue ∧ Lies names value entries

theorem Says.of_extends (h : Says entries names given) (hextends : Extends entries entries') :
    Says entries' names given := by
  cases given with
  | none =>
    obtain ⟨node, htables, hlies⟩ := h
    obtain ⟨node', hlies', hstays⟩ := hextends _ _ hlies
    exact ⟨node', hstays.tables htables, hlies'⟩
  | some value =>
    obtain ⟨hvalue, hlies⟩ := h
    obtain ⟨node', hlies', hstays⟩ := hextends _ _ hlies
    exact ⟨hvalue, hstays.value hvalue ▸ hlies'⟩

theorem Says.exists_lies (h : Says entries names given) : ∃ node, Lies names node entries := by
  cases given with
  | none =>
    obtain ⟨node, -, hlies⟩ := h
    exact ⟨node, hlies⟩
  | some value => exact ⟨value, h.2⟩

/-- A value with its tables, in which no name is given twice. -/
structure Node.IsSound (node : Node) : Prop where
  isValue : node.IsValue
  apart : ∀ inner ∈ node.inners, Apart inner

theorem spelled_concat (path : List Key) (key : Key) :
    spelled (path ++ [key]) = spelled path ++ [key.name] := List.map_append

/-- What becomes of the table at the parent of a path. -/
theorem exists_puts_of_atParent {change : Key → Change}
    (h : atParent path change root = some root') :
    ∃ parent key shape inner shape' inner', path = parent ++ [key] ∧
      change key shape inner = some (shape', inner') ∧ Puts inner inner' parent root root' := by
  unfold atParent at h
  split at h
  · cases h
  · rename_i key hlast
    obtain ⟨⟨_, _⟩, hchange, rfl⟩ := Option.map_eq_some_iff.mp h
    obtain ⟨shape, inner, shape', inner', hinner, hputs⟩ := exists_puts_of_changeAt hchange
    exact ⟨path.dropLast, key, shape, inner, shape', inner',
      (List.dropLast_append_getLast? key hlast).symm, hinner, hputs⟩

/-! Assignments. -/

structure Gains (entries entries' : Entries) (names : List String) (value : Node) : Prop where
  apart : Apart entries → Apart entries'
  kept : Extends entries entries'
  lies : Lies names value entries'

theorem gains_of_assign {inBraces : Bool} (hvalue : value.IsSound)
    (h : assign inBraces path value shape entries = some (shape', entries')) :
    Gains entries entries' (spelled path) value := by
  cases hlast : path.getLast? with
  | none =>
    rw [assign, hlast] at h
    cases h
  | some key =>
    rw [assign, hlast] at h
    obtain ⟨atShape, inner, atShape', inner', hinner, hputs⟩ := exists_puts_of_changeAt h
    unfold insertNew at hinner
    split at hinner
    · cases hinner
    · rename_i hfree
      obtain ⟨-, rfl⟩ := Prod.mk.inj (Option.some.inj hinner)
      have hnew : find? key.name inner = none := by
        simp only [Bool.or_eq_true, not_or, Bool.not_eq_true, Option.isSome_eq_false_iff,
          Option.isNone_iff_eq_none] at hfree
        exact hfree.2
      have hpath : spelled path = spelled path.dropLast ++ [key.name] := by
        rw [← spelled_concat, List.dropLast_append_getLast? key hlast]
      refine ⟨hputs.apart fun hapart => hapart.append hnew hvalue.isValue.isWhole hvalue.apart,
        hputs.extends_of_inner (extends_append inner key value), ?_⟩
      rw [hpath]
      exact hputs.lies_new (.here (find_append_new hnew value))

/-- A table in braces has every pair that is written in it. -/
theorem apart_of_collect {pairs : List (List Key × Node)}
    (hpairs : ∀ pair ∈ pairs, pair.2.IsSound) (h : collect pairs = some entries) :
    Apart entries ∧ ∀ pair ∈ pairs, Says entries (spelled pair.1) (some pair.2) := by
  suffices hfold : ∀ start stop : Shape × Entries, pairs.foldlM addPair start = some stop →
      (Apart start.2 → Apart stop.2) ∧ Extends start.2 stop.2 ∧
        ∀ pair ∈ pairs, Says stop.2 (spelled pair.1) (some pair.2) by
    obtain ⟨stop, hstop, hresult⟩ := Option.bind_eq_some_iff.mp h
    obtain rfl := Option.some.inj hresult
    obtain ⟨hapart, -, hstated⟩ := hfold _ _ hstop
    exact ⟨hapart apart_nil, hstated⟩
  clear h
  induction pairs with
  | nil =>
    rintro start stop hfold
    obtain rfl := Option.some.inj hfold
    exact ⟨id, .refl _, fun _ hpair => nomatch hpair⟩
  | cons pair pairs ih =>
    rintro start stop hfold
    rw [List.foldlM_cons] at hfold
    obtain ⟨⟨shape, entries⟩, hadd, hrest⟩ := Option.bind_eq_some_iff.mp hfold
    have hgains : Gains start.2 entries (spelled pair.1) pair.2 :=
      gains_of_assign (hpairs pair List.mem_cons_self) hadd
    obtain ⟨hapart, hextends, hstated⟩ :=
      ih (fun other hother => hpairs other (List.mem_cons_of_mem _ hother)) _ _ hrest
    have hfirst : Says stop.2 (spelled pair.1) (some pair.2) :=
      Says.of_extends ⟨(hpairs pair List.mem_cons_self).isValue, hgains.lies⟩ hextends
    exact ⟨hapart ∘ hgains.apart, hgains.kept.trans hextends,
      List.forall_mem_cons.mpr ⟨hfirst, hstated⟩⟩

/-! Values as they are read. -/

theorem isSound_of_flat (hvalue : value.IsValue) (hflat : value.inners = []) : value.IsSound :=
  ⟨hvalue, fun inner hinner => by rw [hflat] at hinner; cases hinner⟩

theorem isSound_scalar (span : Span) (scalar : Scalar) : (Node.scalar span scalar).IsSound :=
  isSound_of_flat trivial rfl

theorem isSound_braces {span : Option Span} (h : Apart entries) :
    (Node.table { span, inBraces := true } entries).IsSound :=
  ⟨⟨rfl, rfl⟩, fun inner hinner => by rwa [List.mem_singleton.mp hinner]⟩

theorem isSound_of_bind {α : Type} {read : Option α} {give : α → Option (Node × List Char)}
    {rest : List Char} (hgive : ∀ a result, give a = some result → result.1.IsSound)
    (h : (read >>= give) = some (value, rest)) : value.IsSound := by
  obtain ⟨a, -, hresult⟩ := Option.bind_eq_some_iff.mp h
  exact hgive a _ hresult

theorem isSound_of_pairs {scan : Scanner Node}
    (hvalues : ∀ {s rest : List Char} {value : Node}, scan s = some (value, rest) → value.IsSound)
    {steps : Nat} {s rest : List Char} {pairs : List (List Key × Node)}
    (h : pairs? scan steps s = some (pairs, rest)) : ∀ pair ∈ pairs, pair.2.IsSound := by
  induction steps generalizing s rest pairs with
  | zero =>
    rw [pairs?] at h
    cases h
  | succ steps ih =>
    rw [pairs?] at h
    obtain ⟨⟨path, behind⟩, -, h⟩ := Option.bind_eq_some_iff.mp h
    obtain ⟨behind, -, h⟩ := Option.bind_eq_some_iff.mp h
    obtain ⟨⟨value, behind⟩, hvalue, h⟩ := Option.bind_eq_some_iff.mp h
    dsimp only at h
    split at h
    · obtain ⟨⟨more, behind⟩, hmore, h⟩ := Option.bind_eq_some_iff.mp h
      obtain ⟨rfl, -⟩ := Prod.mk.inj (Option.some.inj h)
      exact List.forall_mem_cons.mpr ⟨hvalues hvalue, ih hmore⟩
    · obtain ⟨rfl, -⟩ := Prod.mk.inj (Option.some.inj h)
      exact List.forall_mem_singleton.mpr (hvalues hvalue)
    · cases h

/-- What is read behind an equals sign is a value, and no table in it has a name twice. -/
theorem isSound_of_value {depth : Nat} {s rest : List Char}
    (h : value? depth s = some (value, rest)) : value.IsSound := by
  induction depth generalizing s rest value with
  | zero =>
    rw [value?] at h
    cases h
  | succ depth ih =>
    unfold value? at h
    split at h
    · split at h
      · cases h
      · refine isSound_of_bind (fun _ _ hgive => ?_) h
        obtain rfl := Option.some.inj hgive
        exact isSound_of_flat trivial rfl
    · split at h
      · cases h
      · split at h
        · obtain ⟨rfl, -⟩ := Prod.mk.inj (Option.some.inj h)
          exact isSound_braces apart_nil
        · obtain ⟨⟨pairs, behind⟩, hpairs, h⟩ := Option.bind_eq_some_iff.mp h
          obtain ⟨entries, hcollect, h⟩ := Option.bind_eq_some_iff.mp h
          obtain ⟨rfl, -⟩ := Prod.mk.inj (Option.some.inj h)
          exact isSound_braces (apart_of_collect (isSound_of_pairs ih hpairs) hcollect).1
    all_goals
      refine isSound_of_bind (fun _ _ hgive => ?_) h
      obtain rfl := Option.some.inj hgive
      exact isSound_scalar _ _

/-- The pairs of a table in braces, read behind the opening one, and what follows the table. -/
def InBraces (depth : Nat) (s : List Char) (pairs : List (List Key × Node))
    (rest : List Char) : Prop :=
  skipBlanks s = '\x7d' :: rest ∧ pairs = [] ∨
    pairs? (value? depth) s.length s = some (pairs, rest)

/-- The table that is read from braces says each of their pairs. -/
theorem says_of_braces {depth : Nat} {s rest : List Char}
    (h : value? (depth + 1) ('\x7b' :: s) = some (value, rest)) :
    ∃ shape entries pairs, value = .table shape entries ∧ InBraces depth s pairs rest ∧
      ∀ pair ∈ pairs, Says entries (spelled pair.1) (some pair.2) := by
  rw [value?] at h
  split at h
  · cases h
  · split at h
    · rename_i behind hempty
      obtain ⟨rfl, rfl⟩ := Prod.mk.inj (Option.some.inj h)
      exact ⟨_, _, [], rfl, Or.inl ⟨hempty, rfl⟩, List.forall_mem_nil _⟩
    · obtain ⟨⟨pairs, behind⟩, hpairs, h⟩ := Option.bind_eq_some_iff.mp h
      obtain ⟨entries, hcollect, h⟩ := Option.bind_eq_some_iff.mp h
      obtain ⟨rfl, rfl⟩ := Prod.mk.inj (Option.some.inj h)
      exact ⟨_, entries, pairs, rfl, Or.inr hpairs,
        (apart_of_collect (isSound_of_pairs isSound_of_value hpairs) hcollect).2⟩

end Schemata.Toml

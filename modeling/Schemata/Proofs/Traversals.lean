import Mathlib.Data.List.Forall2

/-!
Lists item by item. Of two lists side by side each item has a partner. A traversal that may
fail succeeds item by item, and one item that fails is enough for the whole to fail. Two steps
in a row succeed when the first one does, and then the second one with what the first one gave.
-/
namespace Schemata

variable {α β : Type} {f : α → Option β} {items : List α}

theorem exists_of_forall₂ {R : α → β → Prop} {others : List β}
    (h : List.Forall₂ R items others) : ∀ item ∈ items, ∃ other ∈ others, R item other := by
  induction h with
  | nil => exact fun _ hmem => nomatch hmem
  | @cons first other _ _ hfirst _ ih =>
    intro item hitem
    rcases List.mem_cons.mp hitem with rfl | hrest
    · exact ⟨other, List.mem_cons_self, hfirst⟩
    · obtain ⟨further, hfurther, hrelated⟩ := ih item hrest
      exact ⟨further, List.mem_cons_of_mem _ hfurther, hrelated⟩

theorem mapM_eq_some_iff {results : List β} :
    items.mapM f = some results ↔
      List.Forall₂ (fun item result => f item = some result) items results := by
  induction items generalizing results with
  | nil => simp [eq_comm]
  | cons item items ih =>
    rw [List.mapM_cons, List.forall₂_cons_left_iff]
    simp only [← ih]
    cases f item with
    | none => simp
    | some result =>
      cases items.mapM f with
      | none => simp
      | some rest => simp [eq_comm]

theorem mapM_eq_none_iff : items.mapM f = none ↔ ∃ item ∈ items, f item = none := by
  induction items with
  | nil => simp
  | cons item items ih =>
    rw [List.mapM_cons, List.exists_mem_cons_iff, ← ih]
    cases f item with
    | none => simp
    | some result =>
      cases items.mapM f with
      | none => simp
      | some rest => simp

theorem mapM_congr {others : List α}
    (h : List.Forall₂ (fun item other => f item = f other) items others) :
    items.mapM f = others.mapM f := by
  induction h with
  | nil => rfl
  | cons hfirst _ ih => rw [List.mapM_cons, List.mapM_cons, hfirst, ih]

theorem bind_eq_ok_iff {ε : Type} {first : Except ε α} {next : α → Except ε β} {result : β} :
    (first >>= next) = .ok result ↔ ∃ value, first = .ok value ∧ next value = .ok result := by
  cases first with
  | error e =>
    constructor
    · intro h
      cases h
    · rintro ⟨_, h, -⟩
      cases h
  | ok value =>
    constructor
    · intro h
      exact ⟨value, rfl, h⟩
    · rintro ⟨_, h, hnext⟩
      obtain rfl := Except.ok.inj h
      exact hnext

end Schemata

import Schemata.Proofs.Json.Numerals
import Schemata.Proofs.Json.Strings

/-!
Values that are passed over: exactly the texts of the grammar. The steps are bounded by the
length of the text, and no text of the grammar needs more.
-/
namespace Schemata.Json

variable {s t rest word piece key : List Char} {tree : Tree} {pieces : List Piece} {steps : Nat}

section Soundness

/-- A key with its colon, and blanks around them. -/
theorem exists_of_skipKey (h : skipKey s = .ok rest) :
    ∃ blanks key blanks' pieces, Blanks blanks ∧ Spelled key pieces ∧ Blanks blanks' ∧
      s = blanks ++ '"' :: (key ++ '"' :: (blanks' ++ ':' :: rest)) := by
  unfold skipKey at h
  split at h
  · cases h
  · rename_i body hs
    obtain ⟨blanks, hblanks, rfl⟩ := exists_blanks_of_skipBlanks hs
    obtain ⟨after, hstring, hcolon⟩ := exists_of_bind_ok h
    obtain ⟨key, pieces, rfl, hkey⟩ := exists_spelled_of_skipString hstring
    unfold skipColon at hcolon
    split at hcolon
    · cases hcolon
    · rename_i hafter
      cases hcolon
      obtain ⟨blanks', hblanks', rfl⟩ := exists_blanks_of_skipBlanks hafter
      exact ⟨blanks, key, blanks', pieces, hblanks, hkey, hblanks', rfl⟩
    · cases hcolon
  · cases h

theorem exists_member (hkey : skipKey s = .ok t) (hvalue : HoldsValue t rest) :
    ∃ blanks text member, Blanks blanks ∧ SpellsMember Spells text member ∧
      s = blanks ++ (text ++ rest) := by
  obtain ⟨before, key, between, pieces, hbefore, hspelled, hbetween, rfl⟩ := exists_of_skipKey hkey
  obtain ⟨behind, value, tree, hbehind, htree, rfl⟩ := hvalue
  exact ⟨before, _, (pieces, tree), hbefore, .mk hspelled hbetween hbehind htree, by simp⟩

/-- What is passed over in some number of steps is of the grammar. -/
structure SkipsGrammar (steps : Nat) : Prop where
  value {s rest : List Char} (h : skipSteps steps s = .ok rest) : HoldsValue s rest
  items {s rest : List Char} (h : skipItems steps s = .ok rest) :
    ∃ items, HoldsLaid ']' Spells false s items rest
  members {s rest : List Char} (h : skipMembers steps s = .ok rest) :
    ∃ members, HoldsLaid '\x7d' (SpellsMember Spells) false s members rest

theorem SkipsGrammar.firstItem (hsteps : SkipsGrammar steps)
    (hfirst : skipSteps steps (skipBlanks s) = .ok t) (hmore : skipItems steps t = .ok rest) :
    ∃ items, HoldsLaid ']' Spells true s items rest := by
  obtain ⟨blanks, text, item, hblanks, hitem, htext⟩ := hsteps.value hfirst
  obtain ⟨items, hitems⟩ := hsteps.items hmore
  exact ⟨item :: items, .first hblanks hitem htext hitems⟩

theorem SkipsGrammar.firstMember {after : List Char} (hsteps : SkipsGrammar steps)
    (hkey : skipKey (skipBlanks s) = .ok after) (hvalue : skipSteps steps after = .ok t)
    (hmore : skipMembers steps t = .ok rest) :
    ∃ members, HoldsLaid '\x7d' (SpellsMember Spells) true s members rest := by
  obtain ⟨blanks, text, member, hblanks, hmember, htext⟩ :=
    exists_member hkey (hsteps.value hvalue)
  obtain ⟨members, hmembers⟩ := hsteps.members hmore
  exact ⟨member :: members, .first hblanks hmember htext hmembers⟩

theorem SkipsGrammar.value_succ (hsteps : SkipsGrammar steps)
    (h : skipSteps (steps + 1) s = .ok rest) : HoldsValue s rest := by
  rw [skipSteps] at h
  split at h
  · cases h
  · rename_i hs
    exact .of_token hs (by rw [eq_append_of_readWord h]; rfl) .null
  · rename_i hs
    exact .of_token hs (by rw [eq_append_of_readWord h]; rfl) .yes
  · rename_i hs
    exact .of_token hs (by rw [eq_append_of_readWord h]; rfl) .no
  · rename_i hs
    obtain ⟨unsigned, hunsigned, rfl⟩ := exists_of_skipNumber h
    exact .of_token hs rfl (.number (Or.inr ⟨unsigned, hunsigned, rfl⟩))
  · rename_i hs
    obtain ⟨written, pieces, rfl, hspelled⟩ := exists_spelled_of_skipString h
    exact .of_token hs (by simp) (.string hspelled)
  · rename_i body hs
    have hbody : ∃ items, HoldsLaid ']' Spells true body items rest := by
      split at h
      · cases h
      · rename_i hclose
        cases h
        exact ⟨[], .close hclose⟩
      · obtain ⟨after, hfirst, hmore⟩ := exists_of_bind_ok h
        exact hsteps.firstItem hfirst hmore
    obtain ⟨items, laid, texts, hlaid, hspells, rfl⟩ := hbody
    exact .of_token hs rfl (.array hlaid hspells)
  · rename_i body hs
    have hbody : ∃ members, HoldsLaid '\x7d' (SpellsMember Spells) true body members rest := by
      split at h
      · cases h
      · rename_i hclose
        cases h
        exact ⟨[], .close hclose⟩
      · obtain ⟨key, hkey, hmember⟩ := exists_of_bind_ok h
        obtain ⟨after, hvalue, hmore⟩ := exists_of_bind_ok hmember
        exact hsteps.firstMember hkey hvalue hmore
    obtain ⟨members, laid, texts, hlaid, hspells, rfl⟩ := hbody
    exact .of_token hs rfl (.object hlaid hspells)
  · split at h
    · rename_i hs _
      obtain ⟨unsigned, hunsigned, htext⟩ := exists_of_skipNumber h
      exact .of_token hs htext (.number (Or.inl hunsigned))
    · cases h

theorem SkipsGrammar.items_succ (hsteps : SkipsGrammar steps)
    (h : skipItems (steps + 1) s = .ok rest) :
    ∃ items, HoldsLaid ']' Spells false s items rest := by
  rw [skipItems] at h
  split at h
  · cases h
  · rename_i hcomma
    obtain ⟨after, hnext, hmore⟩ := exists_of_bind_ok h
    obtain ⟨between, text, item, hbetween, hitem, htext⟩ := hsteps.value hnext
    obtain ⟨items, hitems⟩ := hsteps.items hmore
    exact ⟨item :: items, .next hcomma hbetween hitem htext hitems⟩
  · rename_i hclose
    cases h
    exact ⟨[], .close hclose⟩
  · cases h

theorem SkipsGrammar.members_succ (hsteps : SkipsGrammar steps)
    (h : skipMembers (steps + 1) s = .ok rest) :
    ∃ members, HoldsLaid '\x7d' (SpellsMember Spells) false s members rest := by
  rw [skipMembers] at h
  split at h
  · cases h
  · rename_i hcomma
    obtain ⟨key, hkey, hmember⟩ := exists_of_bind_ok h
    obtain ⟨after, hvalue, hmore⟩ := exists_of_bind_ok hmember
    obtain ⟨between, text, member, hbetween, hmember, htext⟩ :=
      exists_member hkey (hsteps.value hvalue)
    obtain ⟨members, hmembers⟩ := hsteps.members hmore
    exact ⟨member :: members, .next hcomma hbetween hmember htext hmembers⟩
  · rename_i hclose
    cases h
    exact ⟨[], .close hclose⟩
  · cases h

theorem skipsGrammar (steps : Nat) : SkipsGrammar steps := by
  induction steps with
  | zero => exact ⟨fun h => (nomatch h), fun h => (nomatch h), fun h => (nomatch h)⟩
  | succ steps ih => exact ⟨ih.value_succ, ih.items_succ, ih.members_succ⟩

theorem holdsValue_of_skipValue (h : skipValue s = .ok rest) : HoldsValue s rest :=
  (skipsGrammar _).value h

end Soundness

section Completeness

theorem skipKey_append {blanks blanks' : List Char} (hblanks : Blanks blanks)
    (hkey : Spelled key pieces) (hblanks' : Blanks blanks') (rest : List Char) :
    skipKey (blanks ++ '"' :: (key ++ '"' :: (blanks' ++ ':' :: rest))) = .ok rest := by
  rw [skipKey, skipBlanks_token hblanks (by decide)]
  simp only [skipString_of_spelled hkey, ok_bind, skipColon]
  rw [skipBlanks_token hblanks' (by decide)]
  rfl

/-- Every text of the grammar that is no longer than the number of steps is passed over. -/
structure PassesOver (steps : Nat) : Prop where
  value {blanks piece : List Char} {tree : Tree} (hblanks : Blanks blanks)
    (h : Spells piece tree) (hsteps : piece.length ≤ steps) {rest : List Char}
    (hrest : EndsNumber rest) : skipSteps steps (blanks ++ (piece ++ rest)) = .ok rest
  items {s : List Char} {texts : List (List Char)} {items : List Tree}
    (hlaid : Laid ']' false s texts) (h : List.Forall₂ Spells texts items)
    (hsteps : s.length ≤ steps) (rest : List Char) : skipItems steps (s ++ rest) = .ok rest
  members {s : List Char} {texts : List (List Char)} {members : List (List Piece × Tree)}
    (hlaid : Laid '\x7d' false s texts) (h : List.Forall₂ (SpellsMember Spells) texts members)
    (hsteps : s.length ≤ steps) (rest : List Char) : skipMembers steps (s ++ rest) = .ok rest

theorem skipSteps_number {blanks : List Char} (hblanks : Blanks blanks) (h : IsNumber s)
    (hrest : EndsNumber rest) : skipSteps (steps + 1) (blanks ++ (s ++ rest)) = .ok rest := by
  rcases h with h | ⟨unsigned, h, rfl⟩
  · have hskip := skipNumber_append h hrest
    obtain ⟨c, t, rfl, hdigit⟩ := h.exists_digit
    rw [skipSteps, List.cons_append, skipBlanks_token hblanks (isBlank_of_isDigit hdigit)]
    rw [List.cons_append] at hskip
    split
    · rename_i heq
      cases heq
    iterate 7
      · rename_i heq
        obtain ⟨rfl, rfl⟩ := List.cons.inj heq
        cases hdigit
    · rename_i heq
      obtain ⟨rfl, rfl⟩ := List.cons.inj heq
      rw [if_pos hdigit, hskip]
  · rw [skipSteps, List.cons_append, skipBlanks_token hblanks (by decide)]
    exact skipNumber_append h hrest

theorem PassesOver.list (hsteps : PassesOver steps) {texts : List (List Char)} {items : List Tree}
    {blanks : List Char} (hblanks : Blanks blanks) (hlaid : Laid ']' true s texts)
    (h : List.Forall₂ Spells texts items) (hlength : s.length ≤ steps) (rest : List Char) :
    skipSteps (steps + 1) (blanks ++ ('[' :: s ++ rest)) = .ok rest := by
  rw [skipSteps, List.cons_append, skipBlanks_token hblanks (by decide)]
  simp only
  cases hlaid with
  | close hbefore =>
    rw [List.append_assoc, List.singleton_append, skipBlanks_token hbefore (by decide)]
    rfl
  | @first before text s texts hbefore hlaid =>
    obtain _ | ⟨hitem, hitems⟩ := h
    rw [List.length_append, List.length_append] at hlength
    have hfirst := hsteps.value blanks_nil hitem (by omega)
      (hlaid.endsNumber (endsNumber_cons (by decide)) rest)
    have hmore := hsteps.items hlaid hitems (by omega) rest
    obtain ⟨c, t, rfl, hblank, hclose⟩ := hitem.starts_item
    rw [List.nil_append, List.cons_append] at hfirst
    rw [List.append_assoc, List.append_assoc, List.cons_append, skipBlanks_token hbefore hblank]
    split
    · rename_i heq
      cases heq
    · rename_i heq
      exact absurd (List.cons.inj heq).1 hclose
    · rw [hfirst, ok_bind, hmore]

theorem PassesOver.object (hsteps : PassesOver steps) {texts : List (List Char)}
    {members : List (List Piece × Tree)} {blanks : List Char} (hblanks : Blanks blanks)
    (hlaid : Laid '\x7d' true s texts) (h : List.Forall₂ (SpellsMember Spells) texts members)
    (hlength : s.length ≤ steps) (rest : List Char) :
    skipSteps (steps + 1) (blanks ++ ('\x7b' :: s ++ rest)) = .ok rest := by
  rw [skipSteps, List.cons_append, skipBlanks_token hblanks (by decide)]
  simp only
  cases hlaid with
  | close hbefore =>
    rw [List.append_assoc, List.singleton_append, skipBlanks_token hbefore (by decide)]
    rfl
  | @first before text s texts hbefore hlaid =>
    obtain _ | ⟨⟨hkey, hbetween, hbehind, hvalue⟩, hmembers⟩ := h
    simp only [List.length_append, List.length_cons] at hlength
    have hfirst := hsteps.value hbehind hvalue (by omega)
      (hlaid.endsNumber (endsNumber_cons (by decide)) rest)
    have hmore := hsteps.members hlaid hmembers (by omega) rest
    have hskip := skipKey_append blanks_nil hkey hbetween
    simp only [List.append_assoc, List.cons_append, List.nil_append] at hskip ⊢
    rw [skipBlanks_token hbefore (by decide)]
    change (skipKey _ >>= fun after => skipSteps steps after >>= skipMembers steps) = .ok rest
    rw [hskip, ok_bind, hfirst, ok_bind, hmore]

theorem PassesOver.value_succ (hsteps : PassesOver steps) {blanks : List Char}
    (hblanks : Blanks blanks) (h : Spells piece tree) (hlength : piece.length ≤ steps + 1)
    {rest : List Char} (hrest : EndsNumber rest) :
    skipSteps (steps + 1) (blanks ++ (piece ++ rest)) = .ok rest := by
  cases h with
  | number h => exact skipSteps_number hblanks h hrest
  | array hlaid h => exact hsteps.list hblanks hlaid h (by simpa using hlength) rest
  | object hlaid h => exact hsteps.object hblanks hlaid h (by simpa using hlength) rest
  | null =>
    rw [skipSteps, List.cons_append, skipBlanks_token hblanks (by decide)]
    exact readWord_append "ull".toList rest
  | yes =>
    rw [skipSteps, List.cons_append, skipBlanks_token hblanks (by decide)]
    exact readWord_append "rue".toList rest
  | no =>
    rw [skipSteps, List.cons_append, skipBlanks_token hblanks (by decide)]
    exact readWord_append "alse".toList rest
  | string h =>
    rw [skipSteps, List.cons_append, skipBlanks_token hblanks (by decide)]
    simpa using skipString_of_spelled h rest

theorem PassesOver.items_succ (hsteps : PassesOver steps) {texts : List (List Char)}
    {items : List Tree} (hlaid : Laid ']' false s texts) (h : List.Forall₂ Spells texts items)
    (hlength : s.length ≤ steps + 1) (rest : List Char) :
    skipItems (steps + 1) (s ++ rest) = .ok rest := by
  cases hlaid with
  | close hbefore =>
    rw [List.append_assoc, List.singleton_append, skipItems, skipBlanks_token hbefore (by decide)]
    rfl
  | @next before between text s texts hbefore hbetween hlaid =>
    obtain _ | ⟨hitem, hitems⟩ := h
    simp only [List.length_append, List.length_cons] at hlength
    have hnext := hsteps.value hbetween hitem (by omega)
      (hlaid.endsNumber (endsNumber_cons (by decide)) rest)
    simp only [List.append_assoc, List.cons_append]
    rw [skipItems, skipBlanks_token hbefore (by decide)]
    simp only
    rw [hnext, ok_bind, hsteps.items hlaid hitems (by omega) rest]

theorem PassesOver.members_succ (hsteps : PassesOver steps) {texts : List (List Char)}
    {members : List (List Piece × Tree)} (hlaid : Laid '\x7d' false s texts)
    (h : List.Forall₂ (SpellsMember Spells) texts members) (hlength : s.length ≤ steps + 1)
    (rest : List Char) : skipMembers (steps + 1) (s ++ rest) = .ok rest := by
  cases hlaid with
  | close hbefore =>
    rw [List.append_assoc, List.singleton_append, skipMembers,
      skipBlanks_token hbefore (by decide)]
    rfl
  | @next before between text s texts hbefore hbetween hlaid =>
    obtain _ | ⟨⟨hkey, hblanks, hbehind, hvalue⟩, hmembers⟩ := h
    simp only [List.length_append, List.length_cons] at hlength
    have hnext := hsteps.value hbehind hvalue (by omega)
      (hlaid.endsNumber (endsNumber_cons (by decide)) rest)
    have hskip := skipKey_append hbetween hkey hblanks
    simp only [List.append_assoc, List.cons_append] at hskip ⊢
    rw [skipMembers, skipBlanks_token hbefore (by decide)]
    simp only
    rw [hskip, ok_bind, hnext, ok_bind, hsteps.members hlaid hmembers (by omega) rest]

theorem passesOver (steps : Nat) : PassesOver steps := by
  induction steps with
  | zero =>
    -- no text of the grammar is empty
    refine ⟨fun _ h hsteps => ?_, fun hlaid _ hsteps => ?_, fun hlaid _ hsteps => ?_⟩
    · obtain ⟨c, t, rfl, _⟩ := h.starts
      simp at hsteps
    · have hpos := hlaid.length_pos rfl
      omega
    · have hpos := hlaid.length_pos rfl
      omega
  | succ steps ih => exact ⟨ih.value_succ, ih.items_succ, ih.members_succ⟩

/-- A value of the grammar is passed over up to its end. -/
theorem skipValue_append {blanks : List Char} (hblanks : Blanks blanks) (h : Spells piece tree)
    (hrest : EndsNumber rest) : skipValue (blanks ++ (piece ++ rest)) = .ok rest := by
  refine (passesOver _).value hblanks h ?_ hrest
  simp only [List.length_append]
  omega

end Completeness

end Schemata.Json

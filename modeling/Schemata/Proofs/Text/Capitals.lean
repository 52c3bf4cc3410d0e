import Schemata.Proofs.Text.Letters

/-!
Capital forms are settled: no character of a capital form changes when it is capitalised again,
and none is an underscore, except that of the underscore itself. Outside ASCII this is a fact
about the tables of letters. The codes in the tables are taken as the bits of two numbers, so that
all spans are compared with all others at once.
-/
namespace Schemata.Text

/-- The number that has the given bits. -/
def bits : List Nat → Nat
  | [] => 0
  | code :: codes => 1 <<< code ||| bits codes

theorem testBit_bits (codes : List Nat) (n : Nat) :
    (bits codes).testBit n = decide (n ∈ codes) := by
  induction codes with
  | nil => simp [bits]
  | cons code codes ih =>
    have hfirst : (1 <<< code).testBit n = decide (n = code) := by
      rw [Nat.testBit_shiftLeft, Bool.eq_iff_iff, Bool.and_eq_true, decide_eq_true_iff,
        decide_eq_true_iff, Nat.testBit_one_eq_true_iff_self_eq_zero]
      omega
    rw [bits, Nat.testBit_or, hfirst, ih, ← Bool.decide_or, decide_eq_decide, List.mem_cons]

/-- Numbers without a common bit stand for lists without a common member. -/
theorem not_mem_of_bits {codes others : List Nat} (h : bits codes &&& bits others = 0) {n : Nat}
    (hn : n ∈ codes) : n ∉ others := by
  intro hother
  have hbit := congrArg (Nat.testBit · n) h
  simp only [Nat.testBit_and, testBit_bits, hn, hother, Nat.zero_testBit] at hbit
  exact absurd hbit (by decide)

def CaseSpan.codes (span : CaseSpan) : List Nat :=
  List.range' span.first ((span.last - span.first) / span.stride + 1) span.stride

theorem CaseSpan.mem_codes {span : CaseSpan} {code : Nat} (h : span.holds code = true) :
    code ∈ span.codes := by
  simp only [CaseSpan.holds, Bool.and_eq_true, decide_eq_true_eq, beq_iff_eq] at h
  obtain ⟨⟨hfirst, hlast⟩, hstride⟩ := h
  have hsteps := Nat.div_add_mod (code - span.first) span.stride
  have hbound : (code - span.first) / span.stride ≤ (span.last - span.first) / span.stride :=
    Nat.div_le_div_right (Nat.sub_le_sub_right hlast _)
  exact List.mem_range'.mpr ⟨_, Nat.lt_succ_of_le hbound, by omega⟩

/-- The codes of the characters that have another capital form. -/
def changingCodes : List Nat :=
  wideCapitals.map (·.1) ++ (⟨0x61, 0x7A, 1, -32⟩ :: capitalSpans).flatMap CaseSpan.codes

/-- What the tables of capitals lead to, and the code that stands for those of no character. -/
def capitalCodes : List Nat :=
  0 :: (wideCapitals.flatMap (·.2) ++ capitalSpans.flatMap fun span => span.codes.map span.image)

theorem capitalCodes_apart : bits capitalCodes &&& bits ('_'.toNat :: changingCodes) = 0 := by
  decide +kernel

theorem toNat_ofNat_mem {code : Nat} (h : code ∈ capitalCodes) :
    (Char.ofNat code).toNat ∈ capitalCodes := by
  by_cases hvalid : code.isValidChar
  · rwa [Char.ofNat, dif_pos hvalid]
  · rw [Char.ofNat, dif_neg hvalid]
    exact List.mem_cons_self

theorem wideCapitals_ne_nil : ∀ entry ∈ wideCapitals, entry.2 ≠ [] := by decide +kernel

theorem lookup_mem {table : List (Nat × List Nat)} {code : Nat} {codes : List Nat}
    (h : table.lookup code = some codes) : (code, codes) ∈ table := by
  obtain ⟨front, back, rfl, _⟩ := List.lookup_eq_some_iff.mp h
  exact List.mem_append_right front List.mem_cons_self

/-- A character has itself for its capital form, or one of the capitals of the tables; the
letters of ASCII are changed without a table. -/
theorem capital_cases (c : Char) :
    c.toNat < 0x80 ∧ capital c = [c.toUpper] ∨ capital c = [c] ∨
      capital c ≠ [] ∧ ∀ d ∈ capital c, d.toNat ∈ capitalCodes := by
  rw [capital]
  split
  · rename_i hsmall
    exact Or.inl ⟨hsmall, rfl⟩
  · right
    rw [caseForm]
    split
    · rename_i codes hcodes
      have hentry := lookup_mem hcodes
      refine Or.inr ⟨fun hnil => ?_, fun d hd => ?_⟩
      · exact wideCapitals_ne_nil _ hentry (List.map_eq_nil_iff.mp hnil)
      · obtain ⟨code, hcode, rfl⟩ := List.mem_map.mp hd
        have hmem : code ∈ wideCapitals.flatMap (·.2) := List.mem_flatMap.mpr ⟨_, hentry, hcode⟩
        exact toNat_ofNat_mem (List.mem_cons_of_mem _ (List.mem_append_left _ hmem))
    · split
      · rename_i span hspan
        refine Or.inr ⟨List.cons_ne_nil _ _, fun d hd => ?_⟩
        have hholds := List.find?_some hspan
        have hcode : c.toNat ∈ span.codes := CaseSpan.mem_codes hholds
        have hmem : span.image c.toNat ∈
            capitalSpans.flatMap fun span => span.codes.map span.image :=
          List.mem_flatMap.mpr
            ⟨span, List.mem_of_find?_eq_some hspan, List.mem_map_of_mem hcode⟩
        rw [List.mem_singleton.mp hd]
        exact toNat_ofNat_mem (List.mem_cons_of_mem _ (List.mem_append_right _ hmem))
      · exact Or.inl rfl

theorem capital_of_not_changing {c : Char} (h : c.toNat ∉ changingCodes) : capital c = [c] := by
  simp only [changingCodes, List.flatMap_cons, List.mem_append, not_or] at h
  obtain ⟨hwide, hascii, hspans⟩ := h
  rw [capital]
  split
  · have hsmall : ¬(97 ≤ c.toNat ∧ c.toNat ≤ 122) := by
      intro hletter
      refine hascii (CaseSpan.mem_codes ?_)
      simp only [CaseSpan.holds, Nat.mod_one, Bool.and_eq_true, decide_eq_true_eq]
      exact ⟨hletter, rfl⟩
    have hupper := toNat_toUpper c
    rw [if_neg hsmall] at hupper
    rw [Char.toNat_inj.mp hupper]
  · have hlookup : wideCapitals.lookup c.toNat = none := by
      rw [List.lookup_eq_none_iff]
      intro entry hentry
      rw [bne_iff_ne]
      intro hcode
      exact hwide (hcode ▸ List.mem_map_of_mem hentry)
    have hfind : capitalSpans.find? (·.holds c.toNat) = none := by
      rw [List.find?_eq_none]
      intro span hspan hholds
      exact hspans (List.mem_flatMap.mpr ⟨span, hspan, CaseSpan.mem_codes hholds⟩)
    rw [caseForm, hlookup]
    simp only [hfind]

theorem capital_toUpper {c : Char} (h : c.toNat < 0x80) : capital c.toUpper = [c.toUpper] := by
  have hsame : c.toUpper.toUpper = c.toUpper := by
    rw [← Char.toNat_inj, toNat_toUpper c.toUpper, toNat_toUpper c]
    split_ifs <;> omega
  rw [capital, if_pos ((isAscii_toUpper c).mpr h), hsame]

theorem capital_of_mem_capital {c d : Char} (h : d ∈ capital c) : capital d = [d] := by
  rcases capital_cases c with ⟨hsmall, hform⟩ | hform | ⟨_, hcodes⟩
  · rw [hform, List.mem_singleton] at h
    rw [h]
    exact capital_toUpper hsmall
  · rw [hform, List.mem_singleton] at h
    rw [h, hform]
  · have happart := not_mem_of_bits capitalCodes_apart (hcodes d h)
    exact capital_of_not_changing fun hchanging => happart (List.mem_cons_of_mem _ hchanging)

theorem capital_ne_nil (c : Char) : capital c ≠ [] := by
  rcases capital_cases c with ⟨_, hform⟩ | hform | ⟨hne, _⟩
  · rw [hform]
    exact List.cons_ne_nil _ _
  · rw [hform]
    exact List.cons_ne_nil _ _
  · exact hne

theorem underscore_not_mem_capital {c : Char} (hc : c ≠ '_') : '_' ∉ capital c := by
  intro h
  rcases capital_cases c with ⟨_, hform⟩ | hform | ⟨_, hcodes⟩
  · rw [hform, List.mem_singleton] at h
    exact hc ((toUpper_eq_iff (by decide) c).mp h.symm)
  · rw [hform, List.mem_singleton] at h
    exact hc h.symm
  · exact not_mem_of_bits capitalCodes_apart (hcodes _ h) List.mem_cons_self

end Schemata.Text

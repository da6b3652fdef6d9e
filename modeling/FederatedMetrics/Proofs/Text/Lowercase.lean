import FederatedMetrics.Proofs.Text.Words
import FederatedMetrics.Text.Lowercase
import Mathlib.Data.List.Range
import Mathlib.Data.Nat.Bitwise
import Mathlib.Data.String.Basic

/-!
# Lower case

The tables of the case properties are compared once: the lower case of a character has no lower case of
its own, a blank character has none and is none, and a blank ends the search for a cased neighbour without
finding one. So what is in lower case stays as it is, and lower case is taken word by word: which form a
sigma gets is decided inside its word.
-/

namespace FederatedMetrics.Text

/-! ## Code points -/

/-- The number whose binary digits tell which numbers are in a list. -/
def mask (numbers : List Nat) : Nat := numbers.foldl (fun found n => found ||| 2 ^ n) 0

theorem testBit_mask {numbers : List Nat} {n : Nat} : (mask numbers).testBit n = true ↔ n ∈ numbers := by
  suffices h : ∀ found : Nat, (numbers.foldl (fun found n => found ||| 2 ^ n) found).testBit n = true ↔
      found.testBit n = true ∨ n ∈ numbers by
    rw [mask, h 0, Nat.zero_testBit]
    simp
  induction numbers with
  | nil => simp
  | cons first rest ih =>
      intro found
      rw [List.foldl_cons, ih, Nat.testBit_or, Nat.testBit_two_pow, List.mem_cons, Bool.or_eq_true,
        decide_eq_true_iff, or_assoc, @eq_comm _ first]

/-- Lists of numbers have nothing in common if their masks have no common digit. -/
theorem disjoint_of_mask {numbers others : List Nat} (h : mask numbers &&& mask others = 0) :
    numbers.Disjoint others := by
  intro n hn hother
  have hbit : (mask numbers &&& mask others).testBit n = true := by
    rw [Nat.testBit_and, testBit_mask.mpr hn, testBit_mask.mpr hother, Bool.and_self]
  rw [h, Nat.zero_testBit] at hbit
  exact Bool.false_ne_true hbit

/-- The code points of ranges. -/
def codesOf (ranges : List (Nat × Nat)) : List Nat :=
  ranges.flatMap fun range => List.range' range.1 (range.2 + 1 - range.1)

theorem inRanges_eq_true_iff {ranges : List (Nat × Nat)} {code : Nat} :
    inRanges ranges code = true ↔ code ∈ codesOf ranges := by
  simp only [inRanges, codesOf, List.any_eq_true, List.mem_flatMap, List.mem_range'_1,
    Bool.and_eq_true, decide_eq_true_iff]
  apply exists_congr
  intro range
  apply and_congr_right
  intro _
  omega

theorem inRanges_eq_false_iff {ranges : List (Nat × Nat)} {code : Nat} :
    inRanges ranges code = false ↔ code ∉ codesOf ranges := by
  rw [Bool.eq_false_iff, ne_eq, inRanges_eq_true_iff]

/-- The code points that have a lower case in a range. -/
def CaseRange.codes (r : CaseRange) : List Nat :=
  List.range' r.first ((r.last - r.first) / r.stride + 1) r.stride

def CaseRange.lowerOf (r : CaseRange) (code : Nat) : Nat := (code + r.shift).toNat

/-- The code points with a lower case of one character. -/
def upperCodes : List Nat := caseRanges.flatMap CaseRange.codes

/-- The code points that are the lower case of others. -/
def lowerCodes : List Nat := caseRanges.flatMap fun r => r.codes.map r.lowerOf

/-- A range gives a lower case to its code points only. -/
theorem CaseRange.of_shiftOf?_eq_some {r : CaseRange} {code : Nat} {shift : Int}
    (h : r.shiftOf? code = some shift) : code ∈ r.codes ∧ r.shift = shift := by
  rw [shiftOf?] at h
  split at h
  · next hcode =>
      obtain ⟨hfirst, hlast, hstride⟩ := hcode
      refine ⟨List.mem_range'.mpr ⟨(code - r.first) / r.stride, ?_, ?_⟩, Option.some.inj h⟩
      · have hsteps := Nat.div_le_div_right (c := r.stride) (Nat.sub_le_sub_right hlast r.first)
        omega
      · have hwhole := Nat.div_add_mod (code - r.first) r.stride
        omega
  · cases h

theorem isValidChar_of_mem_lowerCodes : ∀ code ∈ lowerCodes, code.isValidChar := by
  decide +kernel

/-- Lower cases have no lower case of their own, and they are neither blank nor the capital I with a
dot. -/
theorem disjoint_lowerCodes : lowerCodes.Disjoint (upperCodes ++ 0x130 :: codesOf blankRanges) :=
  disjoint_of_mask (by decide +kernel)

theorem disjoint_blank_upper : (codesOf blankRanges).Disjoint upperCodes :=
  disjoint_of_mask (by decide +kernel)

theorem disjoint_blank_cased : (codesOf blankRanges).Disjoint (codesOf casedRanges) :=
  disjoint_of_mask (by decide +kernel)

theorem disjoint_blank_ignorable : (codesOf blankRanges).Disjoint (codesOf caseIgnorableRanges) :=
  disjoint_of_mask (by decide +kernel)

/-! ## Characters -/

/-- A character is its own lower case, or the tables give it another one. -/
theorem lowerChar_cases (c : Char) :
    lowerChar c = c ∨ c.toNat ∈ upperCodes ∧ (lowerChar c).toNat ∈ lowerCodes := by
  rw [lowerChar]
  split
  · next shift hshift =>
      right
      obtain ⟨r, hr, hcode⟩ := List.exists_of_findSome?_eq_some hshift
      obtain ⟨hmem, rfl⟩ := CaseRange.of_shiftOf?_eq_some hcode
      have hlower : (c.toNat + r.shift).toNat ∈ lowerCodes :=
        List.mem_flatMap.mpr ⟨r, hr, List.mem_map_of_mem hmem⟩
      refine ⟨List.mem_flatMap.mpr ⟨r, hr, hmem⟩, ?_⟩
      have hvalid := isValidChar_of_mem_lowerCodes _ hlower
      rw [Char.ofNat, dif_pos hvalid]
      exact hlower
  · exact .inl rfl

theorem lowerChar_lowerChar (c : Char) : lowerChar (lowerChar c) = lowerChar c := by
  rcases lowerChar_cases c with h | ⟨-, hlower⟩
  · rw [h, h]
  · rcases lowerChar_cases (lowerChar c) with h | ⟨hupper, -⟩
    · exact h
    · exact absurd (List.mem_append_left _ hupper) (disjoint_lowerCodes hlower)

theorem isBlank_lowerChar (c : Char) : isBlank (lowerChar c) = isBlank c := by
  rcases lowerChar_cases c with h | ⟨hupper, hlower⟩
  · rw [h]
  · have hbefore : isBlank c = false :=
      inRanges_eq_false_iff.mpr fun hblank => disjoint_blank_upper hblank hupper
    have hafter : isBlank (lowerChar c) = false := inRanges_eq_false_iff.mpr fun hblank =>
      disjoint_lowerCodes hlower (List.mem_append_right _ (List.mem_cons_of_mem _ hblank))
    rw [hbefore, hafter]

/-- Wherever it stands, a character is its own lower case. -/
structure IsLowerCase (c : Char) : Prop where
  ne_sigma : c ≠ capitalSigma
  ne_dotted : c ≠ dottedCapitalI
  lowerChar_eq : lowerChar c = c

instance (c : Char) : Decidable (IsLowerCase c) :=
  decidable_of_iff (c ≠ capitalSigma ∧ c ≠ dottedCapitalI ∧ lowerChar c = c)
    ⟨fun h => ⟨h.1, h.2.1, h.2.2⟩, fun h => ⟨h.ne_sigma, h.ne_dotted, h.lowerChar_eq⟩⟩

/-- The lower case of a character is in lower case, but for the capital I with a dot, which has no lower
case of one character. -/
theorem isLowerCase_lowerChar {c : Char} (hc : c ≠ dottedCapitalI) : IsLowerCase (lowerChar c) := by
  refine ⟨fun h => ?_, fun h => ?_, lowerChar_lowerChar c⟩
  · have hsigma := h ▸ lowerChar_lowerChar c
    exact absurd hsigma (by decide +kernel)
  · rcases lowerChar_cases c with hsame | ⟨-, hlower⟩
    · exact hc (hsame ▸ h)
    · rw [h] at hlower
      exact disjoint_lowerCodes hlower (List.mem_append_right _ List.mem_cons_self)

/-- What the lower case of a character is made of: only a capital sigma and a capital I with a dot have one
that is not in the tables. -/
theorem of_mem_lowerAt {before after : List Char} {c d : Char} (h : d ∈ lowerAt before c after) :
    c = capitalSigma ∧ (d = Char.ofNat 0x3C2 ∨ d = Char.ofNat 0x3C3) ∨
    c = dottedCapitalI ∧ (d = 'i' ∨ d = Char.ofNat 0x307) ∨
    c ≠ dottedCapitalI ∧ d = lowerChar c := by
  rw [lowerAt] at h
  split at h
  · next hc =>
      refine .inl ⟨hc, ?_⟩
      split at h
      · exact .inl (List.mem_singleton.mp h)
      · exact .inr (List.mem_singleton.mp h)
  · split at h
    · next hc => exact .inr (.inl ⟨hc, List.mem_pair.mp h⟩)
    · next hc => exact .inr (.inr ⟨hc, List.mem_singleton.mp h⟩)

/-- Whatever stands around it, the lower case of a character is in lower case. -/
theorem isLowerCase_of_mem_lowerAt {before after : List Char} {c d : Char}
    (h : d ∈ lowerAt before c after) : IsLowerCase d := by
  rcases of_mem_lowerAt h with ⟨-, rfl | rfl⟩ | ⟨-, rfl | rfl⟩ | ⟨hc, rfl⟩
  · decide +kernel
  · decide +kernel
  · decide +kernel
  · decide +kernel
  · exact isLowerCase_lowerChar hc

theorem IsLowerCase.lowerAt_eq {c : Char} (h : IsLowerCase c) (before after : List Char) :
    lowerAt before c after = [c] := by
  rw [lowerAt, if_neg h.ne_sigma, if_neg h.ne_dotted, h.lowerChar_eq]

/-- The lower case of a character is blank if the character is. -/
theorem isBlank_of_mem_lowerAt {before after : List Char} {c d : Char}
    (h : d ∈ lowerAt before c after) : isBlank d = isBlank c := by
  rcases of_mem_lowerAt h with ⟨rfl, rfl | rfl⟩ | ⟨rfl, rfl | rfl⟩ | ⟨-, rfl⟩
  · decide +kernel
  · decide +kernel
  · decide +kernel
  · decide +kernel
  · exact isBlank_lowerChar c

theorem lowerAt_ne_nil (before after : List Char) (c : Char) : lowerAt before c after ≠ [] := by
  rw [lowerAt]
  split
  · split <;> simp
  · split <;> simp

/-- A blank is its own lower case. -/
theorem isLowerCase_of_isBlank {b : Char} (hb : isBlank b = true) : IsLowerCase b := by
  refine ⟨?_, ?_, ?_⟩
  · rintro rfl
    exact absurd hb (by decide)
  · rintro rfl
    exact absurd hb (by decide)
  · rcases lowerChar_cases b with h | ⟨hupper, -⟩
    · exact h
    · exact absurd hupper (disjoint_blank_upper (inRanges_eq_true_iff.mp hb))

/-! ## Texts -/

theorem isLowerCase_of_mem_lowerFrom {before cs : List Char} {d : Char}
    (h : d ∈ lowerFrom before cs) : IsLowerCase d := by
  induction cs generalizing before with
  | nil => simp at h
  | cons c rest ih =>
      rw [lowerFrom_cons] at h
      exact (List.mem_append.mp h).elim isLowerCase_of_mem_lowerAt ih

/-- What is in lower case stays as it is. -/
theorem lowerFrom_eq_self {cs : List Char} (h : ∀ c ∈ cs, IsLowerCase c) (before : List Char) :
    lowerFrom before cs = cs := by
  induction cs generalizing before with
  | nil => rfl
  | cons c rest ih =>
      obtain ⟨hc, hrest⟩ := List.forall_mem_cons.mp h
      rw [lowerFrom_cons, hc.lowerAt_eq, ih hrest, List.singleton_append]

theorem lowerFrom_eq_nil_iff {before cs : List Char} : lowerFrom before cs = [] ↔ cs = [] := by
  cases cs with
  | nil => simp
  | cons c rest => simp [lowerFrom_cons, lowerAt_ne_nil]

theorem isBlank_of_mem_lowerFrom {before cs : List Char} (h : ∀ c ∈ cs, isBlank c = false) :
    ∀ d ∈ lowerFrom before cs, isBlank d = false := by
  induction cs generalizing before with
  | nil => simp
  | cons c rest ih =>
      obtain ⟨hc, hrest⟩ := List.forall_mem_cons.mp h
      rw [lowerFrom_cons]
      refine List.forall_mem_append.mpr ⟨fun d hd => ?_, ih hrest⟩
      rw [isBlank_of_mem_lowerAt hd, hc]

/-! ## Words -/

variable {b : Char}

/-- A blank ends the search for a cased neighbour: it is not skipped, and it is not cased. -/
theorem meetsCased_append_cons (hb : isBlank b = true) (cs rest : List Char) :
    meetsCased (cs ++ b :: rest) = meetsCased cs := by
  have hcode := inRanges_eq_true_iff.mp hb
  have hcased : isCased b = false := inRanges_eq_false_iff.mpr fun h => disjoint_blank_cased hcode h
  have hignorable : isCaseIgnorable b = false :=
    inRanges_eq_false_iff.mpr fun h => disjoint_blank_ignorable hcode h
  induction cs with
  | nil => simp [meetsCased, hignorable, hcased]
  | cons c cs ih =>
      cases hc : isCaseIgnorable c with
      | true => simpa [meetsCased, hc] using ih
      | false => simp [meetsCased, hc]

/-- Behind a blank begins a new text. -/
theorem lowerFrom_behind_blank (hb : isBlank b = true) (before begun cs : List Char) :
    lowerFrom (begun ++ b :: before) cs = lowerFrom begun cs := by
  induction cs generalizing begun with
  | nil => rfl
  | cons c rest ih =>
      rw [lowerFrom_cons, lowerFrom_cons, lowerAt, lowerAt, meetsCased_append_cons hb, ← ih (c :: begun),
        List.cons_append]

/-- The two sides of a blank are lowered by themselves. -/
theorem lowerFrom_append_cons (hb : isBlank b = true) (before cs rest : List Char) :
    lowerFrom before (cs ++ b :: rest) = lowerFrom before cs ++ b :: lowerChars rest := by
  induction cs generalizing before with
  | nil =>
      have hbehind := lowerFrom_behind_blank hb before [] rest
      rw [List.nil_append, lowerFrom_cons, (isLowerCase_of_isBlank hb).lowerAt_eq, lowerFrom_nil,
        List.nil_append, List.singleton_append, lowerChars, ← hbehind, List.nil_append]
  | cons c cs ih =>
      rw [List.cons_append, lowerFrom_cons, lowerFrom_cons, lowerAt, lowerAt, meetsCased_append_cons hb,
        ih, List.append_assoc]

/-- The words of a text in lower case are its words, each in lower case by itself. -/
theorem words_lowerChars (cs : List Char) : words (lowerChars cs) = (words cs).map lowerChars := by
  induction cs using blankInduction with
  | unblank cs hcs =>
      by_cases hne : cs = []
      · subst hne
        rfl
      · have hlower : ∀ c ∈ lowerChars cs, isBlank c = false := isBlank_of_mem_lowerFrom hcs
        have hnonempty : lowerChars cs ≠ [] := fun h => hne (lowerFrom_eq_nil_iff.mp h)
        rw [words_of_unblank hcs hne, words_of_unblank hlower hnonempty, List.map_singleton]
  | blank cs b rest hb ihLeft ihRight =>
      have hsides : lowerChars (cs ++ b :: rest) = lowerChars cs ++ b :: lowerChars rest :=
        lowerFrom_append_cons hb [] cs rest
      rw [hsides, words_append_cons hb, words_append_cons hb, ihLeft, ihRight, List.map_append]

end FederatedMetrics.Text

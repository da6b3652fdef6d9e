import Mathlib.Data.String.Basic
import Mathlib.Data.List.Lex

/-!
# The order of texts by bytes

Texts are compared by their characters. The encoding into bytes keeps this order: of two different
characters the greater one has the greater byte in the first place where their bytes differ.
-/

namespace FederatedMetrics.Text

/-- The bytes in which a text is stored. -/
def bytes (s : String) : List UInt8 := s.toUTF8.data.toList

theorem bytes_eq (s : String) : bytes s = s.toList.flatMap String.utf8EncodeChar := by
  have h : s.toUTF8 = s.toList.utf8Encode := String.utf8Encode_toList.symm
  rw [bytes, h, List.utf8Encode, List.data_toByteArray]

/-- A number in bytes: what is above the last `count` groups of six bits stands in the first byte, and each
group has a byte of its own. -/
def grouped (lead : Nat) : (count : Nat) → Nat → List UInt8
  | 0, n => [UInt8.ofNat (n + lead)]
  | count + 1, n => grouped lead count (n / 64) ++ [UInt8.ofNat (n % 64 + 128)]

theorem cons_ofNat_lt {m n : Nat} (h : m < n) (hn : n < 256) (us vs : List UInt8) :
    UInt8.ofNat m :: us < UInt8.ofNat n :: vs := by
  apply List.cons_lt_cons_iff.mpr
  left
  rwa [UInt8.lt_iff_toNat_lt, UInt8.toNat_ofNat', UInt8.toNat_ofNat', Nat.mod_eq_of_lt hn,
    Nat.mod_eq_of_lt (h.trans hn)]

theorem exists_grouped_eq_cons (lead count n : Nat) :
    ∃ rest, grouped lead count n = UInt8.ofNat (n / 64 ^ count + lead) :: rest := by
  induction count generalizing n with
  | zero => exact ⟨[], by rw [grouped, Nat.pow_zero, Nat.div_one]⟩
  | succ count ih =>
      obtain ⟨rest, hrest⟩ := ih (n / 64)
      exact ⟨rest ++ [UInt8.ofNat (n % 64 + 128)], by
        rw [grouped, hrest, Nat.div_div_eq_div_mul, ← Nat.pow_succ', List.cons_append]⟩

/-- A greater first byte decides. -/
theorem grouped_append_lt_of_first {lead other count number m n : Nat}
    (h : m / 64 ^ count + lead < n / 64 ^ number + other) (hn : n / 64 ^ number + other < 256)
    (us vs : List UInt8) : grouped lead count m ++ us < grouped other number n ++ vs := by
  obtain ⟨rest, hrest⟩ := exists_grouped_eq_cons lead count m
  obtain ⟨more, hmore⟩ := exists_grouped_eq_cons other number n
  rw [hrest, hmore]
  exact cons_ofNat_lt h hn _ _

/-- Among as many bytes the greater number decides: the groups above the last one do, and the last one where
they agree. -/
theorem grouped_append_lt {lead count m n : Nat} (h : m < n) (hn : n / 64 ^ count + lead < 256)
    (us vs : List UInt8) : grouped lead count m ++ us < grouped lead count n ++ vs := by
  induction count generalizing m n us vs with
  | zero =>
      rw [Nat.pow_zero, Nat.div_one] at hn
      exact cons_ofNat_lt (Nat.add_lt_add_right h lead) hn us vs
  | succ count ih =>
      have hrest : n / 64 / 64 ^ count + lead < 256 := by rwa [Nat.div_div_eq_div_mul, ← Nat.pow_succ']
      rw [grouped, grouped, List.append_assoc, List.append_assoc]
      rcases (Nat.div_le_div_right (c := 64) h.le).lt_or_eq with hlt | heq
      · exact ih hlt hrest _ _
      · rw [heq]
        exact List.append_left_lt (cons_ofNat_lt (by omega) (by omega) us vs)

theorem toNat_val_lt (c : Char) : c.val.toNat < 1114112 := by
  rcases c.valid with hlow | ⟨-, hhigh⟩
  · exact hlow.trans (by decide)
  · exact hhigh

theorem utf8EncodeChar_eq (c : Char) : String.utf8EncodeChar c =
    if c.val.toNat ≤ 127 then grouped 0 0 c.val.toNat
    else if c.val.toNat ≤ 2047 then grouped 192 1 c.val.toNat
    else if c.val.toNat ≤ 65535 then grouped 224 2 c.val.toNat
    else grouped 240 3 c.val.toNat := by
  have hlimit := toNat_val_lt c
  simp only [String.utf8EncodeChar]
  generalize c.val.toNat = n at *
  split_ifs with _ htwo hthree
  · rfl
  · simp [grouped, Nat.mod_eq_of_lt (show n / 64 < 32 by omega)]
  · simp [grouped, Nat.div_div_eq_div_mul, Nat.mod_eq_of_lt (show n / 4096 < 16 by omega)]
  · simp [grouped, Nat.div_div_eq_div_mul, Nat.mod_eq_of_lt (show n / 262144 < 8 by omega)]

/-- A greater character has greater bytes, whatever follows. -/
theorem utf8EncodeChar_append_lt {c d : Char} (h : c < d) (us vs : List UInt8) :
    String.utf8EncodeChar c ++ us < String.utf8EncodeChar d ++ vs := by
  have hvalue : c.val.toNat < d.val.toNat := h
  have hlimit := toNat_val_lt d
  rw [utf8EncodeChar_eq, utf8EncodeChar_eq]
  generalize c.val.toNat = m at *
  generalize d.val.toNat = n at *
  -- A greater character has no fewer bytes.
  split_ifs <;> first
    | omega
    | exact grouped_append_lt hvalue (by omega) us vs
    | exact grouped_append_lt_of_first (by omega) (by omega) us vs

theorem bytes_lt_bytes_of_lt {s t : String} (h : s < t) : bytes s < bytes t := by
  rw [String.lt_iff] at h
  rw [bytes_eq, bytes_eq]
  generalize s.toList = cs at *
  generalize t.toList = ds at *
  induction cs generalizing ds with
  | nil => 
    cases ds with
    | nil => simp at h
    | cons d ds =>
      obtain ⟨first, rest, hd⟩ := List.exists_cons_of_length_pos
        (String.length_utf8EncodeChar d ▸ d.utf8Size_pos)
      rw [List.flatMap_cons, hd]
      exact List.nil_lt_cons _ _
  | cons c cs ih =>
    cases ds with
    | nil => simp at h
    | cons d ds =>
      rw [List.flatMap_cons, List.flatMap_cons]
      rcases List.cons_lt_cons_iff.mp h with hlt | ⟨rfl, hrest⟩
      · exact utf8EncodeChar_append_lt hlt _ _
      · exact List.append_left_lt (ih _ hrest)

/-- Texts are in the order of their bytes. -/
theorem bytes_lt_bytes_iff {s t : String} : bytes s < bytes t ↔ s < t := by
  refine ⟨fun h => ?_, bytes_lt_bytes_of_lt⟩
  rcases lt_trichotomy s t with hlt | rfl | hgt
  · exact hlt
  · exact absurd h (List.lt_irrefl _)
  · exact absurd h (List.lt_asymm (bytes_lt_bytes_of_lt hgt))

end FederatedMetrics.Text

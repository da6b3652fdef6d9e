import FederatedMetrics.Json.Printer
import FederatedMetrics.Json.Reader
import Mathlib.Data.Char

/-!
# Reading what has been printed

The text of a value is read as that value, whatever stands behind it that is no part of a number. This
holds of all values but floats, whose digits are not looked into here, and of integers that fit into 64
bits.
-/

namespace FederatedMetrics.Json

/-- A value without floats whose integers fit into 64 bits. -/
inductive IsExact : Json → Prop
  | null : IsExact .null
  | bool (value : Bool) : IsExact (.bool value)
  | int {n : Int} (h : isWord n = true) : IsExact (.int n)
  | str (text : String) : IsExact (.str text)
  | arr {items : List Json} (h : ∀ item ∈ items, IsExact item) : IsExact (.arr items)
  | obj {entries : List (String × Json)} (h : ∀ entry ∈ entries, IsExact entry.2) :
      IsExact (.obj entries)

@[simp] theorem isExact_null : IsExact .null := .null

@[simp] theorem isExact_bool (b : Bool) : IsExact (.bool b) := .bool b

@[simp] theorem isExact_str (s : String) : IsExact (.str s) := .str s

@[simp] theorem isExact_int (n : Int) : IsExact (.int n) ↔ isWord n = true :=
  ⟨fun h => by cases h; assumption, .int⟩

@[simp] theorem isExact_arr (items : List Json) :
    IsExact (.arr items) ↔ ∀ item ∈ items, IsExact item :=
  ⟨fun h => by cases h; assumption, .arr⟩

@[simp] theorem isExact_obj (entries : List (String × Json)) :
    IsExact (.obj entries) ↔ ∀ entry ∈ entries, IsExact entry.2 :=
  ⟨fun h => by cases h; assumption, .obj⟩

namespace Reader

open Decimal

/-! ## Numbers -/

theorem isDigit_eq (c : Char) : isDigit c = c.isDigit := by
  simp [isDigit, Char.isDigit, Char.le_def, ge_iff_le]

theorem natOfDigits_toDigits (n : Nat) : natOfDigits (Nat.toDigits 10 n) = n := by
  have h : Nat.ofDigitChars 10 (Nat.toDigits 10 n) 0 = n :=
    Nat.ofDigitChars_toDigits (by decide) (by decide)
  simpa [Nat.ofDigitChars, natOfDigits, digitValue, Nat.mul_comm] using h

theorem isDigit_of_mem_toDigits {n : Nat} {c : Char} (h : c ∈ Nat.toDigits 10 n) :
    isDigit c = true :=
  (isDigit_eq c).trans (Nat.isDigit_of_mem_toDigits (by decide) (by decide) h)

theorem toDigits_ne_nil (n : Nat) : Nat.toDigits 10 n ≠ [] :=
  List.ne_nil_of_length_pos Nat.length_toDigits_pos

/-- A number is not written with a zero in front. -/
theorem eq_nil_of_toDigits {n : Nat} {rest : List Char} (h : Nat.toDigits 10 n = '0' :: rest) :
    rest = [] := by
  induction n using Nat.strongRecOn generalizing rest with
  | ind n ih =>
    rw [Nat.toDigits_eq_if (by decide)] at h
    split at h
    · exact (List.cons.inj h).2.symm
    · obtain ⟨c, digits, hdigits⟩ := List.exists_cons_of_ne_nil (toDigits_ne_nil (n / 10))
      rw [hdigits] at h
      obtain rfl : c = '0' := (List.cons.inj h).1
      obtain rfl := ih (n / 10) (by omega) hdigits
      -- The number without its last digit would be zero.
      have hzero := natOfDigits_toDigits (n / 10)
      rw [hdigits] at hzero
      have : n / 10 = 0 := hzero.symm
      omega

/-- A text does not go on with a part of a number. -/
def EndsNumber (rest : List Char) : Prop :=
  ∀ c ∈ rest.head?, isDigit c = false ∧ c ≠ '.' ∧ c ≠ 'e' ∧ c ≠ 'E'

section Numbers

variable {rest : List Char}

theorem digits?_toDigits (n : Nat) (hrest : EndsNumber rest) :
    digits? (Nat.toDigits 10 n ++ rest) = some (Nat.toDigits 10 n, rest) := by
  have htail : rest.takeWhile isDigit = [] ∧ rest.dropWhile isDigit = rest := by
    cases rest with
    | nil => simp
    | cons c rest => simp [(hrest c rfl).1]
  have hdigits : ∀ c ∈ Nat.toDigits 10 n, isDigit c = true := fun c => isDigit_of_mem_toDigits
  rw [digits?, List.takeWhile_append_of_pos hdigits, List.dropWhile_append_of_pos hdigits, htail.1,
    htail.2, List.append_nil]
  simp

theorem whole?_toDigits (n : Nat) (hrest : EndsNumber rest) :
    whole? (Nat.toDigits 10 n ++ rest) = some (Nat.toDigits 10 n, rest) := by
  obtain ⟨c, digits, hdigits⟩ := List.exists_cons_of_ne_nil (toDigits_ne_nil n)
  by_cases hzero : c = '0'
  · subst hzero
    obtain rfl := eq_nil_of_toDigits hdigits
    rw [hdigits]
    cases rest with
    | nil => rfl
    | cons c rest => simp [whole?, (hrest c rfl).1]
  · rw [← digits?_toDigits n hrest, hdigits, List.cons_append, whole?]
    simpa using hzero

theorem fraction?_of_endsNumber (hrest : EndsNumber rest) : fraction? rest = some (none, rest) := by
  cases rest with
  | nil => rfl
  | cons c rest =>
      have hpoint : c ≠ '.' := (hrest c rfl).2.1
      rw [fraction?]
      simpa using hpoint

theorem exponentPart?_of_endsNumber (hrest : EndsNumber rest) :
    exponentPart? rest = some (none, rest) := by
  cases rest with
  | nil => rfl
  | cons c rest =>
      obtain ⟨-, -, hlower, hupper⟩ := hrest c rfl
      simp [exponentPart?, hlower, hupper]

/-- The numeral of an integer. -/
def numeralOf (n : Int) : Numeral := ⟨decide (n < 0), Nat.toDigits 10 n.natAbs, none, none⟩

theorem toList_toString (n : Int) :
    (toString n).toList = (if n < 0 then ['-'] else []) ++ Nat.toDigits 10 n.natAbs := by
  cases n with
  | ofNat m => simp [toString, Int.repr]
  | negSucc m => simp [toString, Int.repr, Int.negSucc_lt_zero]

/-- The parts of a number behind its sign. -/
theorem numeral?_unsigned (n : Nat) (negative : Bool) (hrest : EndsNumber rest) :
    (do
      let (whole, rest) ← whole? (Nat.toDigits 10 n ++ rest)
      let (fraction, rest) ← fraction? rest
      let (exponent, rest) ← exponentPart? rest
      return ((⟨negative, whole, fraction, exponent⟩ : Numeral), rest)) =
      some (⟨negative, Nat.toDigits 10 n, none, none⟩, rest) := by
  simp [whole?_toDigits n hrest, fraction?_of_endsNumber hrest, exponentPart?_of_endsNumber hrest]

theorem numeral?_toString (n : Int) (hrest : EndsNumber rest) :
    numeral? ((toString n).toList ++ rest) = some (numeralOf n, rest) := by
  rw [toList_toString, List.append_assoc, numeralOf]
  by_cases hnegative : n < 0
  · simp only [hnegative, ↓reduceIte, decide_true]
    exact numeral?_unsigned n.natAbs true hrest
  · simp only [hnegative, ↓reduceIte, decide_false, List.nil_append]
    rw [numeral?]
    · exact numeral?_unsigned n.natAbs false hrest
    · -- The first digit is not taken for a sign.
      intro digits hdigits
      obtain ⟨c, others, hothers⟩ := List.exists_cons_of_ne_nil (toDigits_ne_nil n.natAbs)
      have hdigit := isDigit_of_mem_toDigits (hothers ▸ List.mem_cons_self : c ∈ _)
      rw [hothers] at hdigits
      obtain rfl : c = '-' := (List.cons.inj hdigits).1
      exact absurd hdigit (by decide)

/-- The numeral of an integer of 64 bits is read as that integer. -/
theorem value_numeralOf {n : Int} (h : isWord n = true) : (numeralOf n).value = .int n := by
  have hinteger : (if n < 0 then -(n.natAbs : Int) else n.natAbs) = n := by omega
  have hsign : (decide (n < 0) && decide (n.natAbs = 0)) = false := by
    rw [Bool.and_eq_false_iff, decide_eq_false_iff_not, decide_eq_false_iff_not]
    omega
  rw [Numeral.value]
  simp only [numeralOf, Option.isNone_none, Bool.and_self, ↓reduceIte, natOfDigits_toDigits,
    decide_eq_true_eq, hinteger, h, hsign, Bool.not_false]

end Numbers

/-! ## Texts -/

/-- What a character is read as where it has been escaped: control characters without an escape of
their own are given by number. -/
def pieceOf (c : Char) : Piece :=
  if c.toNat < 32 ∧ c.toNat ∉ [8, 9, 10, 12, 13] then .unit c.toNat else .char c

theorem hexUnit?_hexDigit : ∀ n < 32,
    hexUnit? '0' '0' (hexDigit (n / 16)) (hexDigit (n % 16)) = some n := by
  decide

/-- The three ways of writing a character: by a letter, by number, and as it is. -/
inductive Escaped (c : Char) : List Char → Piece → Prop
  | short {e : Char} (hletter : e ≠ 'u') (h : shortEscape? e = some c) : Escaped c ['\\', e] (.char c)
  | unit (h : c.toNat < 32) :
      Escaped c ['\\', 'u', '0', '0', hexDigit (c.toNat / 16), hexDigit (c.toNat % 16)]
        (.unit c.toNat)
  | plain (hquote : c ≠ '\"') (hbackslash : c ≠ '\\') (h : ¬ c.toNat < 32) :
      Escaped c [c] (.char c)

theorem escaped_escapeChar (c : Char) : Escaped c (escapeChar c) (pieceOf c) := by
  by_cases hcontrol : c.toNat < 32
  · by_cases hletter : c.toNat ∈ [8, 9, 10, 12, 13]
    · obtain ⟨n, hn, rfl⟩ : ∃ n ∈ [8, 9, 10, 12, 13], c = Char.ofNat n :=
        ⟨_, hletter, c.ofNat_toNat.symm⟩
      simp only [List.mem_cons, List.not_mem_nil, or_false] at hn
      rcases hn with rfl | rfl | rfl | rfl | rfl <;> exact .short (by decide) rfl
    · have hpiece : pieceOf c = .unit c.toNat := if_pos ⟨hcontrol, hletter⟩
      have hquote : c ≠ '\"' := by rintro rfl; exact absurd hcontrol (by decide)
      have hbackslash : c ≠ '\\' := by rintro rfl; exact absurd hcontrol (by decide)
      simp only [List.mem_cons, List.not_mem_nil, or_false, not_or] at hletter
      rw [hpiece, escapeChar, if_neg hquote, if_neg hbackslash, if_neg hletter.1,
        if_neg hletter.2.1, if_neg hletter.2.2.1, if_neg hletter.2.2.2.1, if_neg hletter.2.2.2.2,
        if_pos hcontrol]
      exact .unit hcontrol
  · have hpiece : pieceOf c = .char c := if_neg fun h => hcontrol h.1
    rw [hpiece, escapeChar]
    by_cases hquote : c = '\"'
    · rw [if_pos hquote]
      exact .short (by decide) (by rw [hquote]; decide)
    · by_cases hbackslash : c = '\\'
      · rw [if_neg hquote, if_pos hbackslash]
        exact .short (by decide) (by rw [hbackslash]; decide)
      · rw [if_neg hquote, if_neg hbackslash, if_neg (by omega), if_neg (by omega),
          if_neg (by omega), if_neg (by omega), if_neg (by omega), if_neg hcontrol]
        exact .plain hquote hbackslash hcontrol

theorem pieces?_escapeChar (c : Char) (done : List Piece) (rest : List Char) :
    pieces? done (escapeChar c ++ rest) = pieces? (pieceOf c :: done) rest := by
  have hescaped := escaped_escapeChar c
  generalize escapeChar c = cs at hescaped
  generalize pieceOf c = piece at hescaped
  cases hescaped with
  | short hletter h => simp [pieces?.eq_def done, hletter, h]
  | unit h => simp [pieces?.eq_def done, hexUnit?_hexDigit _ h]
  | plain hquote hbackslash h => simp [pieces?.eq_def done, hquote, hbackslash, h]

theorem pieces?_flatMap (cs : List Char) (done : List Piece) (rest : List Char) :
    pieces? done (cs.flatMap escapeChar ++ '\"' :: rest) =
      some (done.reverse ++ cs.map pieceOf, rest) := by
  induction cs generalizing done with
  | nil => simp [pieces?.eq_def done]
  | cons c cs ih =>
      rw [List.flatMap_cons, List.append_assoc, pieces?_escapeChar, ih, List.reverse_cons,
        List.append_assoc, List.map_cons, List.singleton_append]

theorem joinPieces?_map (cs : List Char) : joinPieces? (cs.map pieceOf) = some cs := by
  induction cs with
  | nil => rfl
  | cons c cs ih =>
      rw [List.map_cons, pieceOf]
      split
      · -- A control character is not half of a surrogate pair.
        rename_i hcontrol
        have hhigh : isHighSurrogate c.toNat = false := by simp [isHighSurrogate]; omega
        have hlow : isLowSurrogate c.toNat = false := by simp [isLowSurrogate]; omega
        rw [joinPieces?.eq_def]
        simp [hhigh, hlow, ih]
      · rw [joinPieces?, ih, Option.map_some]

theorem toList_quote (s : String) :
    (quote s).toList = '\"' :: (s.toList.flatMap escapeChar ++ ['\"']) := by
  rw [quote, String.toList_ofList, List.cons_append]

/-- A quoted text is read behind its first quote. -/
theorem text?_quote (s : String) (rest : List Char) :
    text? (s.toList.flatMap escapeChar ++ '\"' :: rest) = some (some s, rest) := by
  simp [text?, pieces?_flatMap, joinPieces?_map]

/-! ## Values -/

/-- The text of a value is read as the value, given two steps for every character. -/
def ReadsBack (j : Json) : Prop :=
  ∀ (fuel : Nat) (rest : List Char), 2 * j.print.toList.length ≤ fuel → EndsNumber rest →
    value fuel (j.print.toList ++ rest) = (Document.ofJson j, some rest)

theorem endsNumber_cons {c : Char} (hc : c ∈ [',', ']', '\x7d']) (rest : List Char) :
    EndsNumber (c :: rest) := by
  intro d hd
  obtain rfl : c = d := Option.some.inj hd
  simp only [List.mem_cons, List.not_mem_nil, or_false] at hc
  rcases hc with rfl | rfl | rfl <;> decide

theorem skipSpace_cons {c : Char} (hc : isSpace c = false) (rest : List Char) :
    skipSpace (c :: rest) = c :: rest := by
  simp [skipSpace, hc]

/-- A number begins with its sign or with a digit. -/
theorem exists_toString_eq_cons (n : Int) :
    ∃ c rest, (toString n).toList = c :: rest ∧ (c = '-' ∨ isDigit c = true) := by
  rw [toList_toString]
  by_cases hnegative : n < 0
  · exact ⟨'-', Nat.toDigits 10 n.natAbs, by simp [hnegative], .inl rfl⟩
  · obtain ⟨c, rest, hdigits⟩ := List.exists_cons_of_ne_nil (toDigits_ne_nil n.natAbs)
    exact ⟨c, rest, by simp [hnegative, hdigits],
      .inr (isDigit_of_mem_toDigits (hdigits ▸ List.mem_cons_self))⟩

/-- What begins like a number is read as one. -/
theorem value_of_number {fuel : Nat} {c : Char} {cs rest : List Char} {n : Numeral}
    (hc : c = '-' ∨ isDigit c = true) (h : numeral? (c :: cs) = some (n, rest)) :
    value (fuel + 1) (c :: cs) = (n.value, some rest) := by
  have hother : ∀ d ∈ [' ', '\n', '\t', '\r', 'n', 't', 'f', '\"', '[', '\x7b'], c ≠ d := by
    rcases hc with rfl | hc
    · simp
    · rintro d hd rfl
      have hnone : ∀ d ∈ [' ', '\n', '\t', '\r', 'n', 't', 'f', '\"', '[', '\x7b'],
          isDigit d = false := by simp [isDigit]
      simp [hnone c hd] at hc
  simp only [List.forall_mem_cons] at hother
  rw [value, skipSpace_cons (by simp [isSpace, hother])]
  split
  case h_7 => rw [h]
  all_goals
    rename_i heq
    exact absurd (List.cons.inj heq).1 (by simp [hother])

/-- A text of a value begins with a character of its own. -/
theorem exists_print_eq_cons {j : Json} (h : j.IsExact) :
    ∃ c rest, j.print.toList = c :: rest ∧ isSpace c = false ∧ c ≠ ']' := by
  cases h with
  | null => exact ⟨'n', _, rfl, by decide, by decide⟩
  | bool value => cases value <;> exact ⟨_, _, rfl, by decide, by decide⟩
  | @int n _ =>
      obtain ⟨c, rest, htext, hc⟩ := exists_toString_eq_cons n
      refine ⟨c, rest, by rw [print, htext], ?_⟩
      rcases hc with rfl | hc
      · decide
      · constructor
        · by_contra hspace
          simp only [isSpace, Bool.not_eq_false, Bool.or_eq_true, decide_eq_true_eq] at hspace
          rcases hspace with ((rfl | rfl) | rfl) | rfl <;> exact absurd hc (by decide)
        · rintro rfl
          exact absurd hc (by decide)
  | str text => exact ⟨'\"', _, by rw [print, toList_quote], by decide, by decide⟩
  | arr _ => exact ⟨'[', _, by rw [print]; simp; rfl, by decide, by decide⟩
  | obj _ => exact ⟨'\x7b', _, by rw [print]; simp; rfl, by decide, by decide⟩

/-- A value has at least one character, so there is a step for it. -/
theorem readsBack_of_succ {j : Json} (h : j.IsExact)
    (hvalue : ∀ (fuel : Nat) (rest : List Char), 2 * j.print.toList.length ≤ fuel + 1 →
      EndsNumber rest →
        value (fuel + 1) (j.print.toList ++ rest) = (Document.ofJson j, some rest)) :
    ReadsBack j := by
  intro fuel rest hfuel hrest
  obtain ⟨c, more, htext, -⟩ := exists_print_eq_cons h
  cases fuel with
  | zero => simp [htext] at hfuel
  | succ fuel => exact hvalue fuel rest hfuel hrest

theorem toList_printItems_cons (item next : Json) (more : List Json) :
    (printItems (item :: next :: more)).toList =
      item.print.toList ++ ',' :: (printItems (next :: more)).toList := by
  simp [printItems]

theorem toList_printEntries_singleton (entry : String × Json) :
    (printEntries [entry]).toList = (quote entry.1).toList ++ ':' :: entry.2.print.toList := by
  simp [printEntries]

theorem toList_printEntries_cons (entry next : String × Json) (more : List (String × Json)) :
    (printEntries (entry :: next :: more)).toList =
      (quote entry.1).toList ++ ':' :: entry.2.print.toList ++
        ',' :: (printEntries (next :: more)).toList := by
  simp [printEntries]

/-- A quoted key is read with what follows it. -/
theorem key?_quote (key : String) (rest : List Char) :
    key? (skipSpace ((quote key).toList ++ rest)) = some (some key, rest) := by
  rw [toList_quote, List.cons_append, List.append_assoc, skipSpace_cons (by decide), key?]
  exact text?_quote key rest

/-- Items are read up to the bracket behind them: an item takes one step, and leaves two for every
character of the others. -/
theorem items_printItems {its : List Json} (hne : its ≠ []) (h : ∀ item ∈ its, ReadsBack item)
    {fuel : Nat} {rest : List Char} (hfuel : 2 * (printItems its).toList.length + 1 ≤ fuel) :
    items fuel ((printItems its).toList ++ ']' :: rest) = (Document.ofItems its, some rest) := by
  induction its generalizing fuel with
  | nil => exact absurd rfl hne
  | cons item more ih =>
      obtain ⟨fuel, rfl⟩ : ∃ f, fuel = f + 1 := ⟨fuel - 1, by omega⟩
      obtain ⟨hitem, hmore⟩ := List.forall_mem_cons.mp h
      cases more with
      | nil =>
          rw [printItems] at hfuel ⊢
          rw [items, hitem fuel _ (by omega) (endsNumber_cons (by decide) _)]
          rfl
      | cons next more =>
          rw [toList_printItems_cons] at hfuel ⊢
          rw [List.length_append, List.length_cons] at hfuel
          rw [List.append_assoc, List.cons_append, items,
            hitem fuel _ (by omega) (endsNumber_cons (by decide) _)]
          have hrest : 2 * (printItems (next :: more)).toList.length + 1 ≤ fuel := by omega
          simp only [skipSpace_cons (show isSpace ',' = false by decide),
            ih (List.cons_ne_nil _ _) hmore hrest]
          rfl

/-- Entries are read up to the brace behind them. -/
theorem entries_printEntries {es : List (String × Json)} (hne : es ≠ [])
    (h : ∀ entry ∈ es, ReadsBack entry.2) {fuel : Nat} {rest : List Char}
    (hfuel : 2 * (printEntries es).toList.length + 1 ≤ fuel) :
    entries fuel ((printEntries es).toList ++ '\x7d' :: rest) =
      (Document.ofEntries es, some rest) := by
  induction es generalizing fuel with
  | nil => exact absurd rfl hne
  | cons entry more ih =>
      obtain ⟨fuel, rfl⟩ : ∃ f, fuel = f + 1 := ⟨fuel - 1, by omega⟩
      obtain ⟨hentry, hmore⟩ := List.forall_mem_cons.mp h
      cases more with
      | nil =>
          rw [toList_printEntries_singleton] at hfuel ⊢
          rw [List.length_append, List.length_cons] at hfuel
          have hvalue := hentry fuel ('\x7d' :: rest) (by omega) (endsNumber_cons (by decide) _)
          rw [List.append_assoc, List.cons_append, entries, key?_quote]
          simp only [skipSpace_cons (show isSpace ':' = false by decide), hvalue]
          rfl
      | cons next more =>
          rw [toList_printEntries_cons] at hfuel ⊢
          simp only [List.length_append, List.length_cons] at hfuel
          have hvalue := hentry fuel (',' :: ((printEntries (next :: more)).toList ++ '\x7d' :: rest))
            (by omega) (endsNumber_cons (by decide) _)
          have hrest : 2 * (printEntries (next :: more)).toList.length + 1 ≤ fuel := by omega
          simp only [List.append_assoc, List.cons_append]
          rw [entries, key?_quote]
          simp only [skipSpace_cons (show isSpace ':' = false by decide), hvalue,
            skipSpace_cons (show isSpace ',' = false by decide),
            ih (List.cons_ne_nil _ _) hmore hrest]
          rfl

theorem toList_print_arr (its : List Json) :
    (print (.arr its)).toList = '[' :: ((printItems its).toList ++ [']']) := by
  simp [print]

theorem toList_print_obj (es : List (String × Json)) :
    (print (.obj es)).toList = '\x7b' :: ((printEntries es).toList ++ ['\x7d']) := by
  simp [print]

/-- The first item of an array is not taken for its end. -/
theorem exists_printItems_eq_cons {its : List Json} (hne : its ≠ []) (h : ∀ item ∈ its, IsExact item) :
    ∃ c rest, (printItems its).toList = c :: rest ∧ isSpace c = false ∧ c ≠ ']' := by
  obtain ⟨item, more, rfl⟩ := List.exists_cons_of_ne_nil hne
  obtain ⟨c, rest, htext, hc⟩ := exists_print_eq_cons (h item (by simp))
  cases more with
  | nil => exact ⟨c, rest, by rw [printItems, htext], hc⟩
  | cons next more => exact ⟨c, _, by rw [toList_printItems_cons, htext, List.cons_append], hc⟩

theorem exists_printEntries_eq_cons {es : List (String × Json)} (hne : es ≠ []) :
    ∃ rest, (printEntries es).toList = '\"' :: rest := by
  obtain ⟨entry, more, rfl⟩ := List.exists_cons_of_ne_nil hne
  cases more with
  | nil => exact ⟨_, by rw [toList_printEntries_singleton, toList_quote, List.cons_append]⟩
  | cons next more =>
      exact ⟨_, by
        rw [toList_printEntries_cons, toList_quote, List.cons_append, List.cons_append]⟩

section Values

variable {fuel : Nat} {rest : List Char}

theorem value_null (fuel : Nat) (rest : List Char) :
    value (fuel + 1) ((print .null).toList ++ rest) = (.null, some rest) := by
  simp [print, value, skipSpace, isSpace]

theorem value_bool (b : Bool) (fuel : Nat) (rest : List Char) :
    value (fuel + 1) ((print (.bool b)).toList ++ rest) = (.bool b, some rest) := by
  cases b <;> simp [print, value, skipSpace, isSpace]

theorem value_str (s : String) (fuel : Nat) (rest : List Char) :
    value (fuel + 1) ((print (.str s)).toList ++ rest) = (.str s, some rest) := by
  have htext := text?_quote s rest
  simp [print, toList_quote, value, skipSpace, isSpace, htext]

theorem value_int {n : Int} (h : isWord n = true) (fuel : Nat) (hrest : EndsNumber rest) :
    value (fuel + 1) ((print (.int n)).toList ++ rest) = (.int n, some rest) := by
  obtain ⟨c, digits, htext, hc⟩ := exists_toString_eq_cons n
  have hnumeral := numeral?_toString n hrest
  rw [htext, List.cons_append] at hnumeral
  rw [print, htext, List.cons_append, value_of_number hc hnumeral, value_numeralOf h]

/-- An array is read if its items are. -/
theorem value_arr {its : List Json} (hexact : ∀ item ∈ its, IsExact item)
    (h : ∀ item ∈ its, ReadsBack item) (hfuel : 2 * (print (.arr its)).toList.length ≤ fuel + 1) :
    value (fuel + 1) ((print (.arr its)).toList ++ rest) =
      (.arr (Document.ofItems its), some rest) := by
  rw [toList_print_arr] at hfuel ⊢
  rw [List.cons_append, List.append_assoc, value, skipSpace_cons (by decide)]
  by_cases hne : its = []
  · subst hne
    rfl
  · obtain ⟨c, more, htext, hspace, hend⟩ := exists_printItems_eq_cons hne hexact
    have hstart : skipSpace ((printItems its).toList ++ ([']'] ++ rest)) =
        c :: (more ++ ([']'] ++ rest)) := by
      rw [htext, List.cons_append, skipSpace_cons hspace]
    simp only [List.length_cons, List.length_append, List.length_nil] at hfuel
    simp only [hstart]
    split
    · rename_i heq
      exact absurd (List.cons.inj heq).1 hend
    · rw [List.singleton_append, items_printItems hne h (by omega)]

/-- An object is read if its values are. -/
theorem value_obj {es : List (String × Json)} (h : ∀ entry ∈ es, ReadsBack entry.2)
    (hfuel : 2 * (print (.obj es)).toList.length ≤ fuel + 1) :
    value (fuel + 1) ((print (.obj es)).toList ++ rest) =
      (.obj (Document.ofEntries es), some rest) := by
  rw [toList_print_obj] at hfuel ⊢
  rw [List.cons_append, List.append_assoc, value, skipSpace_cons (by decide)]
  by_cases hne : es = []
  · subst hne
    rfl
  · obtain ⟨more, htext⟩ := exists_printEntries_eq_cons hne
    have hstart : skipSpace ((printEntries es).toList ++ (['\x7d'] ++ rest)) =
        '\"' :: (more ++ (['\x7d'] ++ rest)) := by
      rw [htext, List.cons_append, skipSpace_cons (by decide)]
    simp only [List.length_cons, List.length_append, List.length_nil] at hfuel
    simp only [hstart]
    rw [List.singleton_append, entries_printEntries hne h (by omega)]

end Values

/-- The text of a value is read as the value, whatever stands behind it that is no part of a number. -/
theorem readsBack_of_isExact {j : Json} (h : j.IsExact) : ReadsBack j := by
  induction h with
  | null => exact readsBack_of_succ .null fun fuel rest _ _ => value_null fuel rest
  | bool b => exact readsBack_of_succ (.bool b) fun fuel rest _ _ => value_bool b fuel rest
  | int h => exact readsBack_of_succ (.int h) fun fuel rest _ hrest => value_int h fuel hrest
  | str text => exact readsBack_of_succ (.str text) fun fuel rest _ _ => value_str text fuel rest
  | arr hexact ih =>
      exact readsBack_of_succ (.arr hexact) fun fuel rest hfuel _ => value_arr hexact ih hfuel
  | obj hexact ih =>
      exact readsBack_of_succ (.obj hexact) fun fuel rest hfuel _ => value_obj ih hfuel

end Reader

end Json

/-- The text of a value is read as the value, and nothing follows it. -/
theorem Document.ofText_print {j : Json} (h : j.IsExact) :
    Document.ofText j.print = (Document.ofJson j, true) := by
  have hend : Json.Reader.EndsNumber [] := by simp [Json.Reader.EndsNumber]
  have hread := Json.Reader.readsBack_of_isExact h (2 * j.print.toList.length + 2) [] (by omega) hend
  rw [List.append_nil] at hread
  rw [Document.ofText, Document.ofChars, hread]
  rfl

end FederatedMetrics

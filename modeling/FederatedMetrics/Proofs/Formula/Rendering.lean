import FederatedMetrics.Proofs.Formula.Scanning

/-!
# Written formulas

A tree is written as a sequence of words. An operand of an operator stands in parentheses if its own
operator binds less tightly, or on the right also if it binds as tightly; everything else may stand in
parentheses. Names are written in any mix of cases, and blanks between the words mean nothing. Every such
text is read as the tree it was written for, with its names in lower case.
-/

namespace FederatedMetrics

namespace Expr

/-- The tree with all names in lower case. -/
def lowercase : Expr → Expr
  | .var name => .var (String.ofList (name.toList.map Char.toLower))
  | .literal x => .literal x
  | .binary op left right => .binary op left.lowercase right.lowercase

end Expr

namespace Formula

/-- A letter or an underscore, followed by letters, digits and underscores. -/
def IsIdentifier (text : List Char) : Prop :=
  ∃ c rest, text = c :: rest ∧ isNameStart c = true ∧ ∀ d ∈ rest, isNameChar d = true

/-- Digits, at least one of them, with at most one point before, between or behind them. -/
def IsDecimal (text : List Char) : Prop :=
  ∃ whole fraction, (text = whole ++ fraction ∨ text = whole ++ '.' :: fraction) ∧
    whole ++ fraction ≠ [] ∧ ∀ c ∈ whole ++ fraction, Decimal.isDigit c = true

/-- A tree of names and of the values of decimals. -/
inductive IsWritable : Expr → Prop
  | var {name : String} (hname : IsIdentifier name.toList) : IsWritable (.var name)
  | literal {text : List Char} {x : Float} (htext : IsDecimal text)
      (hx : Decimal.ofChars? text = some x) : IsWritable (.literal x)
  | binary {op : ArithmeticOp} {left right : Expr} (hleft : IsWritable left)
      (hright : IsWritable right) : IsWritable (.binary op left right)

/-- How tightly an operator binds. -/
def precedence (op : ArithmeticOp) : Nat := if op.isProduct then 2 else 1

/-- The place of an operand. -/
inductive Side where
  | left
  | right

/-- Which operands of an operator have to stand in parentheses: those with an operator that binds less
tightly, and on the right also those with one that binds as tightly. -/
def NeedsParentheses (op : ArithmeticOp) (side : Side) : Expr → Prop
  | .binary inner _ _ =>
      precedence inner < precedence op ∨ side = .right ∧ precedence inner = precedence op
  | _ => False

/-- The ways to write a tree as a sequence of words, in parentheses as a whole or not. -/
inductive Spells : (enclosed : Bool) → Expr → List (List Char) → Prop
  | name {name : String} {text : List Char} (hname : IsIdentifier name.toList)
      (htext : text.map Char.toLower = name.toList.map Char.toLower) :
      Spells false (.var name) [text]
  | literal {text : List Char} {x : Float} (htext : IsDecimal text)
      (hx : Decimal.ofChars? text = some x) : Spells false (.literal x) [text]
  | binary {op : ArithmeticOp} {c : Char} {left right : Expr} {ls rs : List (List Char)}
      {leftEnclosed rightEnclosed : Bool} (hc : Mark c (.operator op))
      (hleft : Spells leftEnclosed left ls) (hright : Spells rightEnclosed right rs)
      (hl : NeedsParentheses op .left left → leftEnclosed = true)
      (hr : NeedsParentheses op .right right → rightEnclosed = true) :
      Spells false (.binary op left right) (ls ++ [c] :: rs)
  | parentheses {enclosed : Bool} {e : Expr} {ws : List (List Char)} (h : Spells enclosed e ws) :
      Spells true e (['('] :: (ws ++ [[')']]))

/-- A text with the given words and any run of blanks before, between and behind them. -/
inductive Spaced : List (List Char) → List Char → Prop
  | nil {blanks : List Char} (hblanks : ∀ c ∈ blanks, c = ' ' ∨ c = '\t') : Spaced [] blanks
  | cons {blanks word rest : List Char} {ws : List (List Char)}
      (hblanks : ∀ c ∈ blanks, c = ' ' ∨ c = '\t') (h : Spaced ws rest) :
      Spaced (word :: ws) (blanks ++ word ++ rest)

/-- A word right behind another one. -/
theorem Spaced.tight {word rest : List Char} {ws : List (List Char)} (h : Spaced ws rest) :
    Spaced (word :: ws) (word ++ rest) := @Spaced.cons [] word rest ws (List.forall_mem_nil _) h

/-- A text that is written for a tree. -/
def Renders (e : Expr) (source : String) : Prop :=
  ∃ enclosed ws, Spells enclosed e ws ∧ Spaced ws source.toList

/-! ## Words -/

theorem isAlpha_iff (c : Char) :
    c.isAlpha = true ↔ 65 ≤ c.val ∧ c.val ≤ 90 ∨ 97 ≤ c.val ∧ c.val ≤ 122 := by
  have hupper : c.isUpper = true ↔ 65 ≤ c.val ∧ c.val ≤ 90 := decide_eq_true_iff
  have hlower : c.isLower = true ↔ 97 ≤ c.val ∧ c.val ≤ 122 :=
    Bool.and_eq_true_iff.trans (and_congr decide_eq_true_iff decide_eq_true_iff)
  exact Bool.or_eq_true_iff.trans (or_congr hupper hlower)

/-- A character is a letter in both cases, or it has only one. -/
theorem toLower_eq_or_isAlpha (c : Char) :
    c.toLower = c ∨ c.isAlpha = true ∧ c.toLower.isAlpha = true := by
  by_cases hupper : 65 ≤ c.val ∧ c.val ≤ 90
  · right
    have hval : c.toLower.val = c.val + 32 := congrArg Char.val (dif_pos hupper)
    have hlower : 97 ≤ c.toLower.val ∧ c.toLower.val ≤ 122 := by
      rw [hval]
      grind
    exact ⟨(isAlpha_iff c).mpr (.inl hupper), (isAlpha_iff c.toLower).mpr (.inr hlower)⟩
  · exact .inl (dif_neg hupper)

theorem isNameStart_toLower (c : Char) : isNameStart c.toLower = isNameStart c := by
  rcases toLower_eq_or_isAlpha c with h | ⟨hc, hlower⟩
  · rw [h]
  · rw [isNameStart, isNameStart, hc, hlower, Bool.true_or, Bool.true_or]

theorem isNameChar_toLower (c : Char) : isNameChar c.toLower = isNameChar c := by
  rcases toLower_eq_or_isAlpha c with h | ⟨hc, hlower⟩
  · rw [h]
  · simp [isNameChar, Char.isAlphanum, hc, hlower]

theorem isIdentifier_map_toLower (text : List Char) :
    IsIdentifier (text.map Char.toLower) ↔ IsIdentifier text := by
  cases text with
  | nil => simp [IsIdentifier]
  | cons c rest => simp [IsIdentifier, isNameStart_toLower, isNameChar_toLower]

/-- Letters in other cases make a name of a name. -/
theorem isIdentifier_of_map_toLower_eq {text other : List Char}
    (h : text.map Char.toLower = other.map Char.toLower) (hother : IsIdentifier other) :
    IsIdentifier text :=
  (isIdentifier_map_toLower text).mp (h ▸ (isIdentifier_map_toLower other).mpr hother)

theorem isNumberChar_of_isDecimal {text : List Char} (h : IsDecimal text) :
    ∀ c ∈ text, isNumberChar c = true := by
  obtain ⟨whole, fraction, htext, -, hdigits⟩ := h
  intro c hc
  have hcases : c ∈ whole ++ fraction ∨ c = '.' := by
    rcases htext with rfl | rfl
    · exact .inl hc
    · simp only [List.mem_append, List.mem_cons] at hc ⊢
      tauto
  rcases hcases with hc | rfl
  · simp [isNumberChar, hdigits c hc]
  · rfl

theorem ne_nil_of_isDecimal {text : List Char} (h : IsDecimal text) : text ≠ [] := by
  obtain ⟨whole, fraction, rfl | rfl, hne, -⟩ := h
  · exact hne
  · simp

/-- A text that begins with a digit or a point is read as digits. -/
theorem ofChars?_eq_magnitude? {c : Char} (hc : isNumberChar c = true) (rest : List Char) :
    Decimal.ofChars? (c :: rest) = Decimal.magnitude? (c :: rest) := by
  have hne : ∀ d, isNumberChar d = false → c ≠ d := by
    rintro d hd rfl
    exact absurd hc (by simp [hd])
  have hlower : c.toLower = c := by
    rcases toLower_eq_or_isAlpha c with h | ⟨halpha, -⟩
    · exact h
    · have hstart : isNameStart c = true := by simp [isNameStart, halpha]
      simp [isNumberChar_eq_false_of_isNameStart hstart] at hc
  have hminus := hne '-' rfl
  have hplus := hne '+' rfl
  have hi := hne 'i' rfl
  have hn := hne 'n' rfl
  simp [Decimal.ofChars?, Decimal.unsigned?, hlower, hminus, hplus, hi, hn]

/-- Every decimal is a number. -/
theorem exists_ofChars?_of_isDecimal {text : List Char} (h : IsDecimal text) :
    ∃ x, Decimal.ofChars? text = some x := by
  obtain ⟨c, rest, rfl⟩ := List.exists_cons_of_ne_nil (ne_nil_of_isDecimal h)
  rw [ofChars?_eq_magnitude? (isNumberChar_of_isDecimal h c List.mem_cons_self)]
  obtain ⟨whole, fraction, htext, hne, hdigits⟩ := h
  generalize c :: rest = text at htext ⊢
  have hpoint : Decimal.isDigit '.' = false := rfl
  obtain ⟨hbefore, hbehind⟩ := List.forall_mem_append.mp hdigits
  rcases htext with htext | htext
  · have hwhole : text.takeWhile Decimal.isDigit = text :=
      List.takeWhile_eq_self_iff.mpr (htext ▸ hdigits)
    have hrest : text.dropWhile Decimal.isDigit = [] :=
      List.dropWhile_eq_nil_iff.mpr (htext ▸ hdigits)
    have hsome : text.isEmpty = false := by simp [htext, hne]
    simp only [Decimal.magnitude?, hwhole, hrest, hsome]
    exact ⟨_, rfl⟩
  · have hwhole : text.takeWhile Decimal.isDigit = whole := by
      rw [htext, List.takeWhile_append_of_pos hbefore]
      simp [hpoint]
    have hrest : text.dropWhile Decimal.isDigit = '.' :: fraction := by
      rw [htext, List.dropWhile_append_of_pos hbefore]
      simp [hpoint]
    have hfraction : fraction.takeWhile Decimal.isDigit = fraction :=
      List.takeWhile_eq_self_iff.mpr hbehind
    have hend : fraction.dropWhile Decimal.isDigit = [] := List.dropWhile_eq_nil_iff.mpr hbehind
    have hsome : (whole.isEmpty && fraction.isEmpty) = false := by simpa using hne
    simp only [Decimal.magnitude?, hwhole, hrest, hfraction, hend, hsome]
    exact ⟨_, rfl⟩

/-! ## The tokens of a written tree -/

/-- A word that goes on is ended by what follows: nothing more, or a mark. -/
def EndsWords : List (List Char) → Prop
  | [] => True
  | word :: _ => ∃ c token, word = [c] ∧ Mark c token

/-- A text that follows a spaced word does not belong to it. -/
theorem endsRun_of_spaced {takes : Char → Bool} {ws : List (List Char)} {cs : List Char}
    (hws : EndsWords ws) (h : Spaced ws cs)
    (htakes : ∀ c, c = ' ' ∨ c = '\t' ∨ (∃ token, Mark c token) → takes c = false) :
    EndsRun takes cs := by
  intro c hc
  apply htakes
  cases h with
  | nil hblanks => 
    have := hblanks c (List.mem_of_mem_head? hc)
    tauto
  | @cons blanks word rest ws hblanks hrest =>
      cases blanks with
      | nil =>
        obtain ⟨d, token, rfl, hmark⟩ := hws
        obtain rfl : d = c := by simpa using hc
        exact .inr (.inr ⟨token, hmark⟩)
      | cons blank blanks =>
        obtain rfl : blank = c := by simpa using hc
        have := hblanks blank List.mem_cons_self
        tauto

theorem lexes_blanks {blanks rest : List Char} {ts : List Token}
    (hblanks : ∀ c ∈ blanks, c = ' ' ∨ c = '\t') (h : Lexes rest ts) :
    Lexes (blanks ++ rest) ts := by
  induction blanks with
  | nil => exact h
  | cons c blanks ih =>
      obtain ⟨hc, hrest⟩ := List.forall_mem_cons.mp hblanks
      exact .blank hc (ih hrest)

/-- Words are the spellings of tokens, however they are spaced. -/
def Tokenizes (ws : List (List Char)) (ts : List Token) : Prop := ∀ cs, Spaced ws cs → Lexes cs ts

theorem tokenizes_nil : Tokenizes [] [] := by
  rintro cs ⟨hblanks⟩
  simpa using lexes_blanks hblanks .nil

theorem Tokenizes.mark {c : Char} {token : Token} {ws : List (List Char)} {ts : List Token}
    (hc : Mark c token) (h : Tokenizes ws ts) : Tokenizes ([c] :: ws) (token :: ts) := by
  rintro _ (_ | ⟨hblanks, hrest⟩)
  rw [List.append_assoc]
  exact lexes_blanks hblanks (.mark hc (h _ hrest))

theorem Tokenizes.name {text : List Char} {ws : List (List Char)} {ts : List Token}
    (htext : IsIdentifier text) (hws : EndsWords ws) (h : Tokenizes ws ts) :
    Tokenizes (text :: ws) (.name (String.ofList (text.map Char.toLower)) :: ts) := by
  rintro _ (_ | ⟨hblanks, hrest⟩)
  obtain ⟨c, run, rfl, hc, hrun⟩ := htext
  have hend : EndsRun isNameChar _ := endsRun_of_spaced hws hrest (by
    rintro d (rfl | rfl | ⟨token, hmark⟩)
    · rfl
    · rfl
    · cases hmark <;> rfl)
  rw [List.append_assoc, List.cons_append]
  exact lexes_blanks hblanks (.name hc hrun hend (h _ hrest))

theorem Tokenizes.number {text : List Char} {x : Float} {ws : List (List Char)} {ts : List Token}
    (htext : IsDecimal text) (hx : Decimal.ofChars? text = some x) (hws : EndsWords ws)
    (h : Tokenizes ws ts) : Tokenizes (text :: ws) (.number x :: ts) := by
  rintro _ (_ | ⟨hblanks, hrest⟩)
  obtain ⟨c, run, rfl⟩ := List.exists_cons_of_ne_nil (ne_nil_of_isDecimal htext)
  obtain ⟨hc, hrun⟩ := List.forall_mem_cons.mp (isNumberChar_of_isDecimal htext)
  have hend : EndsRun isNumberChar _ := endsRun_of_spaced hws hrest (by
    rintro d (rfl | rfl | ⟨token, hmark⟩)
    · rfl
    · rfl
    · cases hmark <;> rfl)
  rw [List.append_assoc, List.cons_append]
  exact lexes_blanks hblanks (.number hc hrun hend hx (h _ hrest))

/-! ## The phrase of a written tree -/

/-- The phrase that a tree is written as: in parentheses a factor, otherwise what its operator makes
of it. -/
def phraseOf (enclosed : Bool) : Expr → Phrase
  | .binary op _ _ =>
      if enclosed then .factor else if op.isProduct then .term else .expression
  | _ => .factor

@[simp] theorem phraseOf_true (e : Expr) : phraseOf true e = .factor := by cases e <;> rfl

/-- Only an operator outside of parentheses makes more than a factor. -/
theorem phraseOf_eq_factor_or (enclosed : Bool) (e : Expr) :
    phraseOf enclosed e = .factor ∨ ∃ op left right, enclosed = false ∧ e = .binary op left right := by
  cases e with
  | var name => exact .inl rfl
  | literal x => exact .inl rfl
  | binary op left right =>
      cases enclosed with
      | true => exact .inl rfl
      | false => exact .inr ⟨op, left, right, rfl, rfl⟩

theorem expression_of_phraseOf {enclosed : Bool} {e : Expr} {ts : List Token} {tree : Expr}
    (h : Derives (phraseOf enclosed e) ts tree) : Derives .expression ts tree := by
  rcases phraseOf_eq_factor_or enclosed e with hfactor | ⟨op, left, right, rfl, rfl⟩
  · exact .ofTerm (.ofFactor (hfactor ▸ h))
  · cases hop : op.isProduct with
    | true => exact .ofTerm (by simpa [phraseOf, hop] using h)
    | false => simpa [phraseOf, hop] using h

/-- What needs no parentheses on the right of a sum or on either side of a product is a term. -/
theorem term_of_phraseOf {op : ArithmeticOp} {side : Side} {enclosed : Bool} {e : Expr}
    {ts : List Token} {tree : Expr} (hplace : op.isProduct = true ∨ side = .right)
    (hneeds : NeedsParentheses op side e → enclosed = true)
    (h : Derives (phraseOf enclosed e) ts tree) : Derives .term ts tree := by
  rcases phraseOf_eq_factor_or enclosed e with hfactor | ⟨inner, left, right, rfl, rfl⟩
  · exact .ofFactor (hfactor ▸ h)
  · cases hinner : inner.isProduct with
    | true => simpa [phraseOf, hinner] using h
    | false =>
        have hbare : ¬ NeedsParentheses op side (.binary inner left right) := fun hn =>
          Bool.false_ne_true (hneeds hn)
        rcases hplace with hop | rfl
        · simp [NeedsParentheses, precedence, hop, hinner] at hbare
        · cases hop : op.isProduct <;> simp [NeedsParentheses, precedence, hop, hinner] at hbare

/-- What needs no parentheses on the right of a product is a factor. -/
theorem factor_of_phraseOf {op : ArithmeticOp} {enclosed : Bool} {e : Expr} {ts : List Token}
    {tree : Expr} (hop : op.isProduct = true)
    (hneeds : NeedsParentheses op .right e → enclosed = true)
    (h : Derives (phraseOf enclosed e) ts tree) : Derives .factor ts tree := by
  rcases phraseOf_eq_factor_or enclosed e with hfactor | ⟨inner, left, right, rfl, rfl⟩
  · exact hfactor ▸ h
  · have hbare : ¬ NeedsParentheses op .right (.binary inner left right) := fun hn =>
      Bool.false_ne_true (hneeds hn)
    cases hinner : inner.isProduct <;> simp [NeedsParentheses, precedence, hop, hinner] at hbare

/-- The tokens of two operands with an operator between them are a phrase. -/
theorem derives_binary {op : ArithmeticOp} {left right leftTree rightTree : Expr}
    {ts us : List Token} {leftEnclosed rightEnclosed : Bool}
    (hleft : Derives (phraseOf leftEnclosed left) ts leftTree)
    (hright : Derives (phraseOf rightEnclosed right) us rightTree)
    (hl : NeedsParentheses op .left left → leftEnclosed = true)
    (hr : NeedsParentheses op .right right → rightEnclosed = true) :
    Derives (phraseOf false (.binary op left right)) (ts ++ .operator op :: us)
      (.binary op leftTree rightTree) := by
  cases hop : op.isProduct with
  | true =>
      have hterm := term_of_phraseOf (.inl hop) hl hleft
      have hfactor := factor_of_phraseOf hop hr hright
      simpa [phraseOf, hop] using Derives.product ((isProduct_eq_true_iff op).mp hop) hterm hfactor
  | false =>
      have hexpression := expression_of_phraseOf hleft
      have hterm := term_of_phraseOf (.inr rfl) hr hright
      simpa [phraseOf, hop] using Derives.sum ((isProduct_eq_false_iff op).mp hop) hexpression hterm

/-- The words of a tree are the spellings of tokens from which the tree is derived. Behind them stands
nothing or a mark, since operands never stand side by side. -/
theorem exists_tokens_of_spells {enclosed : Bool} {e : Expr} {ws : List (List Char)}
    (h : Spells enclosed e ws) :
    ∃ ts, Derives (phraseOf enclosed e) ts e.lowercase ∧
      ∀ more us, EndsWords more → Tokenizes more us → Tokenizes (ws ++ more) (ts ++ us) := by
  induction h with
  | @name name text hname htext =>
      refine ⟨[.name (String.ofList (text.map Char.toLower))], ?_, fun more us hends hmore => ?_⟩
      · rw [htext]
        exact .name _
      · exact hmore.name (isIdentifier_of_map_toLower_eq htext hname) hends
  | @literal text x htext hx =>
      exact ⟨[.number x], .number x, fun more us hends hmore => hmore.number htext hx hends⟩
  | @binary op c left right ls rs leftEnclosed rightEnclosed hc hleft hright hl hr ihLeft ihRight =>
      obtain ⟨ts, hts, hleftWords⟩ := ihLeft
      obtain ⟨us, hus, hrightWords⟩ := ihRight
      refine ⟨ts ++ .operator op :: us, derives_binary hts hus hl hr, fun more vs hends hmore => ?_⟩
      have hbehind : Tokenizes ([c] :: (rs ++ more)) (.operator op :: (us ++ vs)) :=
        (hrightWords more vs hends hmore).mark hc
      simpa using hleftWords ([c] :: (rs ++ more)) _ ⟨c, _, rfl, hc⟩ hbehind
  | @parentheses enclosed e ws _ ih =>
      obtain ⟨ts, hts, hwords⟩ := ih
      refine ⟨.opening :: (ts ++ [.closing]), ?_, fun more us hends hmore => ?_⟩
      · rw [phraseOf_true]
        exact .parentheses (expression_of_phraseOf hts)
      have hinside := hwords ([')'] :: more) (.closing :: us) ⟨')', _, rfl, .closing⟩
        (hmore.mark .closing)
      simpa using hinside.mark .opening

/-- What is written for a tree is read as that tree. -/
theorem parse_eq_ok_of_renders {e : Expr} {source : String} (h : Renders e source) :
    parse source = .ok ⟨source, e.lowercase⟩ := by
  obtain ⟨enclosed, ws, hspells, hspaced⟩ := h
  obtain ⟨ts, hts, hwords⟩ := exists_tokens_of_spells hspells
  have hlexes : Lexes source.toList ts := by
    simpa using hwords [] [] trivial tokenizes_nil source.toList (by simpa using hspaced)
  exact (parse_eq_ok_iff source ⟨source, e.lowercase⟩).mpr
    ⟨rfl, ts, hlexes, expression_of_phraseOf hts⟩

/-! ## Every tree can be written -/

/-- An operand is put into parentheses if it needs them. -/
theorem exists_operand (op : ArithmeticOp) (side : Side) {e : Expr} {ws : List (List Char)}
    (h : Spells false e ws) :
    ∃ enclosed vs, Spells enclosed e vs ∧ (NeedsParentheses op side e → enclosed = true) := by
  by_cases hneeds : NeedsParentheses op side e
  · exact ⟨true, _, .parentheses h, fun _ => rfl⟩
  · exact ⟨false, ws, h, fun hn => absurd hn hneeds⟩

theorem exists_mark (op : ArithmeticOp) : ∃ c, Mark c (.operator op) := by
  cases op with
  | add => exact ⟨'+', .plus⟩
  | subtract => exact ⟨'-', .minus⟩
  | multiply => exact ⟨'*', .times⟩
  | divide => exact ⟨'/', .over⟩

theorem exists_spells {e : Expr} (h : IsWritable e) : ∃ ws, Spells false e ws := by
  induction h with
  | @var name hname => exact ⟨[name.toList], .name hname rfl⟩
  | @literal text x htext hx => exact ⟨[text], .literal htext hx⟩
  | @binary op left right _ _ ihLeft ihRight =>
      obtain ⟨ls, hls⟩ := ihLeft
      obtain ⟨rs, hrs⟩ := ihRight
      obtain ⟨c, hc⟩ := exists_mark op
      obtain ⟨_, _, hleft, hl⟩ := exists_operand op .left hls
      obtain ⟨_, _, hright, hr⟩ := exists_operand op .right hrs
      exact ⟨_, .binary hc hleft hright hl hr⟩

theorem spaced_flatten (ws : List (List Char)) : Spaced ws ws.flatten := by
  induction ws with
  | nil => exact .nil (by simp)
  | cons word ws ih => exact ih.tight

/-- Every tree of names and decimals can be written, and all ways to write it are read as this tree with its
names in lower case. So parentheses that are not needed, cases and blanks do not change a value. -/
theorem reads_what_is_written :
    (∀ text, IsDecimal text → ∃ x, Decimal.ofChars? text = some x) ∧
    (∀ e, IsWritable e → ∃ source, Renders e source) ∧
    ∀ e source, Renders e source → parse source = .ok ⟨source, e.lowercase⟩ ∧
      ∀ other, Renders e other → ∃ f g, parse source = .ok f ∧ parse other = .ok g ∧
        f.expr = g.expr ∧ ∀ lookup, f.eval lookup = g.eval lookup := by
  refine ⟨fun text htext => exists_ofChars?_of_isDecimal htext, fun e he => ?_,
    fun e source hsource => ⟨parse_eq_ok_of_renders hsource, fun other hother => ?_⟩⟩
  · obtain ⟨ws, hws⟩ := exists_spells he
    refine ⟨String.ofList ws.flatten, false, ws, hws, ?_⟩
    rw [String.toList_ofList]
    exact spaced_flatten ws
  · exact ⟨⟨source, e.lowercase⟩, ⟨other, e.lowercase⟩, parse_eq_ok_of_renders hsource,
      parse_eq_ok_of_renders hother, rfl, fun lookup => rfl⟩

/-- Two and a half times a difference. -/
def scaledDifference : Expr :=
  .binary .multiply (.binary .subtract (.var "A1") (.var "b")) (.literal 2.5)

theorem renders_scaledDifference : Renders scaledDifference " (a1 -\t(B))*2.50" := by
  have hnames : IsIdentifier ['A', '1'] ∧ IsIdentifier ['b'] :=
    ⟨⟨'A', ['1'], rfl, rfl, List.forall_mem_singleton.mpr rfl⟩,
      ⟨'b', [], rfl, rfl, List.forall_mem_nil _⟩⟩
  have hdecimal : IsDecimal ['2', '.', '5', '0'] :=
    ⟨['2'], ['5', '0'], .inr rfl, by decide, by simp [Decimal.isDigit]⟩
  have hvalue : Decimal.ofChars? ['2', '.', '5', '0'] = some 2.5 := by decide +kernel
  have hdifference : Spells false (.binary .subtract (.var "A1") (.var "b"))
      ([['a', '1']] ++ ['-'] :: [['('], ['B'], [')']]) :=
    .binary .minus (@Spells.name "A1" ['a', '1'] hnames.1 rfl)
      (.parentheses (@Spells.name "b" ['B'] hnames.2 rfl)) False.elim False.elim
  have hspells : Spells false scaledDifference
      (([['(']] ++ ([['a', '1']] ++ ['-'] :: [['('], ['B'], [')']]) ++ [[')']]) ++
        ['*'] :: [['2', '.', '5', '0']]) :=
    .binary .times (.parentheses hdifference) (.literal hdecimal hvalue) (fun _ => rfl)
      False.elim
  refine ⟨false, _, hspells, ?_⟩
  have hblank : ∀ c, c = ' ' ∨ c = '\t' → ∀ d ∈ [c], d = ' ' ∨ d = '\t' := by simp
  exact .cons (hblank ' ' (.inl rfl)) <| .tight <| .cons (hblank ' ' (.inl rfl)) <|
    .cons (hblank '\t' (.inr rfl)) <| .tight <| .tight <| .tight <| .tight <| .tight <|
      .nil (List.forall_mem_nil _)

theorem reads_what_is_written_scaledDifference :
    Renders scaledDifference " (a1 -\t(B))*2.50" ∧
      parse " (a1 -\t(B))*2.50" = .ok ⟨" (a1 -\t(B))*2.50",
        .binary .multiply (.binary .subtract (.var "a1") (.var "b")) (.literal 2.5)⟩ :=
  ⟨renders_scaledDifference, (reads_what_is_written.2.2 _ _ renders_scaledDifference).1⟩

end Formula

end FederatedMetrics

import FederatedMetrics.Proofs.Formula.Grammar
import Mathlib.Data.List.TakeWhile

/-!
# The lexical structure of formulas

A formula is made of blanks, marks, numbers and names, where a number or a name goes on as far as its
characters do. The scanner splits exactly these texts, and a formula is read if and only if its tokens
are an expression.
-/

namespace FederatedMetrics.Formula

/-- The characters that are tokens. -/
inductive Mark : Char → Token → Prop
  | plus : Mark '+' (.operator .add)
  | minus : Mark '-' (.operator .subtract)
  | times : Mark '*' (.operator .multiply)
  | over : Mark '/' (.operator .divide)
  | opening : Mark '(' .opening
  | closing : Mark ')' .closing

/-- A text does not begin with a character that a run takes. -/
def EndsRun (takes : Char → Bool) (rest : List Char) : Prop := ∀ c ∈ rest.head?, takes c = false

/-- Which texts are made of tokens. A number or a name is as long as it can be: the text behind it does
not begin with a character that could belong to it. -/
inductive Lexes : List Char → List Token → Prop
  | nil : Lexes [] []
  | blank {c : Char} {rest : List Char} {ts : List Token} (hc : c = ' ' ∨ c = '\t')
      (h : Lexes rest ts) : Lexes (c :: rest) ts
  | mark {c : Char} {token : Token} {rest : List Char} {ts : List Token} (hc : Mark c token)
      (h : Lexes rest ts) : Lexes (c :: rest) (token :: ts)
  | number {c : Char} {run rest : List Char} {ts : List Token} {x : Float}
      (hc : isNumberChar c = true) (hrun : ∀ d ∈ run, isNumberChar d = true)
      (hend : EndsRun isNumberChar rest) (hx : Decimal.ofChars? (c :: run) = some x)
      (h : Lexes rest ts) : Lexes (c :: (run ++ rest)) (.number x :: ts)
  | name {c : Char} {run rest : List Char} {ts : List Token} (hc : isNameStart c = true)
      (hrun : ∀ d ∈ run, isNameChar d = true) (hend : EndsRun isNameChar rest)
      (h : Lexes rest ts) :
      Lexes (c :: (run ++ rest)) (.name (String.ofList ((c :: run).map Char.toLower)) :: ts)

/-! ## The first character of a token -/

theorem mark?_eq_some_iff (c : Char) (token : Token) : mark? c = some token ↔ Mark c token := by
  constructor
  · intro h
    unfold mark? at h
    split at h
    · next hc => cases hc; cases h; exact .plus
    split at h
    · next hc => cases hc; cases h; exact .minus
    split at h
    · next hc => cases hc; cases h; exact .times
    split at h
    · next hc => cases hc; cases h; exact .over
    split at h
    · next hc => cases hc; cases h; exact .opening
    split at h
    · next hc => cases hc; cases h; exact .closing
    · cases h
  · intro h
    cases h <;> rfl

/-- A character that begins a run is neither a mark nor a blank. -/
theorem mark?_eq_none_of_begins {c : Char} (hc : isNumberChar c = true ∨ isNameStart c = true) :
    mark? c = none ∧ (c = ' ' || c = '\t') = false := by
  constructor
  · cases hmark : mark? c with
    | none => rfl
    | some token =>
        cases (mark?_eq_some_iff c token).mp hmark <;> revert hc <;> decide
  · rw [Bool.or_eq_false_iff, decide_eq_false_iff_not, decide_eq_false_iff_not]
    constructor <;> rintro rfl <;> revert hc <;> decide

theorem start_mark {c : Char} {token : Token} (hc : Mark c token) :
    start c = .ok ([token], .idle) := by
  rw [start, (mark?_eq_some_iff c token).mpr hc]

theorem start_blank {c : Char} (hc : c = ' ' ∨ c = '\t') : start c = .ok ([], .idle) := by
  rcases hc with rfl | rfl <;> rfl

theorem start_number {c : Char} (hc : isNumberChar c = true) : start c = .ok ([], .number [c]) := by
  obtain ⟨hmark, hblank⟩ := mark?_eq_none_of_begins (.inl hc)
  simp [start, hmark, hblank, hc]

/-- Letters come behind the digits. -/
theorem nine_lt_of_isAlpha {c : Char} (hc : c.isAlpha = true) : '9' < c := by
  rw [Char.lt_def]
  rcases Bool.or_eq_true_iff.mp hc with hupper | hlower
  · have hlow : 'A'.val ≤ c.val := (of_decide_eq_true hupper).1
    have hdigits : '9'.val < 'A'.val := by decide
    exact UInt32.lt_of_lt_of_le hdigits hlow
  · have hlow : 'a'.val ≤ c.val := of_decide_eq_true (Bool.and_eq_true_iff.mp hlower).1
    have hdigits : '9'.val < 'a'.val := by decide
    exact UInt32.lt_of_lt_of_le hdigits hlow

theorem isNumberChar_eq_false_of_isNameStart {c : Char} (hc : isNameStart c = true) :
    isNumberChar c = false := by
  have hbehind : '9' < c := by
    rcases Bool.or_eq_true_iff.mp hc with hletter | hunderscore
    · exact nine_lt_of_isAlpha hletter
    · rw [of_decide_eq_true hunderscore]
      decide
  have hdigit : Decimal.isDigit c = false := by
    simp [Decimal.isDigit, hbehind]
  have hpoint : c ≠ '.' := by
    rintro rfl
    exact absurd hbehind (by decide)
  simp [isNumberChar, hdigit, hpoint]

theorem start_name {c : Char} (hc : isNameStart c = true) : start c = .ok ([], .name [c]) := by
  obtain ⟨hmark, hblank⟩ := mark?_eq_none_of_begins (.inr hc)
  simp [start, hmark, hblank, isNumberChar_eq_false_of_isNameStart hc, hc]

/-- What a character can do when no run takes it. -/
theorem start_cases {c : Char} {here : List Token} {run : Run} (h : start c = .ok (here, run)) :
    (∃ token, Mark c token ∧ here = [token] ∧ run = .idle) ∨
    ((c = ' ' ∨ c = '\t') ∧ here = [] ∧ run = .idle) ∨
    (isNumberChar c = true ∧ here = [] ∧ run = .number [c]) ∨
    (isNameStart c = true ∧ here = [] ∧ run = .name [c]) := by
  unfold start at h
  cases hmark : mark? c with
  | some token =>
      rw [hmark] at h
      cases h
      exact .inl ⟨token, (mark?_eq_some_iff c token).mp hmark, rfl, rfl⟩
  | none =>
      simp only [hmark] at h
      split at h
      · next hblank =>
          cases h
          exact .inr (.inl ⟨by simpa using hblank, rfl, rfl⟩)
      split at h
      · next hc =>
          cases h
          exact .inr (.inr (.inl ⟨hc, rfl, rfl⟩))
      split at h
      · next hc =>
          cases h
          exact .inr (.inr (.inr ⟨hc, rfl, rfl⟩))
      · cases h

/-! ## Runs -/

@[simp] theorem finish_idle : Run.idle.finish = .ok [] := rfl

theorem finish_number_eq_ok_iff {read : List Char} {ended : List Token} :
    (Run.number read).finish = .ok ended ↔
      ∃ x, Decimal.ofChars? read.reverse = some x ∧ [.number x] = ended := by
  cases h : Decimal.ofChars? read.reverse <;> simp [Run.finish, h]

/-- A character that does not belong to a run ends it and is looked at by itself. -/
theorem tokensFrom_cons_eq_ok_iff {run : Run} {c : Char} {rest : List Char} {ts : List Token}
    (hgrow : run.grow? c = none) :
    tokensFrom run (c :: rest) = .ok ts ↔ ∃ ended here next later, run.finish = .ok ended ∧
      start c = .ok (here, next) ∧ tokensFrom next rest = .ok later ∧ ended ++ here ++ later = ts := by
  rw [tokensFrom, hgrow]
  simp [bind_eq_ok_iff, pure, Except.pure]

/-- The text behind a run that has ended is split by itself. -/
theorem tokensFrom_eq_ok_iff_of_ends {run : Run} {rest : List Char} {ts : List Token}
    (hend : ∀ c ∈ rest.head?, run.grow? c = none) :
    tokensFrom run rest = .ok ts ↔ ∃ ended later, run.finish = .ok ended ∧
      tokensFrom .idle rest = .ok later ∧ ended ++ later = ts := by
  cases rest with
  | nil => simp [tokensFrom]
  | cons c rest =>
      rw [tokensFrom_cons_eq_ok_iff (hend c rfl)]
      constructor
      · rintro ⟨ended, here, next, later, hfinish, hstart, hlater, rfl⟩
        refine ⟨ended, here ++ later, hfinish, ?_, by simp⟩
        exact (tokensFrom_cons_eq_ok_iff rfl).mpr ⟨[], here, next, later, rfl, hstart, hlater, rfl⟩
      · rintro ⟨ended, _, hfinish, hrest, rfl⟩
        obtain ⟨_, here, next, later, hidle, hstart, hlater, rfl⟩ :=
          (tokensFrom_cons_eq_ok_iff rfl).mp hrest
        cases hidle
        exact ⟨ended, here, next, later, hfinish, hstart, hlater, by simp⟩

/-- A run takes its characters and ends behind them. -/
theorem tokensFrom_run_eq_ok_iff {make : List Char → Run} {takes : Char → Bool}
    (hgrow : ∀ c read, (make read).grow? c = if takes c then some (make (c :: read)) else none)
    {run rest : List Char} (hrun : ∀ c ∈ run, takes c = true) (hend : EndsRun takes rest)
    (read : List Char) {ts : List Token} :
    tokensFrom (make read) (run ++ rest) = .ok ts ↔ ∃ ended later,
      (make (run.reverse ++ read)).finish = .ok ended ∧ tokensFrom .idle rest = .ok later ∧
        ended ++ later = ts := by
  induction run generalizing read with
  | nil => exact tokensFrom_eq_ok_iff_of_ends fun c hc => by simp [hgrow, hend c hc]
  | cons c run ih =>
      have htakes : (make read).grow? c = some (make (c :: read)) := by
        simp [hgrow, hrun c List.mem_cons_self]
      rw [List.cons_append, tokensFrom, htakes]
      simpa using ih (fun d hd => hrun d (List.mem_cons_of_mem c hd)) (c :: read)

/-! ## Whole texts -/

theorem tokensFrom_of_lexes {cs : List Char} {ts : List Token} (h : Lexes cs ts) :
    tokensFrom .idle cs = .ok ts := by
  induction h with
  | nil => rfl
  | @blank c rest ts hc _ ih =>
      exact (tokensFrom_cons_eq_ok_iff rfl).mpr ⟨[], [], .idle, ts, rfl, start_blank hc, ih, rfl⟩
  | @mark c token rest ts hc _ ih =>
      exact (tokensFrom_cons_eq_ok_iff rfl).mpr
        ⟨[], [token], .idle, ts, rfl, start_mark hc, ih, rfl⟩
  | @number c run rest ts x hc hrun hend hx _ ih =>
      have hnumber : tokensFrom (.number [c]) (run ++ rest) = .ok (.number x :: ts) := by
        refine (tokensFrom_run_eq_ok_iff (fun _ _ => rfl) hrun hend [c]).mpr
          ⟨[.number x], ts, ?_, ih, rfl⟩
        simp [Run.finish, hx]
      exact (tokensFrom_cons_eq_ok_iff rfl).mpr
        ⟨[], [], _, _, rfl, start_number hc, hnumber, rfl⟩
  | @name c run rest ts hc hrun hend _ ih =>
      have hname : tokensFrom (.name [c]) (run ++ rest) =
          .ok (.name (String.ofList ((c :: run).map Char.toLower)) :: ts) := by
        refine (tokensFrom_run_eq_ok_iff (fun _ _ => rfl) hrun hend [c]).mpr
          ⟨[.name (String.ofList ((c :: run).map Char.toLower))], ts, ?_, ih, rfl⟩
        simp [Run.finish]
      exact (tokensFrom_cons_eq_ok_iff rfl).mpr ⟨[], [], _, _, rfl, start_name hc, hname, rfl⟩

/-- A text is made of its tokens in one way only. -/
theorem Lexes.unique {cs : List Char} {ts us : List Token} (h : Lexes cs ts) (hother : Lexes cs us) :
    ts = us := Except.ok.inj ((tokensFrom_of_lexes h).symm.trans (tokensFrom_of_lexes hother))

/-- A text begins with the characters that a run takes, and what follows ends the run. -/
theorem exists_run (takes : Char → Bool) (cs : List Char) :
    ∃ run rest, cs = run ++ rest ∧ (∀ c ∈ run, takes c = true) ∧ EndsRun takes rest := by
  refine ⟨cs.takeWhile takes, cs.dropWhile takes, (List.takeWhile_append_dropWhile).symm,
    fun c hc => List.mem_takeWhile_imp hc, fun c hc => ?_⟩
  have hfound : cs.find? (fun c => !takes c) = some c :=
    (cs.find?_not_eq_head?_dropWhile takes).trans hc
  simpa using List.find?_some hfound

/-- The scanner goes over a text by its blanks, marks, numbers and names, so what it finds in a text is
found by induction on the length: a number or a name leaves a shorter text. -/
theorem lexes_of_tokensFrom {cs : List Char} {ts : List Token} (h : tokensFrom .idle cs = .ok ts) :
    Lexes cs ts := by
  match cs with
  | [] =>
      cases h
      exact .nil
  | c :: rest =>
      obtain ⟨_, here, next, later, hidle, hstart, hlater, rfl⟩ :=
        (tokensFrom_cons_eq_ok_iff rfl).mp h
      cases hidle
      rcases start_cases hstart with ⟨token, hc, rfl, rfl⟩ | ⟨hc, rfl, rfl⟩ | ⟨hc, rfl, rfl⟩ |
        ⟨hc, rfl, rfl⟩
      · exact .mark hc (lexes_of_tokensFrom hlater)
      · exact .blank hc (lexes_of_tokensFrom hlater)
      · obtain ⟨run, rest, rfl, hrun, hend⟩ := exists_run isNumberChar rest
        obtain ⟨ended, later, hfinish, hrest, rfl⟩ :=
          (tokensFrom_run_eq_ok_iff (fun _ _ => rfl) hrun hend [c]).mp hlater
        obtain ⟨x, hx, rfl⟩ := finish_number_eq_ok_iff.mp hfinish
        rw [List.reverse_append, List.reverse_reverse] at hx
        exact .number hc hrun hend hx (lexes_of_tokensFrom hrest)
      · obtain ⟨run, rest, rfl, hrun, hend⟩ := exists_run isNameChar rest
        obtain ⟨ended, later, hfinish, hrest, rfl⟩ :=
          (tokensFrom_run_eq_ok_iff (fun _ _ => rfl) hrun hend [c]).mp hlater
        cases hfinish
        rw [List.reverse_append, List.reverse_reverse]
        exact .name hc hrun hend (lexes_of_tokensFrom hrest)
termination_by cs.length

/-- The scanner splits exactly the texts that are made of tokens. -/
theorem tokens_eq_ok_iff (source : String) (ts : List Token) :
    tokens source = .ok ts ↔ Lexes source.toList ts :=
  ⟨lexes_of_tokensFrom, tokensFrom_of_lexes⟩

/-! ## Formulas -/

/-- A text is an expression if it is made of the tokens of one. -/
def Writes (source : String) (e : Expr) : Prop :=
  ∃ ts, Lexes source.toList ts ∧ Derives .expression ts e

theorem parse_eq_ok_iff (source : String) (f : Formula) :
    parse source = .ok f ↔ f.source = source ∧ Writes source f.expr := by
  simp only [Writes, ← tokens_eq_ok_iff, ← ofTokens_eq_ok_iff]
  cases hts : tokens source with
  | error error => simp [parse, hts, bind, Except.bind]
  | ok ts =>
      cases ts with
      | nil =>
          have hnil (e : Expr) : ofTokens [] ≠ .ok e := nofun
          simp [parse, hts, hnil, bind, Except.bind, throw, throwThe, MonadExceptOf.throw]
      | cons token rest =>
          obtain ⟨source', e⟩ := f
          cases hexpr : ofTokens (token :: rest) <;>
            simp [parse, hts, hexpr, bind, Except.bind, throw, throwThe, MonadExceptOf.throw, pure,
              Except.pure, eq_comm]

/-- The reader of tokens accepts exactly the expressions of the grammar, each with the only tree that it
derives, and the reader of texts exactly those that are made of the tokens of an expression. Everything
else is refused as invalid input. -/
theorem accepts_exactly_expressions :
    (∀ ts e, ofTokens ts = .ok e ↔ Derives .expression ts e) ∧
    (∀ ts, (¬ ∃ e, Derives .expression ts e) ↔ ∃ fault, ofTokens ts = .error fault ∧
      ∀ source, (Failure.formula (fault.toError source)).kind = .invalidInput) ∧
    (∀ source f, parse source = .ok f ↔ f.source = source ∧ Writes source f.expr) ∧
    (∀ source, (¬ ∃ e, Writes source e) ↔ ∃ error, parse source = .error error ∧
      (Failure.formula error).kind = .invalidInput) := by
  refine ⟨ofTokens_eq_ok_iff, fun ts => ?_, parse_eq_ok_iff, fun source => ?_⟩
  · simp only [← ofTokens_eq_ok_iff, not_exists_ok_iff]
    exact exists_congr fun fault => (and_iff_left fun source => rfl).symm
  · have hparse : (∃ e, Writes source e) ↔ ∃ f, parse source = .ok f := by
      simp only [parse_eq_ok_iff]
      exact ⟨fun ⟨e, he⟩ => ⟨⟨source, e⟩, rfl, he⟩, fun ⟨f, _, hf⟩ => ⟨f.expr, hf⟩⟩
    rw [hparse, not_exists_ok_iff]
    exact exists_congr fun error => (and_iff_left rfl).symm

end FederatedMetrics.Formula

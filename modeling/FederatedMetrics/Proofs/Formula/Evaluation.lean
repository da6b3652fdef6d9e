import FederatedMetrics.Proofs.Formula.Expr
import FederatedMetrics.Proofs.Formula.Scanning
import FederatedMetrics.Proofs.Ordered
import Mathlib.Data.String.Basic

/-!
# Evaluating formulas

The names of a tree stand in its text in the same order, so evaluation fails at the variable without a
value that comes first in the text. A formula whose variables all have values has one, and so does every
part of it; what an operator yields is finite whatever it is applied to.
-/

namespace FederatedMetrics

/-! ## Parts of a tree -/

/-- What an operator yields for two operands: its plain result if that is finite, otherwise zero, and
always zero for a division by zero. -/
structure ArithmeticOp.Settles (op : ArithmeticOp) (x y z : Float) : Prop where
  isFinite : z.isFinite = true
  eq_zero_of_divide : op = .divide → (y == 0.0) = true → z = 0.0
  eq_apply : (op.apply x y).isFinite = true → z = op.apply x y
  eq_zero : (op.apply x y).isFinite = false → z = 0.0

namespace Expr

/-- A tree is part of another one: the tree itself, or a part of an operand. -/
inductive Within (part : Expr) : Expr → Prop
  | refl : Within part part
  | left {op : ArithmeticOp} {left right : Expr} (h : Within part left) :
      Within part (.binary op left right)
  | right {op : ArithmeticOp} {left right : Expr} (h : Within part right) :
      Within part (.binary op left right)

theorem Within.names_subset {part e : Expr} (h : part.Within e) : part.names ⊆ e.names := by
  induction h with
  | refl => exact List.Subset.refl _
  | left _ ih => exact List.Subset.trans ih (List.subset_append_left _ _)
  | right _ ih => exact List.Subset.trans ih (List.subset_append_right _ _)

variable {lookup : String → Option Float}

/-- If a tree has a value, so do its parts. -/
theorem Within.exists_eval {part e : Expr} (h : part.Within e) {x : Float}
    (he : e.eval lookup = .ok x) : ∃ y, part.eval lookup = .ok y := by
  have hdefined := exists_eval_eq_ok_iff.mp ⟨x, he⟩
  exact exists_eval_eq_ok_iff.mpr fun name hname => hdefined name (h.names_subset hname)

theorem settles_iff {op : ArithmeticOp} {x y z : Float} :
    op.Settles x y z ↔ settle (op.apply x y) = z := by
  constructor
  · intro h
    rw [settle]
    split
    · next hfinite => exact (h.eq_apply hfinite).symm
    · next hfinite => exact (h.eq_zero (Bool.eq_false_iff.mpr hfinite)).symm
  · rintro rfl
    refine ⟨isFinite_settle _, fun hop hy => ?_, fun hfinite => if_pos hfinite,
      fun hfinite => if_neg (Bool.eq_false_iff.mp hfinite)⟩
    subst hop
    rw [ArithmeticOp.apply, if_pos hy]
    rfl

end Expr

namespace Formula

/-! ## Names in a text -/

/-- The name that a token is. -/
def Token.name? : Token → Option String
  | .name text => some text
  | _ => none

theorem Token.name?_eq_some_iff {token : Token} {name : String} :
    token.name? = some name ↔ token = .name name := by
  cases token <;> simp [Token.name?]

/-- The names among the tokens of a phrase are those of its tree, from left to right. -/
theorem filterMap_name?_of_derives {p : Phrase} {ts : List Token} {e : Expr} (h : Derives p ts e) :
    ts.filterMap Token.name? = e.names := by
  induction h with
  | ofTerm _ ih => exact ih
  | ofFactor _ ih => exact ih
  | sum _ _ _ ihLeft ihRight => simp [List.filterMap_cons, Token.name?, ihLeft, ihRight]
  | product _ _ _ ihLeft ihRight => simp [List.filterMap_cons, Token.name?, ihLeft, ihRight]
  | negation _ ih => simp [List.filterMap_cons, Token.name?, ih]
  | name text => rfl
  | number x => rfl
  | parentheses _ ih => simp [List.filterMap_cons, Token.name?, ih]

/-- A name without a value stands in a text, and all names in front of it have values. -/
def LeftmostUndefined (lookup : String → Option Float) (source name : String) : Prop :=
  ∃ before behind, Lexes source.toList (before ++ .name name :: behind) ∧ lookup name = none ∧
    ∀ earlier, .name earlier ∈ before → (lookup earlier).isSome = true

/-- The tokens of a text are unique, so the name is the first one among them that has no value. -/
theorem leftmostUndefined_iff {lookup : String → Option Float} {source name : String}
    {ts : List Token} (hts : Lexes source.toList ts) :
    LeftmostUndefined lookup source name ↔
      (ts.filterMap Token.name?).find? (fun name => (lookup name).isNone) = some name := by
  rw [List.find?_filterMap, Option.bind_eq_some_iff]
  constructor
  · rintro ⟨before, behind, hlexes, hundefined, hbefore⟩
    refine ⟨.name name, List.find?_eq_some_iff_append.mpr ⟨by simp [Token.name?, hundefined],
      before, behind, hts.unique hlexes, fun token htoken => ?_⟩, rfl⟩
    cases token with
    | name earlier => simpa [Token.name?, Option.isSome_iff_ne_none] using hbefore earlier htoken
    | _ => rfl
  · rintro ⟨token, hfirst, hname⟩
    obtain rfl := Token.name?_eq_some_iff.mp hname
    obtain ⟨hundefined, before, behind, rfl, hbefore⟩ := List.find?_eq_some_iff_append.mp hfirst
    refine ⟨before, behind, hts, by simpa [Token.name?] using hundefined, fun earlier hmem => ?_⟩
    simpa [Token.name?, Option.isSome_iff_ne_none] using hbefore _ hmem

/-! ## Formulas -/

theorem mem_variableNames {f : Formula} {name : String} :
    name ∈ f.variableNames ↔ name ∈ f.expr.names := Ordered.mem_ofList name f.expr.names

/-- Evaluation fails at the variable without a value that comes first in the text. -/
theorem eval_eq_error_iff {source : String} {f : Formula} (h : parse source = .ok f)
    {lookup : String → Option Float} {error : FormulaError} :
    f.eval lookup = .error error ↔
      ∃ name, LeftmostUndefined lookup source name ∧ error = .unknownVariable name := by
  obtain ⟨-, ts, hts, hderives⟩ := (parse_eq_ok_iff source f).mp h
  simp only [leftmostUndefined_iff hts, filterMap_name?_of_derives hderives]
  exact Expr.eval_eq_error_iff

/-- A formula that is read from a text has a value exactly if all its variables have one. Otherwise, even
where a factor or a divisor is zero, it is refused as invalid input with the variable without a value
that comes first in the text. Only the values of its variables make a difference. If it has a value, so
do all its parts, and whatever the values of the operands are, an operator settles them. -/
theorem evaluates_on_variables {source : String} {f : Formula} (h : parse source = .ok f) :
    (∀ lookup, (∃ x, f.eval lookup = .ok x) ↔
      ∀ name ∈ f.variableNames, (lookup name).isSome = true) ∧
    (∀ lookup error, f.eval lookup = .error error ↔
      ∃ name, LeftmostUndefined lookup source name ∧ error = .unknownVariable name) ∧
    (∀ name, (Failure.formula (.unknownVariable name)).kind = .invalidInput ∧
      (Failure.formula (.unknownVariable name)).message = "Unknown formula variable '" ++ name ++ "'") ∧
    (∀ lookup other, (∀ name ∈ f.variableNames, lookup name = other name) →
      f.eval lookup = f.eval other) ∧
    (∀ lookup x, f.eval lookup = .ok x → ∀ part : Expr, part.Within f.expr →
      ∃ y, part.eval lookup = .ok y) ∧
    (∀ op left right, (Expr.binary op left right).Within f.expr → ∀ lookup z,
      (Expr.binary op left right).eval lookup = .ok z ↔
        ∃ x y, left.eval lookup = .ok x ∧ right.eval lookup = .ok y ∧ op.Settles x y z) := by
  refine ⟨fun lookup => ?_, fun lookup error => eval_eq_error_iff h, fun name => ⟨rfl, rfl⟩,
    fun lookup other hagree => ?_, fun lookup x hx part hpart => hpart.exists_eval hx,
    fun op left right _ lookup z => ?_⟩
  · simp only [mem_variableNames]
    exact Expr.exists_eval_eq_ok_iff
  · exact Expr.eval_congr fun name hname => hagree name (mem_variableNames.mpr hname)
  · simp only [Expr.settles_iff]
    exact Expr.eval_binary_eq_ok_iff

/-- Zero times a number over another one, and a third. -/
def shareAndRest : Formula where
  source := "0*B/c+a"
  expr := .binary .add (.binary .divide (.binary .multiply (.literal 0.0) (.var "b")) (.var "c"))
    (.var "a")

/-- Only the divisor is known, and it is zero. -/
def onlyDivisor (name : String) : Option Float := if name = "c" then some 0.0 else none

/-- A factor that is infinite, a divisor that is zero and a summand that is undefined. -/
def extremes (name : String) : Option Float :=
  if name = "b" then some (1.0 / 0.0) else if name = "c" then some 0.0 else some (0.0 / 0.0)

theorem parse_shareAndRest : parse "0*B/c+a" = .ok shareAndRest := by decide +kernel

theorem leftmostUndefined_onlyDivisor : LeftmostUndefined onlyDivisor "0*B/c+a" "b" :=
  ⟨[.number 0.0, .operator .multiply],
    [.operator .divide, .name "c", .operator .add, .name "a"],
    (tokens_eq_ok_iff _ _).mp (by decide +kernel), rfl, by simp⟩

theorem evaluates_on_variables_shareAndRest :
    parse "0*B/c+a" = .ok shareAndRest ∧
      shareAndRest.eval onlyDivisor = .error (.unknownVariable "b") ∧
      ∃ z, shareAndRest.eval extremes = .ok z ∧ z.isFinite = true := by
  obtain ⟨htotal, hfails, -, -, -, hnodes⟩ := evaluates_on_variables parse_shareAndRest
  have hdefined : ∀ name ∈ shareAndRest.variableNames, (extremes name).isSome = true := by
    simp [mem_variableNames, shareAndRest, extremes]
  obtain ⟨z, hz⟩ := (htotal extremes).mpr hdefined
  obtain ⟨_, _, -, -, hsettles⟩ := (hnodes .add _ _ .refl extremes z).mp hz
  exact ⟨parse_shareAndRest,
    (hfails onlyDivisor _).mpr ⟨"b", leftmostUndefined_onlyDivisor, rfl⟩, z, hz, hsettles.isFinite⟩

end Formula

end FederatedMetrics

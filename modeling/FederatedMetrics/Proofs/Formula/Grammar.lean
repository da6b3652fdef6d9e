import FederatedMetrics.Formula.Parser
import FederatedMetrics.Proofs.Failure

/-!
# The grammar of formulas

An expression is a sum of terms, a term a product of factors, and a factor a name, a number, an
expression in parentheses or a factor with a sign in front. The reader accepts a sequence of tokens
exactly if it is an expression, and it builds the tree of the expression.
-/

namespace FederatedMetrics.Formula

/-- The kinds of phrases of a formula. -/
inductive Phrase where
  | expression
  | term
  | factor

/-- Which sequences of tokens are phrases, with their trees. Sums and products go on to the right, so
their operators associate to the left. -/
inductive Derives : Phrase → List Token → Expr → Prop
  | ofTerm {ts : List Token} {e : Expr} (h : Derives .term ts e) : Derives .expression ts e
  | sum {op : ArithmeticOp} {ts us : List Token} {left right : Expr}
      (hop : op = .add ∨ op = .subtract) (hleft : Derives .expression ts left)
      (hright : Derives .term us right) :
      Derives .expression (ts ++ .operator op :: us) (.binary op left right)
  | ofFactor {ts : List Token} {e : Expr} (h : Derives .factor ts e) : Derives .term ts e
  | product {op : ArithmeticOp} {ts us : List Token} {left right : Expr}
      (hop : op = .multiply ∨ op = .divide) (hleft : Derives .term ts left)
      (hright : Derives .factor us right) :
      Derives .term (ts ++ .operator op :: us) (.binary op left right)
  | negation {ts : List Token} {e : Expr} (h : Derives .factor ts e) :
      Derives .factor (.operator .subtract :: ts) (.binary .subtract (.literal 0.0) e)
  | name (text : String) : Derives .factor [.name text] (.var text)
  | number (x : Float) : Derives .factor [.number x] (.literal x)
  | parentheses {ts : List Token} {e : Expr} (h : Derives .expression ts e) :
      Derives .factor (.opening :: (ts ++ [.closing])) e

theorem isProduct_eq_true_iff (op : ArithmeticOp) :
    op.isProduct = true ↔ op = .multiply ∨ op = .divide := by
  cases op <;> simp [ArithmeticOp.isProduct]

theorem isProduct_eq_false_iff (op : ArithmeticOp) :
    op.isProduct = false ↔ op = .add ∨ op = .subtract := by
  cases op <;> simp [ArithmeticOp.isProduct]

theorem read_cons {state next : State} {token : Token} (h : state.step token = .ok next)
    (rest : List Token) : state.read (token :: rest) = next.read rest := by
  rw [State.read, h]
  rfl

/-! ## Phrases are read -/

/-- A sign may as well stand behind the others. -/
theorem signed_negate (n : Nat) (e : Expr) : signed n (.negate e) = signed (n + 1) e := by
  induction n with
  | zero => rfl
  | succ n ih =>
      rw [signed, ih]
      rfl

/-- How the reader goes over a phrase, whatever follows: a factor is supplied to the level that wants an
operand, a term is then held beside the sum in front of it, and an expression is held in two parts. -/
def Phrase.ReadAs (ts : List Token) (e : Expr) : Phrase → Prop
  | .factor => ∀ level outer rest,
      (State.wanting level outer).read (ts ++ rest) = (level.supply e outer).read rest
  | .term => ∀ sum outer rest,
      (State.wanting ⟨sum, none, 0⟩ outer).read (ts ++ rest) = (State.holding sum e outer).read rest
  | .expression => ∃ sum value, close sum value = e ∧ ∀ outer rest,
      (State.wanting .fresh outer).read (ts ++ rest) = (State.holding sum value outer).read rest

theorem readAs_of_derives {p : Phrase} {ts : List Token} {e : Expr} (h : Derives p ts e) :
    p.ReadAs ts e := by
  induction h with
  | ofTerm _ ih => exact ⟨none, _, rfl, fun outer rest => ih none outer rest⟩
  | @sum op ts us left right hop _ _ ihLeft ihRight =>
      obtain ⟨sum, value, rfl, hleft⟩ := ihLeft
      refine ⟨some (close sum value, op), right, rfl, fun outer rest => ?_⟩
      have hstep : (State.holding sum value outer).step (.operator op) =
          .ok (.wanting ⟨some (close sum value, op), none, 0⟩ outer) := by
        simp [State.step, (isProduct_eq_false_iff op).mpr hop]
      rw [List.append_assoc, hleft, List.cons_append, read_cons hstep]
      exact ihRight _ _ _
  | ofFactor _ ih => exact fun sum outer rest => ih ⟨sum, none, 0⟩ outer rest
  | @product op ts us left right hop _ _ ihLeft ihRight =>
      intro sum outer rest
      have hstep : (State.holding sum left outer).step (.operator op) =
          .ok (.wanting ⟨sum, some (left, op), 0⟩ outer) := by
        simp [State.step, (isProduct_eq_true_iff op).mpr hop]
      rw [List.append_assoc, ihLeft, List.cons_append, read_cons hstep]
      exact ihRight _ _ _
  | @negation ts e _ ih =>
      intro level outer rest
      have hstep : (State.wanting level outer).step (.operator .subtract) =
          .ok (.wanting { level with signs := level.signs + 1 } outer) := rfl
      rw [List.cons_append, read_cons hstep, ih, Level.supply, Level.supply, ← signed_negate]
      rfl
  | name text => exact fun level outer rest => read_cons rfl rest
  | number x => exact fun level outer rest => read_cons rfl rest
  | @parentheses ts e _ ih =>
      obtain ⟨sum, value, rfl, hinside⟩ := ih
      intro level outer rest
      have hopen : (State.wanting level outer).step .opening =
          .ok (.wanting .fresh (level :: outer)) := rfl
      have hclose : (State.holding sum value (level :: outer)).step .closing =
          .ok (level.supply (close sum value) outer) := rfl
      rw [List.cons_append, read_cons hopen, List.append_assoc, hinside, List.singleton_append,
        read_cons hclose]

/-! ## What is read is a phrase -/

/-- The tokens of an operation that waits for its right operand, if there is one: a phrase, and behind it
an operator. -/
inductive Pending (p : Phrase) (isProduct : Bool) :
    List Token → Option (Expr × ArithmeticOp) → Prop
  | none : Pending p isProduct [] none
  | some {ts : List Token} {e : Expr} {op : ArithmeticOp} (h : Derives p ts e)
      (hop : op.isProduct = isProduct) : Pending p isProduct (ts ++ [.operator op]) (some (e, op))

/-- The tokens of a level: a sum and a product that wait for their right operand, and signs. -/
inductive Level.Reads (level : Level) : List Token → Prop
  | intro {sums products : List Token} (hsum : Pending .expression false sums level.sum)
      (hproduct : Pending .term true products level.product) :
      Reads level (sums ++ products ++ .replicate level.signs (.operator .subtract))

/-- The tokens of the levels around an open parenthesis, the innermost level first. -/
inductive OuterReads : List Level → List Token → Prop
  | nil : OuterReads [] []
  | cons {level : Level} {outer : List Level} {ts us : List Token} (houter : OuterReads outer ts)
      (hlevel : level.Reads us) : OuterReads (level :: outer) (ts ++ us ++ [.opening])

/-- The tokens that lead to a state. -/
inductive State.Reads : State → List Token → Prop
  | wanting {level : Level} {outer : List Level} {ts us : List Token} (houter : OuterReads outer ts)
      (hlevel : level.Reads us) : Reads (.wanting level outer) (ts ++ us)
  | holding {sum : Option (Expr × ArithmeticOp)} {value : Expr} {outer : List Level}
      {ts sums us : List Token} (houter : OuterReads outer ts)
      (hsum : Pending .expression false sums sum) (hvalue : Derives .term us value) :
      Reads (.holding sum value outer) (ts ++ (sums ++ us))

theorem Level.reads_fresh : Level.fresh.Reads [] :=
  have hsum : Pending .expression false [] Level.fresh.sum := .none
  have hproduct : Pending .term true [] Level.fresh.product := .none
  .intro hsum hproduct

theorem derives_close_sum {sums ts : List Token} {sum : Option (Expr × ArithmeticOp)} {e : Expr}
    (hsum : Pending .expression false sums sum) (h : Derives .term ts e) :
    Derives .expression (sums ++ ts) (close sum e) := by
  cases hsum with
  | none => exact .ofTerm h
  | some hleft hop =>
      rw [List.append_assoc]
      exact .sum ((isProduct_eq_false_iff _).mp hop) hleft h

theorem derives_close_product {products ts : List Token} {product : Option (Expr × ArithmeticOp)}
    {e : Expr} (hproduct : Pending .term true products product) (h : Derives .factor ts e) :
    Derives .term (products ++ ts) (close product e) := by
  cases hproduct with
  | none => exact .ofFactor h
  | some hleft hop =>
      rw [List.append_assoc]
      exact .product ((isProduct_eq_true_iff _).mp hop) hleft h

theorem derives_signed {ts : List Token} {e : Expr} (n : Nat) (h : Derives .factor ts e) :
    Derives .factor (.replicate n (.operator .subtract) ++ ts) (signed n e) := by
  induction n with
  | zero => exact h
  | succ n ih => exact .negation ih

/-- A level that gets its operand holds a term. -/
theorem reads_supply {level : Level} {outer : List Level} {ts us vs : List Token} {e : Expr}
    (houter : OuterReads outer ts) (hlevel : level.Reads us) (h : Derives .factor vs e) :
    (level.supply e outer).Reads (ts ++ us ++ vs) := by
  obtain ⟨hsum, hproduct⟩ := hlevel
  have hterm := derives_close_product hproduct (derives_signed level.signs h)
  simpa [Level.supply] using State.Reads.holding houter hsum hterm

/-- A step goes on with the tokens that lead to a state. -/
theorem reads_step {state next : State} {token : Token} {before : List Token}
    (hstate : state.Reads before) (h : state.step token = .ok next) :
    next.Reads (before ++ [token]) := by
  cases hstate with
  | @wanting level outer ts us houter hlevel =>
      cases token with
      | name text =>
          cases h
          exact reads_supply houter hlevel (.name text)
      | number x =>
          cases h
          exact reads_supply houter hlevel (.number x)
      | operator op =>
          cases op with
          | subtract =>
              cases h
              obtain ⟨hsum, hproduct⟩ := hlevel
              have hsigns : Level.Reads { level with signs := level.signs + 1 } _ :=
                .intro hsum hproduct
              simpa [List.replicate_succ'] using State.Reads.wanting houter hsigns
          | add => cases h
          | multiply => cases h
          | divide => cases h
      | opening =>
          cases h
          simpa using State.Reads.wanting (houter.cons hlevel) Level.reads_fresh
      | closing => cases h
  | @holding sum value outer ts sums us houter hsum hvalue =>
      cases token with
      | operator op =>
          cases hop : op.isProduct with
          | true =>
              obtain rfl : State.wanting ⟨sum, some (value, op), 0⟩ outer = next := by
                simpa [State.step, hop] using h
              have hlevel : Level.Reads ⟨sum, some (value, op), 0⟩ _ :=
                .intro hsum (.some hvalue hop)
              simpa using State.Reads.wanting houter hlevel
          | false =>
              obtain rfl : State.wanting ⟨some (close sum value, op), none, 0⟩ outer = next := by
                simpa [State.step, hop] using h
              have hlevel : Level.Reads ⟨some (close sum value, op), none, 0⟩ _ :=
                .intro (.some (derives_close_sum hsum hvalue) hop) .none
              simpa using State.Reads.wanting houter hlevel
      | closing =>
          cases houter with
          | nil => cases h
          | cons houter hlevel =>
              cases h
              have hinside := Derives.parentheses (derives_close_sum hsum hvalue)
              simpa using reads_supply houter hlevel hinside
      | name text => cases houter <;> cases h
      | number x => cases houter <;> cases h
      | opening => cases houter <;> cases h

/-- A run that ends with a tree has read an expression. -/
theorem derives_of_read {state : State} {before ts : List Token} {e : Expr}
    (hstate : state.Reads before) (h : state.read ts = .ok e) :
    Derives .expression (before ++ ts) e := by
  induction ts generalizing state before with
  | nil =>
      cases hstate with
      | wanting _ _ => cases h
      | holding houter hsum hvalue =>
          cases houter with
          | nil =>
              cases h
              simpa using derives_close_sum hsum hvalue
          | cons _ _ => cases h
  | cons token rest ih =>
      obtain ⟨next, hnext, hrest⟩ := bind_eq_ok_iff.mp h
      simpa using ih (reads_step hstate hnext) hrest

/-- The reader accepts exactly the expressions, each with its tree. -/
theorem ofTokens_eq_ok_iff (tokens : List Token) (e : Expr) :
    ofTokens tokens = .ok e ↔ Derives .expression tokens e := by
  constructor
  · intro h
    exact derives_of_read (.wanting .nil Level.reads_fresh) h
  · intro h
    obtain ⟨sum, value, rfl, hread⟩ := readAs_of_derives h
    rw [ofTokens, ← List.append_nil tokens]
    exact hread [] []

end FederatedMetrics.Formula

import FederatedMetrics.Proofs.Formula.Grammar

/-!
# Recursive descent

The grammar can be read by one function for each kind of phrase: a factor takes its first token, a term
goes on as long as there are products, and an expression as long as there are sums. The reader that
keeps the open levels on a stack builds the same trees and finds the same faults.
-/

namespace FederatedMetrics.Formula

/-- What a phrase leaves of the tokens. It takes at least one. -/
abbrev Rest (ts : List Token) : Type := { rest : List Token // rest.length < ts.length }

/-- What the operations behind a phrase leave of the tokens, of which they may take none. -/
abbrev Remainder (ts : List Token) : Type := { rest : List Token // rest.length ≤ ts.length }

mutual

/-- A name, a number, an expression in parentheses, or a factor behind a sign. -/
def factor : (ts : List Token) → Except Fault (Expr × Rest ts)
  | .operator .subtract :: ts =>
      match factor ts with
      | .ok (operand, rest) => .ok (.negate operand, ⟨rest, Nat.lt_succ_of_lt rest.2⟩)
      | .error fault => .error fault
  | .name text :: ts => .ok (.var text, ⟨ts, Nat.lt_succ_self _⟩)
  | .number x :: ts => .ok (.literal x, ⟨ts, Nat.lt_succ_self _⟩)
  | .opening :: ts =>
      match expression ts with
      | .ok (inner, ⟨.closing :: rest, h⟩) =>
          .ok (inner, ⟨rest, Nat.lt_succ_of_lt (Nat.lt_of_succ_lt h)⟩)
      | .ok (_, _) => .error .unbalanced
      | .error fault => .error fault
  | _ => .error .malformed
termination_by ts => (ts.length, 0)

/-- Go on with products behind a term. -/
def products (left : Expr) (ts : List Token) : Except Fault (Expr × Remainder ts) :=
  match ts with
  | .operator op :: ts =>
      if op.isProduct then
        match factor ts with
        | .ok (right, rest) =>
            match products (.binary op left right) rest with
            | .ok (e, later) =>
                .ok (e, ⟨later, Nat.le_succ_of_le (Nat.le_of_lt (Nat.lt_of_le_of_lt later.2 rest.2))⟩)
            | .error fault => .error fault
        | .error fault => .error fault
      else .ok (left, ⟨.operator op :: ts, Nat.le_refl _⟩)
  | ts => .ok (left, ⟨ts, Nat.le_refl _⟩)
termination_by (ts.length, 0)

def term (ts : List Token) : Except Fault (Expr × Rest ts) :=
  match factor ts with
  | .ok (left, rest) =>
      match products left rest with
      | .ok (e, later) => .ok (e, ⟨later, Nat.lt_of_le_of_lt later.2 rest.2⟩)
      | .error fault => .error fault
  | .error fault => .error fault
termination_by (ts.length, 1)

/-- Go on with sums behind an expression. -/
def sums (left : Expr) (ts : List Token) : Except Fault (Expr × Remainder ts) :=
  match ts with
  | .operator op :: ts =>
      if op.isProduct then .ok (left, ⟨.operator op :: ts, Nat.le_refl _⟩)
      else
        match term ts with
        | .ok (right, rest) =>
            match sums (.binary op left right) rest with
            | .ok (e, later) =>
                .ok (e, ⟨later, Nat.le_succ_of_le (Nat.le_of_lt (Nat.lt_of_le_of_lt later.2 rest.2))⟩)
            | .error fault => .error fault
        | .error fault => .error fault
  | ts => .ok (left, ⟨ts, Nat.le_refl _⟩)
termination_by (ts.length, 0)

def expression (ts : List Token) : Except Fault (Expr × Rest ts) :=
  match term ts with
  | .ok (left, rest) =>
      match sums left rest with
      | .ok (e, later) => .ok (e, ⟨later, Nat.lt_of_le_of_lt later.2 rest.2⟩)
      | .error fault => .error fault
  | .error fault => .error fault
termination_by (ts.length, 2)

end

/-- The tree of tokens that are one expression. -/
def descend (ts : List Token) : Except Fault Expr :=
  match expression ts with
  | .ok (e, ⟨[], _⟩) => .ok e
  | .ok (_, _) => .error .leftover
  | .error fault => .error fault

/-! ## Operations end where they should -/

/-- Tokens that do not go on with a product. -/
def EndsProduct (ts : List Token) : Prop :=
  ∀ op rest, ts = .operator op :: rest → op.isProduct = false

theorem endsProduct_products (left : Expr) (ts : List Token) {e : Expr} {rest : Remainder ts}
    (h : products left ts = .ok (e, rest)) : EndsProduct rest := by
  match ts with
  | .operator op :: ts =>
      cases hop : op.isProduct with
      | false =>
          rw [products, if_neg (by simp [hop])] at h
          cases h
          rintro _ _ ⟨⟩
          exact hop
      | true =>
          rw [products, if_pos hop] at h
          split at h
          · rename_i right behind _
            split at h
            · rename_i hproducts
              have hends := endsProduct_products (.binary op left right) behind hproducts
              cases h
              exact hends
            · cases h
          · cases h
  | [] => rw [products.eq_def] at h; cases h; simp [EndsProduct]
  | .name _ :: _ => rw [products.eq_def] at h; cases h; simp [EndsProduct]
  | .number _ :: _ => rw [products.eq_def] at h; cases h; simp [EndsProduct]
  | .opening :: _ => rw [products.eq_def] at h; cases h; simp [EndsProduct]
  | .closing :: _ => rw [products.eq_def] at h; cases h; simp [EndsProduct]
termination_by ts.length

theorem endsProduct_term {e : Expr} {ts : List Token} {rest : Rest ts}
    (h : term ts = .ok (e, rest)) : EndsProduct rest := by
  rw [term] at h
  split at h
  · split at h
    · rename_i hproducts
      cases h
      exact endsProduct_products _ _ hproducts
    · cases h
  · cases h

/-! ## The stack follows the descent -/

/-- What the reader does with the value of a whole expression and the tokens behind it. -/
def resume (e : Expr) : List Level → List Token → Except Fault Expr
  | [], [] => .ok e
  | [], _ :: _ => .error .leftover
  | level :: outer, .closing :: rest => (level.supply e outer).read rest
  | _ :: _, _ => .error .unbalanced

theorem read_holding {sum : Option (Expr × ArithmeticOp)} {value : Expr} {outer : List Level}
    {ts : List Token} (h : ∀ op rest, ts ≠ .operator op :: rest) :
    (State.holding sum value outer).read ts = resume (close sum value) outer ts := by
  match ts, outer with
  | [], [] => rfl
  | [], _ :: _ => rfl
  | .operator op :: rest, _ => exact absurd rfl (h op rest)
  | .closing :: _, _ :: _ => exact read_cons rfl _
  | .closing :: _, [] => rfl
  | .name _ :: _, [] => rfl
  | .name _ :: _, _ :: _ => rfl
  | .number _ :: _, [] => rfl
  | .number _ :: _, _ :: _ => rfl
  | .opening :: _, [] => rfl
  | .opening :: _, _ :: _ => rfl

mutual

theorem read_factor (level : Level) (outer : List Level) (ts : List Token) :
    (State.wanting level outer).read ts =
      (factor ts).bind fun p => (level.supply p.1 outer).read p.2 := by
  match ts with
  | [] => rw [factor.eq_def]; rfl
  | .operator .subtract :: ts =>
      have hstep : (State.wanting level outer).step (.operator .subtract) =
          .ok (.wanting { level with signs := level.signs + 1 } outer) := rfl
      rw [read_cons hstep, read_factor _ outer ts, factor]
      cases factor ts with
      | error fault => rfl
      | ok p =>
          obtain ⟨operand, rest⟩ := p
          simp only [Except.bind, Level.supply, signed_negate]
  | .operator .add :: ts => rw [factor.eq_def]; rfl
  | .operator .multiply :: ts => rw [factor.eq_def]; rfl
  | .operator .divide :: ts => rw [factor.eq_def]; rfl
  | .name text :: ts => rw [factor]; exact read_cons rfl ts
  | .number x :: ts => rw [factor]; exact read_cons rfl ts
  | .opening :: ts =>
      have hstep : (State.wanting level outer).step .opening =
          .ok (.wanting .fresh (level :: outer)) := rfl
      rw [read_cons hstep, read_expression (level :: outer) ts, factor]
      match expression ts with
      | .error fault => rfl
      | .ok (inner, ⟨[], _⟩) => rfl
      | .ok (inner, ⟨.closing :: rest, _⟩) => rfl
      | .ok (inner, ⟨.name _ :: rest, _⟩) => rfl
      | .ok (inner, ⟨.number _ :: rest, _⟩) => rfl
      | .ok (inner, ⟨.operator _ :: rest, _⟩) => rfl
      | .ok (inner, ⟨.opening :: rest, _⟩) => rfl
  | .closing :: ts => rw [factor.eq_def]; rfl
termination_by (ts.length, 0)

theorem read_products (sum : Option (Expr × ArithmeticOp)) (left : Expr) (outer : List Level)
    (ts : List Token) : (State.holding sum left outer).read ts =
      (products left ts).bind fun p => (State.holding sum p.1 outer).read p.2 := by
  match ts with
  | .operator op :: ts =>
      cases hop : op.isProduct with
      | false =>
          rw [products, if_neg (by simp [hop])]
          rfl
      | true =>
          have hstep : (State.holding sum left outer).step (.operator op) =
              .ok (.wanting ⟨sum, some (left, op), 0⟩ outer) := by simp [State.step, hop]
          rw [read_cons hstep, read_factor _ outer ts, products, if_pos hop]
          match factor ts with
          | .error fault => rfl
          | .ok (right, rest) =>
              have hproducts := read_products sum (.binary op left right) outer rest
              refine hproducts.trans ?_
              dsimp only
              cases products (.binary op left right) rest <;> rfl
  | [] => rw [products.eq_def]; rfl
  | .name _ :: _ => rw [products.eq_def]; rfl
  | .number _ :: _ => rw [products.eq_def]; rfl
  | .opening :: _ => rw [products.eq_def]; rfl
  | .closing :: _ => rw [products.eq_def]; rfl
termination_by (ts.length, 0)

theorem read_term (sum : Option (Expr × ArithmeticOp)) (outer : List Level) (ts : List Token) :
    (State.wanting ⟨sum, none, 0⟩ outer).read ts =
      (term ts).bind fun p => (State.holding sum p.1 outer).read p.2 := by
  rw [read_factor _ outer ts, term]
  match factor ts with
  | .error fault => rfl
  | .ok (left, rest) =>
      refine (read_products sum left outer rest).trans ?_
      dsimp only
      cases products left rest <;> rfl
termination_by (ts.length, 1)

theorem read_sums (sum : Option (Expr × ArithmeticOp)) (value : Expr) (outer : List Level)
    (ts : List Token) (hends : EndsProduct ts) : (State.holding sum value outer).read ts =
      (sums (close sum value) ts).bind fun p => resume p.1 outer p.2 := by
  match ts with
  | .operator op :: ts =>
      have hop : op.isProduct = false := hends op ts rfl
      have hstep : (State.holding sum value outer).step (.operator op) =
          .ok (.wanting ⟨some (close sum value, op), none, 0⟩ outer) := by simp [State.step, hop]
      rw [read_cons hstep, read_term _ outer ts, sums, if_neg (by simp [hop])]
      match hterm : term ts with
      | .error fault => rfl
      | .ok (right, rest) =>
          have hsums := read_sums (some (close sum value, op)) right outer rest (endsProduct_term hterm)
          have hclose : close (some (close sum value, op)) right =
              .binary op (close sum value) right := rfl
          refine hsums.trans ?_
          rw [hclose]
          dsimp only
          cases sums (.binary op (close sum value) right) rest <;> rfl
  | [] => rw [sums.eq_def]; exact read_holding (by simp)
  | .name _ :: _ => rw [sums.eq_def]; exact read_holding (by simp)
  | .number _ :: _ => rw [sums.eq_def]; exact read_holding (by simp)
  | .opening :: _ => rw [sums.eq_def]; exact read_holding (by simp)
  | .closing :: _ => rw [sums.eq_def]; exact read_holding (by simp)
termination_by (ts.length, 0)

theorem read_expression (outer : List Level) (ts : List Token) :
    (State.wanting .fresh outer).read ts = (expression ts).bind fun p => resume p.1 outer p.2 := by
  have hstart : (State.wanting .fresh outer).read ts = _ := read_term none outer ts
  rw [hstart, expression]
  match hterm : term ts with
  | .error fault => rfl
  | .ok (left, rest) =>
      refine (read_sums none left outer rest (endsProduct_term hterm)).trans ?_
      dsimp only [close]
      cases sums left rest <;> rfl
termination_by (ts.length, 2)

end

/-- The reader with a stack builds the trees of the descent and finds its faults. -/
theorem ofTokens_eq_descend (ts : List Token) : ofTokens ts = descend ts := by
  rw [ofTokens, State.initial, read_expression, descend]
  rcases expression ts with fault | ⟨e, rest, hrest⟩
  · rfl
  · cases rest <;> rfl

end FederatedMetrics.Formula

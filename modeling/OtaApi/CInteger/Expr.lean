import Mathlib.Algebra.Group.Nat.Defs

/-!
# Integer expressions of C

An expression with every conversion written out, and each operator with the type it is
computed in. The machine keeps of each result what the type has room for; the value is
what the expression means. They are the same when nothing overflows, nothing is cut
off, and nothing is divided by zero on the way.
-/

namespace CInteger

inductive IntType where
  | signed (width : Nat)
  | unsigned (width : Nat)
  deriving DecidableEq, Repr

/-- What a type has room for; twice the integer, so that no width is an exception. -/
def IntType.Holds : IntType → Int → Prop
  | .signed width, n => -(2 ^ width : Nat) ≤ n * 2 ∧ n * 2 < (2 ^ width : Nat)
  | .unsigned width, n => 0 ≤ n ∧ n < (2 ^ width : Nat)

/-- What a type keeps of an integer. -/
def IntType.wrap : IntType → Int → Int
  | .signed width, n => n.bmod (2 ^ width)
  | .unsigned width, n => n % (2 ^ width : Nat)

theorem holds_wrap (t : IntType) (n : Int) : t.Holds (t.wrap n) := by
  cases t with
  | signed width =>
    have hpos : 0 < 2 ^ width := Nat.two_pow_pos width
    have hlow := @Int.le_bmod n _ hpos
    have hhigh := @Int.bmod_lt n _ hpos
    simp only [IntType.Holds, IntType.wrap]
    omega
  | unsigned width =>
    have hpos : 0 < 2 ^ width := Nat.two_pow_pos width
    exact ⟨Int.emod_nonneg n (by omega), Int.emod_lt_of_pos n (by omega)⟩

theorem wrap_of_holds {t : IntType} {n : Int} (h : t.Holds n) : t.wrap n = n := by
  cases t with
  | signed width => exact Int.bmod_eq_of_le_mul_two h.1 h.2
  | unsigned width => exact Int.emod_eq_of_lt h.1 h.2

/-- A type keeps the integers it has room for, and no others. -/
theorem wrap_eq_iff {t : IntType} {n : Int} : t.wrap n = n ↔ t.Holds n := by
  constructor
  · intro h
    rw [← h]
    exact holds_wrap t n
  · exact wrap_of_holds

inductive BinOp where
  | sub | mul | div
  deriving DecidableEq, Repr

/-- C rounds a quotient towards zero. -/
def BinOp.apply : BinOp → Int → Int → Int
  | .sub, a, b => a - b
  | .mul, a, b => a * b
  | .div, a, b => a.tdiv b

/-- Only a division asks something of its right operand. -/
def BinOp.Defined : BinOp → Int → Prop
  | .div, b => b ≠ 0
  | _, _ => True

inductive Expr (V : Type u) where
  | var : V → Expr V
  | lit : Int → Expr V
  | cast : IntType → Expr V → Expr V
  | bin : BinOp → IntType → Expr V → Expr V → Expr V

namespace Expr

variable {V : Type u}

/-- What the machine computes. -/
def eval (env : V → Int) : Expr V → Int
  | .var v => env v
  | .lit n => n
  | .cast t e => t.wrap (e.eval env)
  | .bin op t a b => t.wrap (op.apply (a.eval env) (b.eval env))

/-- What the expression means. -/
def value (env : V → Int) : Expr V → Int
  | .var v => env v
  | .lit n => n
  | .cast _ e => e.value env
  | .bin op _ a b => op.apply (a.value env) (b.value env)

/-- Every intermediate result fits its type, and no divisor is zero. -/
def Exact (env : V → Int) : Expr V → Prop
  | .var _ => True
  | .lit _ => True
  | .cast t e => e.Exact env ∧ t.Holds (e.value env)
  | .bin op t a b =>
    a.Exact env ∧ b.Exact env ∧ op.Defined (b.value env) ∧ t.Holds (op.apply (a.value env) (b.value env))

variable {env : V → Int}

theorem eval_eq_value {e : Expr V} (h : e.Exact env) : e.eval env = e.value env := by
  induction e with
  | var v => rfl
  | lit n => rfl
  | cast t e ih =>
    rw [eval, ih h.1]
    exact wrap_of_holds h.2
  | bin op t a b iha ihb =>
    obtain ⟨ha, hb, _, hholds⟩ := h
    rw [eval, iha ha, ihb hb]
    exact wrap_of_holds hholds

/-- The machine gets a result, and it is the value meant, because nothing gets lost on
the way to it. -/
structure Computes (e : Expr V) (env : V → Int) (result n : Int) : Prop where
  machine : e.eval env = result
  exact : e.Exact env
  value : e.value env = n

theorem Computes.eq {e : Expr V} {result n : Int} (h : e.Computes env result n) : result = n := by
  rw [← h.machine, eval_eq_value h.exact]
  exact h.value

theorem computes_var {v : V} {n : Int} (h : env v = n) : (Expr.var v).Computes env n n :=
  ⟨h, trivial, h⟩

theorem computes_lit (n : Int) : (Expr.lit n : Expr V).Computes env n n := ⟨rfl, trivial, rfl⟩

theorem Computes.cast {t : IntType} {e : Expr V} {result kept n : Int}
    (h : e.Computes env result n) (hkept : t.wrap result = kept) (hholds : t.Holds n) :
    (Expr.cast t e).Computes env kept n := by
  constructor
  · rw [Expr.eval, h.machine]
    exact hkept
  · refine ⟨h.exact, ?_⟩
    rw [h.value]
    exact hholds
  · exact h.value

/-- A literal that its type has room for. -/
theorem computes_literal {t : IntType} {n : Int} (h : t.Holds n) :
    (Expr.cast t (.lit n) : Expr V).Computes env n n :=
  (computes_lit n).cast (wrap_of_holds h) h

theorem Computes.bin {op : BinOp} {t : IntType} {a b : Expr V} {x y kept m n : Int}
    (ha : a.Computes env x m) (hb : b.Computes env y n) (hkept : t.wrap (op.apply x y) = kept)
    (hdefined : op.Defined n) (hholds : t.Holds (op.apply m n)) :
    (Expr.bin op t a b).Computes env kept (op.apply m n) := by
  constructor
  · rw [Expr.eval, ha.machine, hb.machine]
    exact hkept
  · refine ⟨ha.exact, hb.exact, ?_, ?_⟩
    · rw [hb.value]
      exact hdefined
    · rw [ha.value, hb.value]
      exact hholds
  · rw [Expr.value, ha.value, hb.value]

/-- A conversion changes what was right before it exactly when its type has no room. -/
theorem Computes.cast_eq_iff {t : IntType} {e : Expr V} {result n : Int} (h : e.Computes env result n) :
    (Expr.cast t e).eval env = n ↔ t.Holds n := by
  rw [eval, h.machine, h.eq]
  exact wrap_eq_iff

end Expr

end CInteger

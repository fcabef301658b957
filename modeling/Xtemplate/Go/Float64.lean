import Mathlib.Data.Int.Log
import Mathlib.Data.Rat.Floor
import Mathlib.Data.Prod.Lex

/-!
Go's `float64` as the selection of an encoding computes with it: IEEE 754
binary64 with rounding to nearest, ties to even, through `-`, `math.Abs`,
`>` and `<=`.

A finite double is its exact value, a rational `m·2^e` with `|m| ≤ 2^53`,
`e ≥ -1074` and magnitude below `2^1024` (`Representable`); the proof is a
field of `F64.finite`, so no other rational can be built as a double. The two
zeros are the one rational 0: subtraction, `math.Abs` and the comparisons
give the same results on both. Every NaN is `F64.nan`.

`F64.round` rounds a rational to the nearest double, ties to even, keeping
53 bits below the leading one and none below `2^-1074`; a result of `2^1024`
or more is an infinity. The difference of two finite doubles is their exact
difference rounded (`F64.sub`), and the comparisons are IEEE's: false
whenever a NaN takes part.

The selection compares differences with `0.1` and `0`; what it needs is
that a difference above zero puts its operands in order (`F64.key_lt_of_sub`),
that swapping them negates it (`F64.sub_swap`), and that a double minus
itself is never above `0.1`. `F64.key` orders the doubles other than NaN as
the comparisons do (`F64.lt_eq_true_iff`).
-/

namespace Go

/-! ### Doubles -/

/-- The rationals a finite `float64` takes: `m·2^e` with at most 53 bits of
`m`, an exponent no lower than the least subnormal's, and a magnitude below
`2^1024`. -/
def Representable (q : ℚ) : Prop :=
  ∃ m e : ℤ, |m| ≤ 2 ^ 53 ∧ -1074 ≤ e ∧ |q| < 2 ^ 1024 ∧ q = m * (2 : ℚ) ^ e

/-- A `float64`: a finite double as its value, an infinity (negative when
`neg`), or NaN. -/
inductive F64 where
  | finite (q : ℚ) (h : Representable q)
  | inf (neg : Bool)
  | nan
  deriving DecidableEq

/-- Rounding to the nearest integer, ties to the even one. -/
def roundHalfEven (y : ℚ) : ℤ :=
  if y - ⌊y⌋ < 1 / 2 then ⌊y⌋
  else if 1 / 2 < y - ⌊y⌋ then ⌊y⌋ + 1
  else if ⌊y⌋ % 2 = 0 then ⌊y⌋ else ⌊y⌋ + 1

/-- The exponent of the last bit a double keeps of a magnitude `a`: 52 bits
below the leading one, and never below `-1074`, where the subnormals end. -/
def quantumExp (a : ℚ) : ℤ := max (Int.log 2 a - 52) (-1074)

theorem floor_le_roundHalfEven (y : ℚ) : ⌊y⌋ ≤ roundHalfEven y := by
  unfold roundHalfEven
  split_ifs <;> omega

theorem roundHalfEven_le_floor_add_one (y : ℚ) : roundHalfEven y ≤ ⌊y⌋ + 1 := by
  unfold roundHalfEven
  split_ifs <;> omega

/-- A magnitude scaled by its quantum is below `2^53`, so its rounding has at
most 53 bits. -/
theorem div_two_pow_quantumExp_lt {a : ℚ} (ha : 0 ≤ a) : a / 2 ^ quantumExp a < 2 ^ 53 := by
  rcases ha.eq_or_lt with rfl | hpos
  · simp
  have hlog : a < (2 : ℚ) ^ (Int.log 2 a + 1) := by
    exact_mod_cast Int.lt_zpow_succ_log_self (by norm_num : 1 < 2) a
  have hquantum : (2 : ℚ) ^ (Int.log 2 a - 52) ≤ 2 ^ quantumExp a :=
    zpow_le_zpow_right₀ (by norm_num) (le_max_left _ _)
  have hpow : (0 : ℚ) < 2 ^ (Int.log 2 a - 52) := zpow_pos (by norm_num) _
  calc a / 2 ^ quantumExp a
      ≤ a / 2 ^ (Int.log 2 a - 52) := div_le_div_of_nonneg_left ha hpow hquantum
    _ < 2 ^ (Int.log 2 a + 1) / 2 ^ (Int.log 2 a - 52) := div_lt_div_of_pos_right hlog hpow
    _ = 2 ^ 53 := by
      rw [← zpow_sub₀ (by norm_num)]
      norm_num

/-- The mantissa of a rounded magnitude: between 0 and `2^53`. -/
theorem roundHalfEven_mag_bounds {a : ℚ} (ha : 0 ≤ a) :
    0 ≤ roundHalfEven (a / 2 ^ quantumExp a) ∧ roundHalfEven (a / 2 ^ quantumExp a) ≤ 2 ^ 53 := by
  have hy : 0 ≤ a / 2 ^ quantumExp a := div_nonneg ha (zpow_nonneg (by norm_num) _)
  have hfloor : ⌊a / 2 ^ quantumExp a⌋ < 2 ^ 53 := by
    rw [Int.floor_lt]
    exact_mod_cast div_two_pow_quantumExp_lt ha
  exact ⟨(Int.floor_nonneg.mpr hy).trans (floor_le_roundHalfEven _),
    (roundHalfEven_le_floor_add_one _).trans (by omega)⟩

theorem representable_round {x : ℚ} (m e : ℤ) (hm : 0 ≤ m ∧ m ≤ 2 ^ 53) (he : -1074 ≤ e)
    (hlt : ¬(2 : ℚ) ^ 1024 ≤ m * 2 ^ e) :
    Representable (if x < 0 then -(m * 2 ^ e) else m * 2 ^ e) := by
  have hv : (0 : ℚ) ≤ m * 2 ^ e := mul_nonneg (by exact_mod_cast hm.1) (zpow_nonneg (by norm_num) _)
  refine ⟨if x < 0 then -m else m, e, ?_, he, ?_, ?_⟩
  · split <;> simpa [abs_of_nonneg hm.1] using hm.2
  · split <;> simp [abs_of_nonneg hv, not_le.mp hlt]
  · split <;> simp

/-- The double nearest to `x`, ties to even; an infinity when the rounded
magnitude reaches `2^1024`. -/
def F64.round (x : ℚ) : F64 :=
  if h : (2 : ℚ) ^ 1024 ≤ roundHalfEven (|x| / 2 ^ quantumExp |x|) * 2 ^ quantumExp |x| then
    .inf (decide (x < 0))
  else
    .finite (if x < 0 then -(roundHalfEven (|x| / 2 ^ quantumExp |x|) * 2 ^ quantumExp |x|)
        else roundHalfEven (|x| / 2 ^ quantumExp |x|) * 2 ^ quantumExp |x|)
      (representable_round _ _ (roundHalfEven_mag_bounds (abs_nonneg x)) (le_max_right _ _) h)

namespace F64

/-- `+0.0`, and `-0.0` with it. -/
def zero : F64 := .finite 0 ⟨0, 0, by norm_num, by norm_num, by norm_num, by norm_num⟩

/-- The constant `0.1` of the code, which Go rounds to the nearest double. -/
def tenth : F64 := round (1 / 10)

/-- The constant `1.0`. -/
def one : F64 := round 1


/-- `-x`. -/
def neg : F64 → F64
  | .finite q h => .finite (-q) (by
      obtain ⟨m, e, hm, he, hq, rfl⟩ := h
      exact ⟨-m, e, by simpa using hm, he, by simpa using hq, by push_cast; ring⟩)
  | .inf n => .inf !n
  | .nan => .nan

/-- `math.Abs(x)`: the sign cleared, NaN kept. -/
def abs : F64 → F64
  | .finite q h => .finite |q| (by
      obtain ⟨m, e, hm, he, hq, rfl⟩ := h
      refine ⟨|m|, e, by simpa using hm, he, by simpa using hq, ?_⟩
      rw [abs_mul, abs_of_pos (zpow_pos (by norm_num : (0 : ℚ) < 2) e)]
      push_cast
      rfl)
  | .inf _ => .inf false
  | .nan => .nan

/-- `x - y`. -/
def sub : F64 → F64 → F64
  | .finite a _, .finite b _ => round (a - b)
  | .finite _ _, .inf n => .inf !n
  | .inf n, .finite _ _ => .inf n
  | .inf n, .inf m => if n = m then .nan else .inf n
  | .nan, _ | _, .nan => .nan

/-- `x < y`. -/
def lt : F64 → F64 → Bool
  | .finite a _, .finite b _ => decide (a < b)
  | .finite _ _, .inf n => !n
  | .inf n, .finite _ _ => n
  | .inf n, .inf m => n && !m
  | .nan, _ | _, .nan => false

/-- `x <= y`. -/
def le : F64 → F64 → Bool
  | .finite a _, .finite b _ => decide (a ≤ b)
  | .finite _ _, .inf n => !n
  | .inf n, .finite _ _ => n
  | .inf n, .inf m => n || !m
  | .nan, _ | _, .nan => false

/-- Whether a double is finite. -/
def isFinite : F64 → Bool
  | .finite _ _ => true
  | _ => false

/-- Whether a double is an infinity, the value of `strconv`'s range error. -/
def isInf : F64 → Bool
  | .inf _ => true
  | _ => false

/-! ### The order -/

/-- The place of a double in the order of the comparisons: `-Inf`, the finite
values, `+Inf`, and last NaN, which no comparison places. -/
def key : F64 → Lex (ℕ × ℚ)
  | .inf true => toLex (0, 0)
  | .finite q _ => toLex (1, q)
  | .inf false => toLex (2, 0)
  | .nan => toLex (3, 0)

theorem key_injective : Function.Injective key := by
  intro a b h
  cases a with
  | finite q hq => cases b with
    | finite r hr =>
      have : q = r := by simpa [key] using h
      subst this
      rfl
    | inf n => cases n <;> simp [key] at h
    | nan => simp [key] at h
  | inf n => cases b with
    | finite r hr => cases n <;> simp [key] at h
    | inf m => cases n <;> cases m <;> simp_all [key]
    | nan => cases n <;> simp [key] at h
  | nan => cases b with
    | finite r hr => simp [key] at h
    | inf m => cases m <;> simp [key] at h
    | nan => rfl

theorem lt_eq_true_iff {a b : F64} : a.lt b = true ↔ a ≠ nan ∧ b ≠ nan ∧ a.key < b.key := by
  cases a with
  | finite q hq => cases b with
    | finite r hr => simp [lt, key, Prod.Lex.toLex_lt_toLex]
    | inf n => cases n <;> simp [lt, key, Prod.Lex.toLex_lt_toLex]
    | nan => simp [lt]
  | inf n => cases b with
    | finite r hr => cases n <;> simp [lt, key, Prod.Lex.toLex_lt_toLex]
    | inf m => cases n <;> cases m <;> simp [lt, key, Prod.Lex.toLex_lt_toLex]
    | nan => simp [lt]
  | nan => simp [lt]

theorem le_eq_true_iff {a b : F64} : a.le b = true ↔ a ≠ nan ∧ b ≠ nan ∧ a.key ≤ b.key := by
  cases a with
  | finite q hq => cases b with
    | finite r hr => simp [le, key, Prod.Lex.toLex_le_toLex]
    | inf n => cases n <;> simp [le, key, Prod.Lex.toLex_le_toLex]
    | nan => simp [le]
  | inf n => cases b with
    | finite r hr => cases n <;> simp [le, key, Prod.Lex.toLex_le_toLex]
    | inf m => cases n <;> cases m <;> simp [le, key, Prod.Lex.toLex_le_toLex]
    | nan => simp [le]
  | nan => simp [le]

/-- A comparison that holds one way fails the other. -/
theorem le_eq_false_of_lt {a b : F64} (h : a.lt b = true) : b.le a = false := by
  obtain ⟨-, -, hlt⟩ := lt_eq_true_iff.mp h
  cases hle : b.le a
  · rfl
  · exact absurd (le_eq_true_iff.mp hle).2.2 (not_le.mpr hlt)

theorem lt_trans {a b c : F64} (hab : a.lt b = true) (hbc : b.lt c = true) : a.lt c = true := by
  obtain ⟨ha, -, hab⟩ := lt_eq_true_iff.mp hab
  obtain ⟨-, hc, hbc⟩ := lt_eq_true_iff.mp hbc
  exact lt_eq_true_iff.mpr ⟨ha, hc, hab.trans hbc⟩

theorem zero_lt_tenth : zero.lt tenth = true := by decide +kernel

example : tenth.key = toLex (1, 3602879701896397 / 2 ^ 55) := by decide +kernel

/-! ### Rounding, negation and subtraction -/

theorem round_zero : round 0 = zero := by decide +kernel

theorem zero_le_tenth : zero.le tenth = true := by decide +kernel

/-- A rounded magnitude is 0 exactly at 0, and otherwise not negative. -/
theorem mag_nonneg (x : ℚ) :
    (0 : ℚ) ≤ roundHalfEven (|x| / 2 ^ quantumExp |x|) * 2 ^ quantumExp |x| :=
  mul_nonneg (by exact_mod_cast (roundHalfEven_mag_bounds (abs_nonneg x)).1)
    (zpow_nonneg (by norm_num) _)

theorem mag_zero : roundHalfEven (|(0 : ℚ)| / 2 ^ quantumExp |(0 : ℚ)|) = 0 := by
  simp [roundHalfEven]

/-- Rounding commutes with negation, since it rounds the magnitude. -/
theorem round_neg (x : ℚ) : round (-x) = (round x).neg := by
  rcases eq_or_ne x 0 with rfl | hx
  · rw [neg_zero, round_zero]
    rfl
  have hsign : decide (-x < 0) = !decide (x < 0) := by
    rcases hx.lt_or_gt with h | h
    · simp [h, h.le]
    · simp [h, not_lt.mpr h.le]
  unfold round
  simp only [abs_neg]
  split
  · simp only [neg]
    rw [hsign]
  · simp only [neg, finite.injEq]
    rcases hx.lt_or_gt with h | h
    · simp [h, not_lt.mpr (neg_nonneg.mpr h.le)]
    · simp [h, not_lt.mpr h.le]

/-- Rounding keeps the sign: a rounding above zero is of a positive rational. -/
theorem pos_of_zero_lt_round {x : ℚ} (h : zero.lt (round x) = true) : 0 < x := by
  by_contra hx
  have hx : x ≤ 0 := not_lt.mp hx
  unfold round at h
  split at h
  · rename_i hbig
    rcases hx.lt_or_eq with hneg | rfl
    · simp [zero, lt, hneg] at h
    · exact absurd hbig (by rw [mag_zero]; norm_num)
  · simp only [zero, lt, decide_eq_true_eq] at h
    split at h
    · linarith [mag_nonneg x]
    · rename_i hnneg
      have : x = 0 := le_antisymm hx (not_lt.mp hnneg)
      subst this
      rw [mag_zero] at h
      simp at h

theorem neg_lt_zero (x : F64) : x.neg.lt zero = zero.lt x := by
  cases x with
  | finite q hq => simp [neg, lt, zero]
  | inf n => cases n <;> rfl
  | nan => rfl

theorem abs_neg (x : F64) : x.neg.abs = x.abs := by
  cases x with
  | finite q hq => simp [neg, abs]
  | inf n => rfl
  | nan => rfl

/-- Swapping the operands negates a difference. -/
theorem sub_swap (a b : F64) : b.sub a = (a.sub b).neg := by
  cases a with
  | finite q hq => cases b with
    | finite r hr => simp only [sub]; rw [← round_neg, neg_sub]
    | inf n => simp [sub, neg]
    | nan => rfl
  | inf n => cases b with
    | finite r hr => simp [sub, neg]
    | inf m => cases n <;> cases m <;> rfl
    | nan => rfl
  | nan => cases b <;> rfl

/-- A double minus itself is zero or NaN, never above a weight that is not
negative. -/
theorem lt_sub_self {t : F64} (ht : zero.le t = true) (x : F64) : t.lt (x.sub x) = false := by
  cases x with
  | finite q hq =>
    simp only [sub, sub_self, round_zero]
    cases h : t.lt zero
    · rfl
    · rw [le_eq_false_of_lt h] at ht
      cases ht
  | inf n | nan => cases t <;> simp [sub, lt]

/-- A difference above zero puts its operands in order. -/
theorem key_lt_of_zero_lt_sub {a b : F64} (h : zero.lt (a.sub b) = true) : b.key < a.key := by
  cases a with
  | finite q hq => cases b with
    | finite r hr =>
      have := pos_of_zero_lt_round h
      simpa [key, Prod.Lex.toLex_lt_toLex] using this
    | inf n => cases n <;> simp_all [sub, zero, lt, key, Prod.Lex.toLex_lt_toLex]
    | nan => simp [sub, lt, zero] at h
  | inf n => cases b with
    | finite r hr => cases n <;> simp_all [sub, zero, lt, key, Prod.Lex.toLex_lt_toLex]
    | inf m => cases n <;> cases m <;> simp_all [sub, zero, lt, key, Prod.Lex.toLex_lt_toLex]
    | nan => simp [sub, lt, zero] at h
  | nan => simp [sub, lt, zero] at h

/-- A difference below zero puts its operands in the other order. -/
theorem key_lt_of_sub_lt_zero {a b : F64} (h : (a.sub b).lt zero = true) : a.key < b.key := by
  rw [sub_swap b a, neg_lt_zero] at h
  exact key_lt_of_zero_lt_sub h

theorem sub_self_finite (q : ℚ) (h : Representable q) : (finite q h).sub (finite q h) = zero := by
  simp only [sub, sub_self, round_zero]

theorem lt_asymm {a b : F64} (h : a.lt b = true) : b.lt a = false := by
  cases h' : b.lt a
  · rfl
  · exact absurd (lt_eq_true_iff.mp h).2.2 (not_lt.mpr (lt_eq_true_iff.mp h').2.2.le)

/-- `math.Abs` leaves a double that is not below zero as it is. -/
theorem abs_of_zero_le {x : F64} (h : zero.le x = true) : x.abs = x := by
  cases x with
  | finite q hq =>
    have hq0 : 0 ≤ q := by simpa [zero, le] using h
    simp [abs, abs_of_nonneg hq0]
  | inf n => cases n <;> simp_all [zero, le, abs]
  | nan => simp [zero, le] at h

/-- Above a weight that is not negative, a double keeps its place in `math.Abs`. -/
theorem lt_abs_of_lt {t x : F64} (ht : zero.le t = true) (h : t.lt x = true) :
    t.lt x.abs = true := by
  obtain ⟨-, hx, htx⟩ := lt_eq_true_iff.mp h
  have hzero : zero.le x = true :=
    le_eq_true_iff.mpr ⟨by decide, hx, (le_eq_true_iff.mp ht).2.2.trans htx.le⟩
  rwa [abs_of_zero_le hzero]

/-- A `math.Abs` above a weight that is not negative is of a double above the
weight or below its negation. -/
theorem lt_or_lt_neg_of_lt_abs {t x : F64} (ht : zero.le t = true) (h : t.lt x.abs = true) :
    t.lt x = true ∨ x.lt t.neg = true := by
  cases x with
  | finite q hq => cases t with
    | finite r hr =>
      have hlt : r < |q| := by simpa [abs, lt] using h
      rcases lt_abs.mp hlt with hq' | hq'
      · exact .inl (by simpa [lt] using hq')
      · exact .inr (by simp [lt, neg]; linarith)
    | inf m => cases m <;> simp_all [zero, le, lt, abs]
    | nan => simp [zero, le] at ht
  | inf n => cases t with
    | finite r hr => cases n <;> simp [lt, neg]
    | inf m => cases m <;> cases n <;> simp_all [zero, le, lt, abs]
    | nan => simp [zero, le] at ht
  | nan => cases t <;> simp [lt, abs] at h

/-- Above a positive weight, a double's negation is not. -/
theorem lt_neg_eq_false {t d : F64} (ht : zero.lt t = true) (h : t.lt d = true) :
    t.lt d.neg = false := by
  have hneg : d.neg.lt zero = true := by rw [neg_lt_zero]; exact lt_trans ht h
  cases h' : t.lt d.neg
  · rfl
  · have := lt_trans (lt_trans ht h') hneg
    simp [zero, lt] at this

end F64

end Go

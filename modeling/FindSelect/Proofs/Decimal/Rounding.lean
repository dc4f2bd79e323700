import Mathlib.Algebra.Order.Field.Power
import Mathlib.Algebra.Order.Ring.Rat
import Mathlib.Order.Monotone.Basic
import Mathlib.Tactic.FieldSimp
import Mathlib.Tactic.Linarith
import Mathlib.Tactic.NormNum
import Mathlib.Tactic.Positivity
import Mathlib.Tactic.Ring
import FindSelect.Decimal.Shortest

namespace FindSelect

/-- A power with an integer exponent, as a quotient of powers with natural ones. -/
theorem zpow_mul_pow_toNat {base : ℚ} (hbase : base ≠ 0) (q : ℤ) :
    base ^ q * base ^ (-q).toNat = base ^ q.toNat := by
  rw [← zpow_natCast base (-q).toNat, ← zpow_natCast base q.toNat, ← zpow_add₀ hbase]
  congr 1
  omega

/-- The number that a decimal stands for. -/
def Decimal.value (d : Decimal) : ℚ := d.digits * 10 ^ d.exponent

namespace Binary64

/-- The number with a magnitude. From infinity on the numbers go on as if the exponent field
    had no end, so that the largest finite one has a successor too. -/
def valueOf (magnitude : Nat) : ℚ := significandOf magnitude * 2 ^ exponentOf magnitude

/-- The number halfway between a magnitude and the next one. -/
def halfway (magnitude : Nat) : ℚ := (significandOf magnitude + 1 / 2) * 2 ^ exponentOf magnitude

/-- The next significand has the same exponent, unless it needs one more bit. -/
theorem significandOf_succ (n : Nat) :
    significandOf (n + 1) = significandOf n + 1 ∧ exponentOf (n + 1) = exponentOf n ∨
      2 * significandOf (n + 1) = significandOf n + 1 ∧ exponentOf (n + 1) = exponentOf n + 1 := by
  have hpow : Nat.pow 2 52 = 4503599627370496 := rfl
  simp only [significandOf, exponentOf, hpow]
  split <;> split <;> omega

/-- The next number has one more in the significand, also where the exponent changes. -/
theorem valueOf_succ (n : Nat) :
    valueOf (n + 1) = (significandOf n + 1) * 2 ^ exponentOf n := by
  rcases significandOf_succ n with ⟨hsignificand, hexponent⟩ | ⟨hsignificand, hexponent⟩
  · rw [valueOf, hsignificand, hexponent]
    push_cast
    rfl
  · have hcast : (2 * significandOf (n + 1) : ℚ) = significandOf n + 1 := by
      exact_mod_cast hsignificand
    rw [valueOf, hexponent, zpow_add_one₀ two_ne_zero, ← hcast]
    ring

theorem valueOf_lt_halfway (n : Nat) : valueOf n < halfway n := by
  have hpos : (0 : ℚ) < 2 ^ exponentOf n := by positivity
  exact mul_lt_mul_of_pos_right (by linarith) hpos

theorem halfway_lt_valueOf (n : Nat) : halfway n < valueOf (n + 1) := by
  have hpos : (0 : ℚ) < 2 ^ exponentOf n := by positivity
  rw [valueOf_succ]
  exact mul_lt_mul_of_pos_right (by linarith) hpos

/-- A larger magnitude is a larger number. -/
theorem valueOf_strictMono : StrictMono valueOf :=
  strictMono_nat_of_lt_succ fun n => (valueOf_lt_halfway n).trans (halfway_lt_valueOf n)

theorem halfway_pos (n : Nat) : 0 < halfway n := by
  unfold halfway
  positivity

/-- A number that is rounded to a magnitude or to one below it: the halfway point belongs to
    the even one of its two neighbours. -/
def Within (x : ℚ) (magnitude : Nat) : Prop :=
  if magnitude % 2 = 0 then x ≤ halfway magnitude else x < halfway magnitude

/-- Below the halfway point both rules for a tie agree. -/
theorem within_of_lt {x : ℚ} {magnitude : Nat} (h : x < halfway magnitude) :
    Within x magnitude := by
  unfold Within
  split
  · exact h.le
  · exact h

theorem Within.le {x : ℚ} {magnitude : Nat} (h : Within x magnitude) : x ≤ halfway magnitude := by
  unfold Within at h
  split at h
  · exact h
  · exact h.le

/-- The comparison of the products is that of the quotient with the halfway point. -/
theorem roundsWithin_iff {num den : Nat} (hden : 0 < den) (magnitude : Nat) :
    roundsWithin num den magnitude = true ↔ Within (num / den) magnitude := by
  have hden' : (0 : ℚ) < den := by exact_mod_cast hden
  have hscale : (0 : ℚ) < 2 ^ (-(exponentOf magnitude - 1)).toNat := by positivity
  -- Both sides are scaled by the denominator and by the power of two that keeps them whole.
  have hhalf : halfway magnitude * den * 2 ^ (-(exponentOf magnitude - 1)).toNat =
      ((2 * significandOf magnitude + 1) * 2 ^ (exponentOf magnitude - 1).toNat * den : ℕ) := by
    have hpow := zpow_mul_pow_toNat (two_ne_zero : (2 : ℚ) ≠ 0) (exponentOf magnitude - 1)
    have hexponent : (2 : ℚ) ^ exponentOf magnitude = 2 * 2 ^ (exponentOf magnitude - 1) := by
      rw [zpow_sub_one₀ two_ne_zero]
      ring
    push_cast
    rw [← hpow, halfway, hexponent]
    ring
  have hvalue : (num / den : ℚ) * den * 2 ^ (-(exponentOf magnitude - 1)).toNat =
      (num * 2 ^ (-(exponentOf magnitude - 1)).toNat : ℕ) := by
    rw [div_mul_cancel₀ _ hden'.ne']
    push_cast
    rfl
  have hle : (num / den : ℚ) ≤ halfway magnitude ↔
      num * 2 ^ (-(exponentOf magnitude - 1)).toNat ≤
        (2 * significandOf magnitude + 1) * 2 ^ (exponentOf magnitude - 1).toNat * den := by
    rw [← mul_le_mul_iff_of_pos_right hden', ← mul_le_mul_iff_of_pos_right hscale, hvalue, hhalf,
      Nat.cast_le]
  have hlt : (num / den : ℚ) < halfway magnitude ↔
      num * 2 ^ (-(exponentOf magnitude - 1)).toNat <
        (2 * significandOf magnitude + 1) * 2 ^ (exponentOf magnitude - 1).toNat * den := by
    rw [← mul_lt_mul_iff_of_pos_right hden', ← mul_lt_mul_iff_of_pos_right hscale, hvalue, hhalf,
      Nat.cast_lt]
  unfold roundsWithin Within
  dsimp only
  split
  · rw [hle]
    exact decide_eq_true_iff
  · rw [hlt]
    exact decide_eq_true_iff

/-- Bisection finds the place from which on `p` holds. -/
theorem leastFrom_eq {p : Nat → Bool} {least : Nat} (hp : ∀ n, p n = true ↔ least ≤ n)
    (bits low : Nat) (hlow : low ≤ least) (hhigh : least ≤ low + 2 ^ bits) :
    leastFrom p bits low = least := by
  induction bits generalizing low with
  | zero =>
    rw [leastFrom]
    split
    · rename_i h
      have := (hp low).1 h
      omega
    · rename_i h
      have hlt : ¬ least ≤ low := fun hle => h ((hp low).2 hle)
      rw [pow_zero] at hhigh
      omega
  | succ bits ih =>
    have hpos : 0 < 2 ^ bits := by positivity
    rw [pow_succ] at hhigh
    rw [leastFrom, Nat.pow_eq]
    split
    · rename_i h
      have hle := (hp _).1 h
      exact ih low hlow (by omega)
    · rename_i h
      have hlt : ¬ least ≤ low + 2 ^ bits - 1 := fun hle => h ((hp _).2 hle)
      exact ih _ (by omega) (by omega)

/-- The nearest magnitude is the first within which the quotient lies. -/
theorem nearest_eq {num den magnitude : Nat} (hden : 0 < den) (hmagnitude : magnitude ≤ infinite)
    (h : ∀ n < infinite, Within (num / den) n ↔ magnitude ≤ n) : nearest num den = magnitude := by
  have hbound : magnitude ≤ 0 + 2 ^ 63 := by
    have hinfinite : infinite ≤ 0 + 2 ^ 63 := by decide
    omega
  refine leastFrom_eq ?_ 63 0 (Nat.zero_le _) hbound
  intro n
  by_cases hn : infinite ≤ n
  · simp only [hn, decide_true, Bool.true_or, true_iff]
    omega
  · simp only [hn, decide_false, Bool.false_or]
    rw [roundsWithin_iff hden, h n (by omega)]

/-- The nearest magnitude depends on the quotient only. -/
theorem nearest_congr {num den num' den' : Nat} (hden : 0 < den) (hden' : 0 < den')
    (h : (num / den : ℚ) = num' / den') : nearest num den = nearest num' den' := by
  have hrounds (n : Nat) : roundsWithin num den n = roundsWithin num' den' n := by
    rw [Bool.eq_iff_iff, roundsWithin_iff hden, roundsWithin_iff hden', h]
  simp only [nearest, hrounds]

end Binary64

/-- The quotient of whole numbers that is rounded is the value of the decimal. -/
theorem Decimal.value_eq_div (d : Decimal) :
    d.value = (d.digits * 10 ^ d.exponent.toNat : ℕ) / (10 ^ (-d.exponent).toNat : ℕ) := by
  have hpos : ((10 ^ (-d.exponent).toNat : ℕ) : ℚ) ≠ 0 := by positivity
  rw [eq_div_iff hpos, value]
  push_cast
  rw [mul_assoc, zpow_mul_pow_toNat (by norm_num)]

namespace Binary64

/-- A number from `10 ^ 309` on lies beyond every finite magnitude. -/
theorem not_within_of_large {d : Decimal} (hdigits : d.digits ≠ 0) (hexponent : 309 ≤ d.exponent)
    {n : Nat} (hn : n < infinite) : ¬ Within d.value n := by
  have hlarge : (10 : ℚ) ^ (309 : ℤ) ≤ d.value := by
    have hone : (1 : ℚ) ≤ d.digits := by exact_mod_cast Nat.one_le_iff_ne_zero.2 hdigits
    have hpow : (10 : ℚ) ^ (309 : ℤ) ≤ 10 ^ d.exponent :=
      zpow_le_zpow_right₀ (by norm_num) hexponent
    calc (10 : ℚ) ^ (309 : ℤ) ≤ 1 * 10 ^ d.exponent := by rw [one_mul]; exact hpow
      _ ≤ d.value := mul_le_mul_of_nonneg_right hone (by positivity)
  have hinfinite : valueOf infinite < 10 ^ (309 : ℤ) := by
    have hsignificand : significandOf infinite = 2 ^ 52 := by decide
    have hexponent : exponentOf infinite = (972 : ℕ) := by decide
    have hnat : 2 ^ 52 * 2 ^ 972 < 10 ^ 309 := by decide +kernel
    rw [valueOf, hsignificand, hexponent, zpow_natCast, zpow_ofNat]
    exact_mod_cast hnat
  intro h
  have hle : valueOf (n + 1) ≤ valueOf infinite := valueOf_strictMono.monotone hn
  have hhalf := halfway_lt_valueOf n
  linarith [h.le]

/-- A number below `2 ^ (-1076)` lies below every halfway point. -/
theorem within_of_small {d : Decimal} (hdigits : d.digits.log2 + 1077 ≤ 3 * -d.exponent)
    (n : Nat) : Within d.value n := by
  have hmantissa : (d.digits : ℚ) < 2 ^ (d.digits.log2 + 1 : ℤ) := by
    exact_mod_cast Nat.lt_log2_self
  have hscale : (10 : ℚ) ^ d.exponent ≤ 2 ^ (3 * d.exponent) := by
    have height : (2 : ℚ) ^ (3 * d.exponent) = 8 ^ d.exponent := by
      rw [zpow_mul]
      norm_num
    have hneg : d.exponent = -((-d.exponent).toNat : ℤ) := by omega
    rw [height, hneg, zpow_neg, zpow_neg, zpow_natCast, zpow_natCast]
    exact inv_anti₀ (by positivity) (pow_le_pow_left₀ (by norm_num) (by norm_num) _)
  have hvalue : d.value < halfway 0 := by
    have hzero : halfway 0 = 2 ^ (-1075 : ℤ) := by
      have hexp : exponentOf 0 = -1074 := by decide
      have hsignificand : significandOf 0 = 0 := by decide
      have hsub : (-1075 : ℤ) = -1074 - 1 := rfl
      rw [halfway, hexp, hsignificand, hsub, zpow_sub_one₀ two_ne_zero, Nat.cast_zero]
      ring
    calc d.value ≤ d.digits * 2 ^ (3 * d.exponent) :=
          mul_le_mul_of_nonneg_left hscale (by positivity)
      _ < 2 ^ (d.digits.log2 + 1 : ℤ) * 2 ^ (3 * d.exponent) :=
          mul_lt_mul_of_pos_right hmantissa (by positivity)
      _ = 2 ^ (d.digits.log2 + 1 + 3 * d.exponent : ℤ) := (zpow_add₀ two_ne_zero _ _).symm
      _ ≤ 2 ^ (-1075 : ℤ) := zpow_le_zpow_right₀ (by norm_num) (by omega)
      _ = halfway 0 := hzero.symm
  apply within_of_lt
  rcases Nat.eq_zero_or_pos n with rfl | hn
  · exact hvalue
  · have hhalf := halfway_lt_valueOf 0
    have hle : valueOf (0 + 1) ≤ valueOf n := valueOf_strictMono.monotone hn
    linarith [valueOf_lt_halfway n]

/-- The short cuts for extreme exponents do not change the magnitude. -/
theorem magnitudeOf_eq_nearest (d : Decimal) :
    magnitudeOf d = nearest (d.digits * 10 ^ d.exponent.toNat) (10 ^ (-d.exponent).toNat) := by
  have hden : 0 < 10 ^ (-d.exponent).toNat := by positivity
  unfold magnitudeOf
  split
  · rename_i hzero
    refine (nearest_eq hden (Nat.zero_le _) ?_).symm
    intro n _
    have hvalue : d.value = 0 := by simp [Decimal.value, hzero]
    rw [← Decimal.value_eq_div, hvalue]
    exact ⟨fun _ => Nat.zero_le n, fun _ => within_of_lt (halfway_pos n)⟩
  rename_i hzero
  split
  · rename_i hlarge
    refine (nearest_eq hden le_rfl ?_).symm
    intro n hn
    rw [← Decimal.value_eq_div]
    exact ⟨fun h => absurd h (not_within_of_large hzero hlarge hn), fun h => by omega⟩
  split
  · rename_i hsmall
    refine (nearest_eq hden (Nat.zero_le _) ?_).symm
    intro n _
    rw [← Decimal.value_eq_div]
    exact ⟨fun _ => Nat.zero_le n, fun _ => within_of_small hsmall n⟩
  · rfl

/-- Decimals of the same value have the same magnitude. -/
theorem magnitudeOf_congr {d d' : Decimal} (h : d.value = d'.value) :
    magnitudeOf d = magnitudeOf d' := by
  rw [magnitudeOf_eq_nearest, magnitudeOf_eq_nearest]
  refine nearest_congr (by positivity) (by positivity) ?_
  rw [← Decimal.value_eq_div, ← Decimal.value_eq_div, h]

/-- The decimal expansion of a finite number is exact. -/
theorem value_expansion (x : Binary64) : x.expansion.value = valueOf x.magnitude.toNat := by
  have hvalue : valueOf x.magnitude.toNat = x.significand * 2 ^ x.exponent := rfl
  rw [hvalue]
  unfold expansion
  split
  · rename_i hexponent
    have hpow : (2 : ℚ) ^ x.exponent.toNat = 2 ^ x.exponent := by
      rw [← zpow_natCast, Int.toNat_of_nonneg hexponent]
    simp only [Decimal.value, Nat.pow_eq, Nat.cast_mul, Nat.cast_pow, Nat.cast_ofNat, zpow_zero,
      mul_one, hpow]
  · rename_i hexponent
    have hneg : ((-x.exponent).toNat : ℤ) = -x.exponent := Int.toNat_of_nonneg (by omega)
    have hpow : (5 : ℚ) ^ (-x.exponent).toNat * 10 ^ x.exponent = 2 ^ x.exponent := by
      have hten : (10 : ℚ) ^ x.exponent = 2 ^ x.exponent * 5 ^ x.exponent := by
        rw [← mul_zpow]
        norm_num
      rw [← zpow_natCast, hneg, hten, mul_left_comm, ← zpow_add₀ (by norm_num), neg_add_cancel,
        zpow_zero, mul_one]
    simp only [Decimal.value, Nat.pow_eq, Nat.cast_mul, Nat.cast_pow, Nat.cast_ofNat]
    rw [mul_assoc, hpow]

/-- The value of a finite magnitude is rounded to that magnitude. -/
theorem within_valueOf_iff (magnitude n : Nat) : Within (valueOf magnitude) n ↔ magnitude ≤ n := by
  constructor
  · intro h
    have hlt : valueOf magnitude < valueOf (n + 1) := h.le.trans_lt (halfway_lt_valueOf n)
    exact Nat.lt_succ_iff.1 (valueOf_strictMono.lt_iff_lt.1 hlt)
  · intro h
    have hle : valueOf magnitude ≤ valueOf n := valueOf_strictMono.monotone h
    exact within_of_lt (hle.trans_lt (valueOf_lt_halfway n))

/-- A finite number is rounded to itself. -/
theorem magnitudeOf_expansion {x : Binary64} (hx : x.isFinite = true) :
    magnitudeOf x.expansion = x.magnitude.toNat := by
  have hfinite : x.magnitude.toNat < infinite := by simpa [isFinite] using hx
  rw [magnitudeOf_eq_nearest]
  refine nearest_eq (by positivity) hfinite.le ?_
  intro n _
  rw [← Decimal.value_eq_div, value_expansion]
  exact within_valueOf_iff _ n

/-- The shortest decimal of a finite number is rounded to that number. -/
theorem magnitudeOf_shortest (tie : Tie) {x : Binary64} (hx : x.isFinite = true) :
    magnitudeOf (x.shortest tie) = x.magnitude.toNat := by
  unfold shortest
  dsimp only
  -- A candidate is taken only if it reads back; without one the exact expansion is left.
  generalize hfound : List.findSome? _ (List.range' 1 17) = found
  cases found with
  | some d =>
    obtain ⟨n, -, hcandidate⟩ := List.exists_of_findSome?_eq_some hfound
    have hreads : x.readsBack d = true := List.find?_some hcandidate
    simpa [readsBack] using hreads
  | none => exact magnitudeOf_expansion hx

end Binary64
end FindSelect

import GraphScript.Decimal.Shortest
import GraphScript.Proofs.Decimal.Double
import Mathlib

/-!
# Proofs/Decimal/Shortest — the shortest decimal tells doubles apart

The reals that round to a finite double form an interval (`Binary.Holds`), and no two doubles share
one (`eq_of_holds`): neighbouring intervals meet in one point at most, and of the two mantissas
there one is odd.  The search for the fewest digits ends with a decimal of the double's own interval
(`holds_shortest`), since the seventeenth digit is finer than every interval is wide.
-/

namespace GraphScript.Decimal

/-! ## Rounding intervals -/

namespace Binary

/-- A quarter of the unit in the last place. -/
def quarter (b : Binary) : ℚ := 2 ^ (b.exponent - 2)

/-- The lower end of the rounding interval. -/
def lower (b : Binary) : ℚ := ((4 * b.mantissa - b.below : ℕ) : ℚ) * b.quarter

/-- The upper end of the rounding interval. -/
def upper (b : Binary) : ℚ := ((4 * b.mantissa + 2 : ℕ) : ℚ) * b.quarter

/-- `q` rounds to `b`: it is in the interval, at an end only if the mantissa is even. -/
structure Holds (b : Binary) (q : ℚ) : Prop where
  lower_le : b.lower ≤ q
  le_upper : q ≤ b.upper
  even_of_lower : q = b.lower → b.mantissa % 2 = 0
  even_of_upper : q = b.upper → b.mantissa % 2 = 0

variable {b b' : Binary}

theorem quarter_pos (b : Binary) : 0 < b.quarter := zpow_pos two_pos _

/-- The interval is half as wide below a power of two, but for the smallest exponent. -/
theorem below_eq (b : Binary) :
    b.below = if b.mantissa = 0x10000000000000 ∧ -1074 < b.exponent then 1 else 2 := by
  simp [below]

/-- The quarter of a larger double is a multiple. -/
theorem quarter_eq (h : b.exponent ≤ b'.exponent) :
    b'.quarter = ((2 ^ (b'.exponent - b.exponent).toNat : ℕ) : ℚ) * b.quarter := by
  have hexp : b'.exponent - 2 = ((b'.exponent - b.exponent).toNat : ℤ) + (b.exponent - 2) := by
    omega
  rw [quarter, quarter, hexp, zpow_add₀ two_ne_zero, zpow_natCast]
  push_cast
  rfl

/-- The order of doubles by their exponents, then by their mantissas. -/
def Precedes (b b' : Binary) : Prop :=
  b.exponent < b'.exponent ∨ b.exponent = b'.exponent ∧ b.mantissa < b'.mantissa

/-- In quarters of the smaller double, its upper end is not above the lower end of the larger one,
and where they meet one mantissa is odd. -/
theorem Precedes.quarters (hb : b.Canonical) (hb' : b'.Canonical) (h : b.Precedes b') :
    4 * b.mantissa + 2 ≤
        (4 * b'.mantissa - b'.below) * 2 ^ (b'.exponent - b.exponent).toNat ∧
      (4 * b.mantissa + 2 = (4 * b'.mantissa - b'.below) * 2 ^ (b'.exponent - b.exponent).toNat →
        b.mantissa % 2 = 0 → b'.mantissa % 2 = 1) := by
  have hlt := hb.lt
  have hbelow := below_eq b'
  rcases h with hexp | ⟨hexp, hm⟩
  · have hleast := hb.least
    have hnormal : 0x10000000000000 ≤ b'.mantissa := hb'.normal.resolve_left (by omega)
    have htwo : 2 ^ 1 ≤ 2 ^ (b'.exponent - b.exponent).toNat :=
      Nat.pow_le_pow_right (by decide) (by omega)
    have hscaled := Nat.mul_le_mul_left (4 * b'.mantissa - b'.below) htwo
    -- the least lower end of a larger exponent is where the greatest mantissa, an odd one, ends
    have hend : 4 * 0x1fffffffffffff + 2 ≤ (4 * b'.mantissa - b'.below) * 2 := by
      split at hbelow <;> omega
    omega
  · rw [hexp, Int.sub_self, Int.toNat_zero, pow_zero, Nat.mul_one]
    split at hbelow <;> omega

/-- The interval of a number ends before the next one begins; where they touch, at most one owns the
end. -/
theorem upper_le_lower (hb : b.Canonical) (hb' : b'.Canonical) (h : b.Precedes b') :
    b.upper ≤ b'.lower ∧ (b.upper = b'.lower → b.mantissa % 2 = 0 → b'.mantissa % 2 = 1) := by
  have hexp : b.exponent ≤ b'.exponent := by
    rcases h with h | h <;> omega
  have hlower : b'.lower =
      (((4 * b'.mantissa - b'.below) * 2 ^ (b'.exponent - b.exponent).toNat : ℕ) : ℚ) *
        b.quarter := by
    rw [lower, quarter_eq hexp, ← mul_assoc, Nat.cast_mul]
  obtain ⟨hle, hmeet⟩ := h.quarters hb hb'
  rw [hlower, upper]
  refine ⟨mul_le_mul_of_nonneg_right (Nat.cast_le.mpr hle) b.quarter_pos.le, fun heq => hmeet ?_⟩
  exact Nat.cast_injective (mul_right_cancel₀ b.quarter_pos.ne' heq)

/-- Intervals of different numbers are apart. -/
theorem Precedes.not_holds (hb : b.Canonical) (hb' : b'.Canonical) (h : b.Precedes b') {q : ℚ}
    (hq : b.Holds q) : ¬ b'.Holds q := by
  intro hq'
  obtain ⟨hle, hmeet⟩ := upper_le_lower hb hb' h
  have hupper : q = b.upper := le_antisymm hq.le_upper (hle.trans hq'.lower_le)
  have hlower : q = b'.lower := le_antisymm (hq.le_upper.trans hle) hq'.lower_le
  have hodd := hmeet (hupper.symm.trans hlower) (hq.even_of_upper hupper)
  have heven := hq'.even_of_lower hlower
  omega

/-- **No two finite doubles share a number that rounds to both.** -/
theorem eq_of_holds (hb : b.Canonical) (hb' : b'.Canonical) {q : ℚ} (hq : b.Holds q)
    (hq' : b'.Holds q) : b = b' := by
  have h := mt (fun h => Precedes.not_holds hb hb' h hq) (not_not.mpr hq')
  have h' := mt (fun h => Precedes.not_holds hb' hb h hq') (not_not.mpr hq)
  have hexp : b.exponent = b'.exponent := by
    unfold Precedes at h h'
    omega
  have hm : b.mantissa = b'.mantissa := by
    unfold Precedes at h h'
    omega
  obtain ⟨m, e⟩ := b
  obtain ⟨m', e'⟩ := b'
  simp only at hexp hm
  rw [hexp, hm]

/-- Whatever rounds to a finite double that is not zero is positive. -/
theorem Holds.pos (hb : b.Canonical) {q : ℚ} (hq : b.Holds q) : 0 < q := by
  have hpos := hb.pos
  have hbelow := below_eq b
  have hunits : 0 < 4 * b.mantissa - b.below := by
    split at hbelow <;> omega
  exact (mul_pos (Nat.cast_pos.mpr hunits) b.quarter_pos).trans_le hq.lower_le

end Binary

/-! ## Grids -/

/-- A power with an integer exponent is a fraction of two powers. -/
theorem zpow_mul_pow_toNat (a : ℕ) (ha : a ≠ 0) (z : ℤ) :
    (a : ℚ) ^ z * ((a ^ (-z).toNat : ℕ) : ℚ) = ((a ^ z.toNat : ℕ) : ℚ) := by
  have ha' : (a : ℚ) ≠ 0 := Nat.cast_ne_zero.mpr ha
  push_cast
  rw [← zpow_natCast, ← zpow_natCast, ← zpow_add₀ ha']
  congr 1
  omega

namespace Ratio

variable (units units' c : ℕ) (e grid : ℤ)

theorem den_pos : 0 < (onGrid units e grid).den :=
  Nat.mul_pos (Nat.pow_pos two_pos) (Nat.pow_pos (by decide))

/-- The fraction is `units * 2 ^ e / 10 ^ grid`. -/
theorem num_mul_zpow : ((onGrid units e grid).num : ℚ) * 10 ^ grid =
    (units : ℚ) * 2 ^ e * ((onGrid units' e grid).den : ℚ) := by
  have htwo := zpow_mul_pow_toNat 2 two_ne_zero e
  have hten := zpow_mul_pow_toNat 10 (by decide) grid
  simp only [onGrid, Nat.pow_eq]
  rw [Nat.cast_mul, Nat.cast_mul, Nat.cast_mul, ← htwo, ← hten]
  push_cast
  ring

/-- Comparing the fraction with a point of the grid is comparing what they stand for. -/
theorem num_le_iff : (onGrid units e grid).num ≤ c * (onGrid units' e grid).den ↔
    (units : ℚ) * 2 ^ e ≤ c * 10 ^ grid := by
  have hden : (0 : ℚ) < (onGrid units' e grid).den := Nat.cast_pos.mpr (den_pos _ _ _)
  have hten : (0 : ℚ) < 10 ^ grid := zpow_pos (by norm_num) _
  rw [← Nat.cast_le (α := ℚ), ← mul_le_mul_iff_left₀ hten, num_mul_zpow units units',
    Nat.cast_mul, mul_right_comm (c : ℚ), mul_le_mul_iff_left₀ hden]

theorem le_num_iff : c * (onGrid units' e grid).den ≤ (onGrid units e grid).num ↔
    c * 10 ^ grid ≤ (units : ℚ) * 2 ^ e := by
  have hden : (0 : ℚ) < (onGrid units' e grid).den := Nat.cast_pos.mpr (den_pos _ _ _)
  have hten : (0 : ℚ) < 10 ^ grid := zpow_pos (by norm_num) _
  rw [← Nat.cast_le (α := ℚ), ← mul_le_mul_iff_left₀ hten, num_mul_zpow units units',
    Nat.cast_mul, mul_right_comm (c : ℚ), mul_le_mul_iff_left₀ hden]

theorem num_lt_iff : (onGrid units e grid).num < c * (onGrid units' e grid).den ↔
    (units : ℚ) * 2 ^ e < c * 10 ^ grid := by
  rw [← not_le, ← not_le, le_num_iff]

theorem lt_num_iff : c * (onGrid units' e grid).den < (onGrid units e grid).num ↔
    c * 10 ^ grid < (units : ℚ) * 2 ^ e := by
  rw [← not_le, ← not_le, num_le_iff]

end Ratio

namespace Binary

variable {b : Binary}

/-- The value of a binary. -/
def value (b : Binary) : ℚ := ((4 * b.mantissa : ℕ) : ℚ) * b.quarter

/-- A number is its mantissa, scaled. -/
theorem value_eq (b : Binary) : b.value = (b.mantissa : ℚ) * 2 ^ b.exponent := by
  rw [value, quarter, zpow_sub₀ two_ne_zero]
  push_cast
  ring

/-- Everything strictly between the ends is held. -/
theorem holds_of_lt {q : ℚ} (hlower : b.lower < q) (hupper : q < b.upper) : b.Holds q :=
  ⟨hlower.le, hupper.le, fun h => absurd h hlower.ne', fun h => absurd h hupper.ne⟩

/-- A number lies inside its interval, above the lower end. -/
theorem lower_lt_value (hb : b.Canonical) : b.lower < b.value := by
  have hpos := hb.pos
  have hbelow := below_eq b
  refine mul_lt_mul_of_pos_right (Nat.cast_lt.mpr ?_) b.quarter_pos
  split at hbelow <;> omega

theorem value_lt_upper (b : Binary) : b.value < b.upper :=
  mul_lt_mul_of_pos_right (Nat.cast_lt.mpr (by omega)) b.quarter_pos

/-- A double is less than `10 ^ 16` times as large as its interval is wide. -/
theorem value_lt_width (hb : b.Canonical) : b.value < 10 ^ 16 * (b.upper - b.lower) := by
  have hpos := hb.pos
  have hlt := hb.lt
  have hbelow := below_eq b
  have hle : b.below ≤ 4 * b.mantissa := by split at hbelow <;> omega
  have hwide : 4 * b.mantissa < 10 ^ 16 * (2 + b.below) := by split at hbelow <;> omega
  have hwidth : b.upper - b.lower = ((2 + b.below : ℕ) : ℚ) * b.quarter := by
    rw [upper, lower, Nat.cast_sub hle]
    push_cast
    ring
  rw [hwidth, value, ← mul_assoc]
  refine mul_lt_mul_of_pos_right ?_ b.quarter_pos
  exact_mod_cast hwide

/-- The test of a point of the grid against the ends of the interval. -/
theorem inside_iff (b : Binary) (grid : ℤ) (c : ℕ) :
    (if b.mantissa % 2 == 0 then
      decide ((Ratio.onGrid (4 * b.mantissa - b.below) (b.exponent - 2) grid).num ≤
          c * (Ratio.onGrid (4 * b.mantissa) (b.exponent - 2) grid).den) &&
        decide (c * (Ratio.onGrid (4 * b.mantissa) (b.exponent - 2) grid).den ≤
          (Ratio.onGrid (4 * b.mantissa + 2) (b.exponent - 2) grid).num)
    else
      decide ((Ratio.onGrid (4 * b.mantissa - b.below) (b.exponent - 2) grid).num <
          c * (Ratio.onGrid (4 * b.mantissa) (b.exponent - 2) grid).den) &&
        decide (c * (Ratio.onGrid (4 * b.mantissa) (b.exponent - 2) grid).den <
          (Ratio.onGrid (4 * b.mantissa + 2) (b.exponent - 2) grid).num)) = true ↔
      b.Holds (c * 10 ^ grid) := by
  split
  · rename_i heven
    rw [Bool.and_eq_true, decide_eq_true_eq, decide_eq_true_eq, Ratio.num_le_iff, Ratio.le_num_iff]
    have heven := beq_iff_eq.mp heven
    exact ⟨fun h => ⟨h.1, h.2, fun _ => heven, fun _ => heven⟩, fun h => ⟨h.lower_le, h.le_upper⟩⟩
  · rename_i hodd
    rw [Bool.and_eq_true, decide_eq_true_eq, decide_eq_true_eq, Ratio.num_lt_iff, Ratio.lt_num_iff]
    have hodd := mt beq_iff_eq.mpr hodd
    exact ⟨fun h => holds_of_lt h.1 h.2, fun h =>
      ⟨h.lower_le.lt_of_ne fun heq => hodd (h.even_of_lower heq.symm),
        h.le_upper.lt_of_ne fun heq => hodd (h.even_of_upper heq)⟩⟩

/-- The nearer point is one of the two neighbours. -/
theorem nearer_eq (tie : Tie) (r : Ratio) (c : ℕ) :
    nearer tie r c = c ∨ nearer tie r c = c + 1 := by
  simp only [nearer]
  split
  · exact .inl rfl
  · split
    · exact .inr rfl
    · split
      · exact .inr rfl
      · split
        · exact .inl rfl
        · exact .inr rfl

/-- The point of the grid at or below the value. -/
def floorOn (b : Binary) (grid : ℤ) : ℕ :=
  (Ratio.onGrid (4 * b.mantissa) (b.exponent - 2) grid).num /
    (Ratio.onGrid (4 * b.mantissa) (b.exponent - 2) grid).den

/-- The lower neighbour on a grid is not above the number. -/
theorem floorOn_le (b : Binary) (grid : ℤ) : (b.floorOn grid : ℚ) * 10 ^ grid ≤ b.value :=
  (Ratio.le_num_iff _ (4 * b.mantissa) _ _ _).mp (Nat.div_mul_le_self _ _)

/-- The point behind the lower neighbour on a grid is above the number. -/
theorem lt_floorOn_succ (b : Binary) (grid : ℤ) :
    b.value < ((b.floorOn grid + 1 : ℕ) : ℚ) * 10 ^ grid :=
  (Ratio.num_lt_iff _ (4 * b.mantissa) _ _ _).mp
    (Nat.lt_mul_of_div_lt (Nat.lt_succ_self _) (Ratio.den_pos _ _ _))

/-- **What is hit rounds to the double**, and nothing is hit only if neither neighbour does. -/
theorem hit_cases (tie : Tie) (b : Binary) (grid : ℤ) :
    (∃ c, b.hit tie grid = some c ∧ b.Holds (c * 10 ^ grid)) ∨
      b.hit tie grid = none ∧ ¬ b.Holds (b.floorOn grid * 10 ^ grid) ∧
        ¬ b.Holds ((b.floorOn grid + 1 : ℕ) * 10 ^ grid) := by
  simp only [hit]
  split
  · rename_i hc hc'
    refine .inl ⟨_, rfl, ?_⟩
    rcases nearer_eq tie _ (b.floorOn grid) with h | h
    · exact h ▸ (inside_iff b grid _).mp hc
    · exact h ▸ (inside_iff b grid _).mp hc'
  · rename_i hc _
    exact .inl ⟨_, rfl, (inside_iff b grid _).mp hc⟩
  · rename_i _ hc
    exact .inl ⟨_, rfl, (inside_iff b grid _).mp hc⟩
  · rename_i hc hc'
    exact .inr ⟨rfl, mt (inside_iff b grid _).mpr (Bool.eq_false_iff.mp hc),
      mt (inside_iff b grid _).mpr (Bool.eq_false_iff.mp hc')⟩

/-- The interval is wider than the grid on which the value has seventeen digits. -/
theorem hit_ne_none (tie : Tie) (hb : b.Canonical) {grid : ℤ}
    (h : 10 ^ 16 * (10 : ℚ) ^ grid ≤ b.value) : b.hit tie grid ≠ none := by
  rcases hit_cases tie b grid with ⟨c, hc, -⟩ | ⟨-, hfloor, hsucc⟩
  · rw [hc]
    exact Option.some_ne_none c
  · exfalso
    have hlow : (b.floorOn grid : ℚ) * 10 ^ grid ≤ b.lower := by
      by_contra hlt
      exact hfloor (holds_of_lt (not_le.mp hlt) ((b.floorOn_le grid).trans_lt b.value_lt_upper))
    have hup : b.upper ≤ ((b.floorOn grid + 1 : ℕ) : ℚ) * 10 ^ grid := by
      by_contra hlt
      exact hsucc (holds_of_lt ((lower_lt_value hb).trans (b.lt_floorOn_succ grid)) (not_le.mp hlt))
    have hwidth : b.upper - b.lower ≤ 10 ^ grid := by
      push_cast at hup
      linarith
    linarith [value_lt_width hb]

/-! ## The search -/

/-- A number has no more digits than its size asks for. -/
theorem pow_le_of_pos {n : ℕ} (hn : 0 < n) : 10 ^ (digitCount n - 1) ≤ n := by
  by_contra hlt
  have hcount : 0 < digitCount n := Nat.length_toDigits_pos
  rcases Nat.eq_zero_or_pos (digitCount n - 1) with hzero | hpos
  · rw [hzero, pow_zero] at hlt
    omega
  · have hle : digitCount n ≤ digitCount n - 1 :=
      (Nat.length_toDigits_le_iff (by decide) hpos).mpr (not_le.mp hlt)
    omega

theorem lt_pow_digitCount (n : ℕ) : n < 10 ^ digitCount n :=
  (Nat.length_toDigits_le_iff (by decide) Nat.length_toDigits_pos).mp le_rfl

/-- A quotient is at least the power of ten that the numbers of digits differ by, less one. -/
theorem zpow_digitCount_le {p : ℕ} (hp : 0 < p) (q : ℕ) :
    (10 : ℚ) ^ ((digitCount p : ℤ) - digitCount q - 1) * q ≤ p := by
  have hcount : 0 < digitCount p := Nat.length_toDigits_pos
  have hten : (10 : ℚ) ^ ((digitCount p : ℤ) - digitCount q - 1) * 10 ^ digitCount q =
      10 ^ (digitCount p - 1) := by
    rw [← zpow_natCast, ← zpow_natCast, ← zpow_add₀ (by norm_num)]
    congr 1
    omega
  calc (10 : ℚ) ^ ((digitCount p : ℤ) - digitCount q - 1) * q
      ≤ 10 ^ ((digitCount p : ℤ) - digitCount q - 1) * 10 ^ digitCount q :=
        mul_le_mul_of_nonneg_left (by exact_mod_cast (lt_pow_digitCount q).le) (by positivity)
    _ = 10 ^ (digitCount p - 1) := hten
    _ ≤ p := by exact_mod_cast pow_le_of_pos hp

/-- The leading digit of a value is not above it. -/
theorem zpow_leading_le (hm : 0 < b.mantissa) : (10 : ℚ) ^ b.leading ≤ b.value := by
  rw [value_eq]
  simp only [leading]
  split
  · rename_i hle
    have := (Ratio.le_num_iff b.mantissa b.mantissa 1 _ _).mp (by rw [Nat.one_mul]; exact hle)
    rwa [Nat.cast_one, one_mul] at this
  · have hden : (0 : ℚ) < (Ratio.onGrid b.mantissa b.exponent 0).den :=
      Nat.cast_pos.mpr (Ratio.den_pos _ _ _)
    have hnum : 0 < (Ratio.onGrid b.mantissa b.exponent 0).num :=
      Nat.mul_pos (Nat.mul_pos hm (Nat.pow_pos two_pos)) (Nat.pow_pos (by decide))
    have hratio := Ratio.num_mul_zpow b.mantissa b.mantissa b.exponent 0
    rw [zpow_zero, mul_one] at hratio
    rw [← mul_le_mul_iff_left₀ hden, ← hratio]
    exact zpow_digitCount_le hnum _

/-- The seventeenth grid always hits. -/
theorem hit_seventeen_ne_none (tie : Tie) (hb : b.Canonical) :
    b.hit tie (b.leading - (17 : ℕ) + 1) ≠ none := by
  refine hit_ne_none tie hb ?_
  have hlead : (10 : ℚ) ^ 16 * 10 ^ (b.leading - (17 : ℕ) + 1) = 10 ^ b.leading := by
    rw [← zpow_natCast, ← zpow_add₀ (by norm_num)]
    congr 1
    omega
  rw [hlead]
  exact zpow_leading_le hb.pos

/-- **The search ends with a point of a grid that rounds to the double.** -/
theorem search_eq_ofGrid (tie : Tie) (hb : b.Canonical) : ∀ fuel count : ℕ, count + fuel = 17 →
    ∃ c grid, b.search tie b.leading (fuel + 1) count = .ofGrid c grid ∧
      b.Holds (c * 10 ^ grid)
  | fuel, count, hcount => by
      rw [search]
      rcases hit_cases tie b (b.leading - count + 1) with ⟨c, hc, hholds⟩ | ⟨hnone, -⟩
      · simp only [hc]
        exact ⟨c, _, rfl, hholds⟩
      · cases fuel with
        | zero =>
          obtain rfl : count = 17 := hcount
          exact absurd hnone (hit_seventeen_ne_none tie hb)
        | succ fuel =>
          simp only [hnone]
          exact search_eq_ofGrid tie hb fuel (count + 1) (by omega)

end Binary

/-! ## The value of a decimal -/

/-- The digits as a whole number, times a power of ten. -/
def scaled (ds : List Char) (e : ℤ) : ℚ := (Nat.ofDigitChars 10 ds 0 : ℚ) * 10 ^ e

/-- Zeros at the end scale the value. -/
theorem scaled_append_zeros (ds : List Char) (n : ℕ) (e : ℤ) :
    scaled (ds ++ List.replicate n '0') e = scaled ds (e + n) := by
  rw [scaled, scaled, Nat.ofDigitChars_append, Nat.ofDigitChars_replicate_zero,
    zpow_add₀ (by norm_num), zpow_natCast]
  push_cast
  ring

/-- Zeros in front do not change the value. -/
theorem scaled_zeros_append (n : ℕ) (ds : List Char) (e : ℤ) :
    scaled (List.replicate n '0' ++ ds) e = scaled ds e := by
  rw [scaled, scaled, Nat.ofDigitChars_append, Nat.ofDigitChars_replicate_zero, Nat.mul_zero]

/-- What was stripped off were zeros. -/
theorem exists_stripZeros : ∀ ds : List Char, ∃ n, ds = stripZeros ds ++ List.replicate n '0'
  | [] => ⟨0, rfl⟩
  | d :: r => by
      have hzeros : ∀ c ∈ (r.reverse.takeWhile (· == '0')).reverse, c = '0' := fun c hc => by
        have htaken := List.mem_takeWhile_imp (List.mem_reverse.mp hc)
        exact beq_iff_eq.mp htaken
      have hsplit : r = (r.reverse.dropWhile (· == '0')).reverse ++
          (r.reverse.takeWhile (· == '0')).reverse := by
        rw [← List.reverse_append, List.takeWhile_append_dropWhile, List.reverse_reverse]
      refine ⟨(r.reverse.takeWhile (· == '0')).reverse.length, ?_⟩
      rw [stripZeros, List.cons_append, ← List.eq_replicate_of_mem hzeros, ← hsplit]

namespace Scientific

/-- The number that a decimal is. -/
def value (s : Scientific) : ℚ := scaled s.digits (s.exponent + 1 - s.digits.length)

/-- A decimal made from a point of a grid has the value of that point. -/
theorem value_ofGrid (c : ℕ) (grid : ℤ) : (ofGrid c grid).value = c * 10 ^ grid := by
  obtain ⟨n, hn⟩ := exists_stripZeros (Nat.toDigits 10 c)
  have hlength := congrArg List.length hn
  rw [List.length_append, List.length_replicate] at hlength
  have hexp : grid + ((Nat.toDigits 10 c).length : ℤ) - 1 + 1 -
      ((stripZeros (Nat.toDigits 10 c)).length : ℤ) = grid + n := by omega
  rw [value]
  simp only [ofGrid]
  rw [hexp, ← scaled_append_zeros, ← hn, scaled, Nat.ofDigitChars_ten_toDigits]

end Scientific

/-- **The shortest decimal rounds to the double it is written for.** -/
theorem Binary.holds_shortest (tie : Tie) {b : Binary} (hb : b.Canonical) :
    b.Holds (b.shortest tie).value := by
  obtain ⟨c, grid, heq, hholds⟩ := search_eq_ofGrid tie hb 16 1 rfl
  rw [shortest, heq, Scientific.value_ofGrid]
  exact hholds

end GraphScript.Decimal

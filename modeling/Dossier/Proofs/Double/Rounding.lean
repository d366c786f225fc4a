/-
Doubles as the numbers that they stand for. The order of ranks is the order of these numbers, and the double nearest to
an integer of 64 bits stands for the integer rounded to 53 binary digits. So integers that are compared as doubles are
compared after rounding: never the wrong way round, and up to 2 ^ 53 as they are.
-/
import Dossier.Double.Basic
import Mathlib.Order.Monotone.Basic
import Mathlib.Tactic.Linarith
import Mathlib.Tactic.Positivity
import Mathlib.Tactic.Ring

namespace Dossier.Double

/-! ## Order -/

/-- The number of units, the least positive double being one unit, that the magnitude bits of a double stand for. -/
def unitsOf (magnitude : Nat) : Nat :=
  if magnitude / leadingBit = 0 then magnitude
  else (magnitude % leadingBit + leadingBit) * 2 ^ (magnitude / leadingBit - 1)

/-- The number that a finite double stands for, in units of the least positive double. -/
def units (x : Double) : Int := if x.isNegative then -(unitsOf x.magnitude : Int) else unitsOf x.magnitude

theorem unitsOf_lt_succ (m : Nat) : unitsOf m < unitsOf (m + 1) := by
  -- the next magnitude lies in the same binade, or is the first one of the next binade
  have hpow (n : Nat) : 0 < 2 ^ n := Nat.two_pow_pos n
  have hsplit : ((m + 1) / leadingBit = m / leadingBit ∧ (m + 1) % leadingBit = m % leadingBit + 1) ∨
      ((m + 1) / leadingBit = m / leadingBit + 1 ∧ (m + 1) % leadingBit = 0 ∧ m % leadingBit + 1 = leadingBit) := by
    unfold leadingBit
    omega
  unfold unitsOf
  rcases hsplit with ⟨hdiv, hmod⟩ | ⟨hdiv, hmod, hlast⟩
  · rw [hdiv, hmod]
    split
    · omega
    · exact Nat.mul_lt_mul_of_pos_right (by omega) (hpow _)
  · rw [hdiv, hmod, if_neg (Nat.succ_ne_zero _), Nat.add_sub_cancel]
    split
    · rename_i hzero
      rw [hzero, pow_zero]
      have := Nat.div_add_mod m leadingBit
      rw [hzero] at this
      omega
    · rename_i hpos
      have hbinade : 2 ^ (m / leadingBit) = 2 ^ (m / leadingBit - 1) * 2 := by
        rw [← pow_succ, Nat.sub_add_cancel (Nat.one_le_iff_ne_zero.2 hpos)]
      rw [hbinade]
      have := hpow (m / leadingBit - 1)
      nlinarith

theorem unitsOf_strictMono : StrictMono unitsOf := strictMono_nat_of_lt_succ unitsOf_lt_succ

/-- The order of ranks is the order of numbers. -/
theorem rank_lt_iff (x y : Double) : x.rank < y.rank ↔ x.units < y.units := by
  have hzero : unitsOf 0 = 0 := rfl
  have hmono {m n : Nat} : unitsOf m < unitsOf n ↔ m < n := unitsOf_strictMono.lt_iff_lt
  have hpos {m : Nat} : 0 < unitsOf m ↔ 0 < m := by simpa [hzero] using @hmono 0 m
  unfold rank units
  have h1 := @hmono x.magnitude y.magnitude
  have h2 := @hmono y.magnitude x.magnitude
  have h3 := @hpos x.magnitude
  have h4 := @hpos y.magnitude
  split <;> split <;> omega

theorem compare_congr {i j k l : Int} (hlt : i < j ↔ k < l) (hgt : j < i ↔ l < k) : compare i j = compare k l := by
  rcases Int.lt_trichotomy i j with h | h | h
  · rw [Int.compare_eq_lt.2 h, Int.compare_eq_lt.2 (hlt.1 h)]
  · rw [Int.compare_eq_eq.2 h, Int.compare_eq_eq.2 (by omega)]
  · rw [Int.compare_eq_gt.2 h, Int.compare_eq_gt.2 (hgt.1 h)]

theorem compare_rank (x y : Double) : compare x.rank y.rank = compare x.units y.units :=
  compare_congr (rank_lt_iff x y) (rank_lt_iff y x)

/-! ## Rounding integers -/

variable {n m d : Nat}

theorem roundHalfEven_bounds (n d : Nat) : n / d ≤ roundHalfEven n d ∧ roundHalfEven n d ≤ n / d + 1 := by
  unfold roundHalfEven
  dsimp only
  split <;> omega

theorem roundHalfEven_mul (k : Nat) (hd : 0 < d) : roundHalfEven (k * d) d = k := by
  unfold roundHalfEven
  rw [Nat.mul_mod_left, Nat.mul_div_cancel _ hd, Nat.mul_zero, Nat.compare_eq_lt.2 hd]

theorem roundHalfEven_mono (h : m ≤ n) : roundHalfEven m d ≤ roundHalfEven n d := by
  rcases (Nat.div_le_div_right (c := d) h).lt_or_eq with hlt | heq
  · have := (roundHalfEven_bounds m d).2
    have := (roundHalfEven_bounds n d).1
    omega
  · have hmod : m % d ≤ n % d := by
      have := Nat.div_add_mod m d
      have := Nat.div_add_mod n d
      rw [heq] at *
      omega
    unfold roundHalfEven
    dsimp only
    rw [heq]
    split <;> split <;> simp only [Nat.compare_eq_lt, Nat.compare_eq_eq, Nat.compare_eq_gt] at * <;> omega

/-- A natural number rounded to 53 binary digits, a half going to the even neighbour. -/
def roundNat (n : Nat) : Nat := roundHalfEven n (2 ^ (n.log2 - 52)) * 2 ^ (n.log2 - 52)

/-- An integer rounded to 53 binary digits, a half going to the even neighbour. -/
def rounded (i : Int) : Int := if i < 0 then -(roundNat i.natAbs : Int) else roundNat i.natAbs

/-- Up to 53 digits there is nothing to round. -/
theorem roundNat_eq_self (h : n ≤ 2 ^ 53) : roundNat n = n := by
  rcases h.lt_or_eq with hlt | rfl
  · have hlog : n.log2 - 52 = 0 := by
      rcases Nat.eq_zero_or_pos n with rfl | hpos
      · rfl
      · have := (Nat.log2_lt hpos.ne').2 hlt
        omega
    unfold roundNat
    rw [hlog, pow_zero, Nat.mul_one]
    simpa using roundHalfEven_mul n Nat.one_pos
  · decide

theorem roundNat_bounds (hn : n ≠ 0) : 2 ^ n.log2 ≤ roundNat n ∧ roundNat n ≤ 2 ^ (n.log2 + 1) := by
  have hlow := Nat.log2_self_le hn
  have hhigh := (Nat.lt_log2_self (n := n)).le
  by_cases hlog : n.log2 ≤ 52
  · have hpow : 2 ^ (n.log2 + 1) ≤ 2 ^ 53 := Nat.pow_le_pow_right (by decide) (by omega)
    rw [roundNat_eq_self (hhigh.trans hpow)]
    exact ⟨hlow, hhigh⟩
  · obtain ⟨k, hk⟩ : ∃ k, n.log2 = 52 + k := ⟨n.log2 - 52, by omega⟩
    have hd : 0 < 2 ^ k := Nat.two_pow_pos k
    unfold roundNat
    rw [hk, Nat.add_sub_cancel_left, Nat.add_right_comm, pow_add, pow_add]
    rw [hk, pow_add] at hlow
    rw [hk, Nat.add_right_comm, pow_add] at hhigh
    constructor
    · refine Nat.mul_le_mul_right _ ?_
      rw [← roundHalfEven_mul (2 ^ 52) hd]
      exact roundHalfEven_mono hlow
    · refine Nat.mul_le_mul_right _ ?_
      rw [← roundHalfEven_mul (2 ^ (52 + 1)) hd]
      exact roundHalfEven_mono hhigh

theorem roundNat_mono : Monotone roundNat := by
  intro m n h
  rcases Nat.eq_zero_or_pos m with rfl | hm
  · exact Nat.zero_le _
  have hn : n ≠ 0 := by omega
  have hlog : m.log2 ≤ n.log2 := (Nat.le_log2 hn).2 ((Nat.log2_self_le hm.ne').trans h)
  rcases hlog.lt_or_eq with hlt | heq
  · calc roundNat m ≤ 2 ^ (m.log2 + 1) := (roundNat_bounds hm.ne').2
      _ ≤ 2 ^ n.log2 := Nat.pow_le_pow_right (by decide) hlt
      _ ≤ roundNat n := (roundNat_bounds hn).1
  · unfold roundNat
    rw [heq]
    exact Nat.mul_le_mul_right _ (roundHalfEven_mono h)

theorem rounded_mono {i j : Int} (h : i ≤ j) : rounded i ≤ rounded j := by
  unfold rounded
  have hneg := @roundNat_mono j.natAbs i.natAbs
  have hpos := @roundNat_mono i.natAbs j.natAbs
  split <;> split <;> omega

theorem rounded_eq_self {i : Int} (h : i.natAbs ≤ 2 ^ 53) : rounded i = i := by
  unfold rounded
  rw [roundNat_eq_self h]
  split <;> omega

/-! ## Integers as doubles -/

theorem toNat_ofMagnitude (negative : Bool) (h : m < signBit) :
    (ofMagnitude negative m).bits.toNat = if negative then signBit + m else m := by
  unfold ofMagnitude
  rw [UInt64.toNat_ofNat_of_lt' ?_]
  unfold signBit at *
  split <;> simp only [UInt64.size] <;> omega

theorem isNegative_ofMagnitude (negative : Bool) (h : m < signBit) :
    (ofMagnitude negative m).isNegative = negative := by
  unfold isNegative
  rw [toNat_ofMagnitude negative h]
  cases negative with
  | true => simp
  | false => simpa using h

theorem magnitude_ofMagnitude (negative : Bool) (h : m < signBit) : (ofMagnitude negative m).magnitude = m := by
  unfold magnitude
  rw [toNat_ofMagnitude negative h]
  cases negative with
  | true => simp [Nat.mod_eq_of_lt h]
  | false => simp [Nat.mod_eq_of_lt h]

theorem floorLog2_one (hn : n ≠ 0) : floorLog2 n 1 = n.log2 := by
  have hle : 1 * power 2 n.log2 ≤ n * power 2 (-(n.log2 : Int)) := by
    have hpower : power 2 (-(n.log2 : Int)) = 1 := by simp [power]
    rw [hpower, Nat.one_mul, Nat.mul_one]
    exact Nat.log2_self_le hn
  have hlog : ((1 : Nat).log2 : Int) = 0 := by decide
  unfold floorLog2
  simp only [hlog, Int.sub_zero]
  rw [if_pos hle]

/-- The units of a double whose magnitude is put together from a binade and a significand, also when the significand
carries into the next binade. -/
theorem unitsOf_binade (b : Nat) {s : Nat} (hlow : leadingBit ≤ s) (hhigh : s ≤ 2 * leadingBit) :
    unitsOf (b * leadingBit + s) = s * 2 ^ b := by
  unfold unitsOf
  rcases hhigh.lt_or_eq with hlt | rfl
  · have hdiv : (b * leadingBit + s) / leadingBit = b + 1 := by unfold leadingBit at *; omega
    have hmod : (b * leadingBit + s) % leadingBit + leadingBit = s := by unfold leadingBit at *; omega
    rw [hdiv, hmod, if_neg (Nat.succ_ne_zero _), Nat.add_sub_cancel]
  · have hdiv : (b * leadingBit + 2 * leadingBit) / leadingBit = b + 2 := by unfold leadingBit; omega
    have hmod : (b * leadingBit + 2 * leadingBit) % leadingBit = 0 := by unfold leadingBit; omega
    rw [hdiv, hmod, if_neg (Nat.succ_ne_zero _), Nat.zero_add, Nat.add_sub_cancel (m := 1), pow_succ]
    ring

/-- The 53 binary digits to which an integer is rounded. -/
def leadingDigits (n : Nat) : Nat := roundHalfEven (n * 2 ^ (52 - n.log2)) (2 ^ (n.log2 - 52))

theorem leadingDigits_mul (n : Nat) : leadingDigits n * 2 ^ (n.log2 - 52) = roundNat n * 2 ^ (52 - n.log2) := by
  unfold leadingDigits
  by_cases hlog : n.log2 ≤ 52
  · have hpow : 2 ^ (n.log2 + 1) ≤ 2 ^ 53 := Nat.pow_le_pow_right (by decide) (by omega)
    have hself := roundHalfEven_mul (n * 2 ^ (52 - n.log2)) Nat.one_pos
    rw [Nat.mul_one] at hself
    rw [roundNat_eq_self (Nat.lt_log2_self.le.trans hpow), Nat.sub_eq_zero_of_le hlog, pow_zero, hself, Nat.mul_one]
  · rw [Nat.sub_eq_zero_of_le (Nat.le_of_not_le hlog), pow_zero, Nat.mul_one, Nat.mul_one]
    rfl

theorem leadingDigits_bounds (hn : n ≠ 0) : leadingBit ≤ leadingDigits n ∧ leadingDigits n ≤ 2 * leadingBit := by
  have hd : 0 < 2 ^ (n.log2 - 52) := Nat.two_pow_pos _
  have hshift : 2 ^ n.log2 * 2 ^ (52 - n.log2) = leadingBit * 2 ^ (n.log2 - 52) := by
    have hleading : leadingBit = 2 ^ 52 := rfl
    rw [hleading, ← pow_add, ← pow_add]
    congr 1
    omega
  obtain ⟨hlow, hhigh⟩ := roundNat_bounds hn
  constructor
  · refine Nat.le_of_mul_le_mul_right ?_ hd
    rw [leadingDigits_mul n, ← hshift]
    exact Nat.mul_le_mul_right _ hlow
  · refine Nat.le_of_mul_le_mul_right ?_ hd
    rw [leadingDigits_mul n, Nat.mul_assoc, ← hshift, ← Nat.mul_assoc, ← pow_succ']
    exact Nat.mul_le_mul_right _ hhigh

/-- The units of the number one. -/
def oneUnits : Nat := 2 ^ 1074

theorem oneUnits_pos : 0 < oneUnits := by
  unfold oneUnits
  positivity

/-- The double nearest to an integer of 64 bits stands for the rounded integer. -/
theorem ofRatio_one (negative : Bool) (hn : n ≠ 0) (h : n ≤ 2 ^ 63) : ∃ magnitude < infinityMagnitude,
    ofRatio negative n 1 = ofMagnitude negative magnitude ∧ unitsOf magnitude = roundNat n * oneUnits := by
  have hlog : n.log2 < 64 := (Nat.log2_lt hn).2 (h.trans_lt (by decide))
  obtain ⟨hlow, hhigh⟩ := leadingDigits_bounds hn
  have hsmall : (n.log2 + 1022) * leadingBit + leadingDigits n < infinityMagnitude := by
    unfold leadingBit infinityMagnitude at *
    omega
  refine ⟨(n.log2 + 1022) * leadingBit + leadingDigits n, hsmall, ?_, ?_⟩
  · have hexponent : max ((n.log2 : Int) - 52) leastExponent = n.log2 - 52 := by unfold leastExponent; omega
    have hbinade : ((n.log2 : Int) - 52 - leastExponent).toNat = n.log2 + 1022 := by unfold leastExponent; omega
    have hup : power 2 (-((n.log2 : Int) - 52)) = 2 ^ (52 - n.log2) := congrArg (2 ^ ·) (by omega)
    have hdown : power 2 ((n.log2 : Int) - 52) = 2 ^ (n.log2 - 52) := congrArg (2 ^ ·) (by omega)
    unfold ofRatio
    simp only [if_neg hn, floorLog2_one hn, hexponent, hbinade, hup, hdown, Nat.one_mul]
    exact congrArg (ofMagnitude negative) (Nat.min_eq_left hsmall.le)
  · rw [unitsOf_binade _ hlow hhigh]
    calc leadingDigits n * 2 ^ (n.log2 + 1022)
        = leadingDigits n * 2 ^ (n.log2 - 52) * 2 ^ (1074 - (52 - n.log2)) := by
          rw [Nat.mul_assoc, ← pow_add]
          congr 2
          omega
      _ = roundNat n * (2 ^ (52 - n.log2) * 2 ^ (1074 - (52 - n.log2))) := by rw [leadingDigits_mul n, Nat.mul_assoc]
      _ = roundNat n * oneUnits := by
          rw [← pow_add, oneUnits]
          congr 2
          omega

theorem ofInt_finite {i : Int} (h : i.natAbs ≤ 2 ^ 63) :
    (ofInt i).magnitude < infinityMagnitude ∧ (ofInt i).units = rounded i * oneUnits := by
  have hsign : infinityMagnitude < signBit := by decide
  by_cases hi : i = 0
  · have hzero : (ofInt 0).magnitude < infinityMagnitude ∧ (ofInt 0).units = 0 ∧ rounded 0 = 0 := by decide
    rw [hi, hzero.2.1, hzero.2.2, Int.zero_mul]
    exact ⟨hzero.1, rfl⟩
  · obtain ⟨magnitude, hm, he, hu⟩ := ofRatio_one (i < 0) (Int.natAbs_ne_zero.2 hi) h
    have hmagnitude := magnitude_ofMagnitude (i < 0) (hm.trans hsign)
    have hnegative := isNegative_ofMagnitude (i < 0) (hm.trans hsign)
    rw [ofInt, he, hmagnitude]
    refine ⟨hm, ?_⟩
    unfold units rounded
    simp only [hmagnitude, hnegative, hu, decide_eq_true_eq]
    split <;> push_cast <;> ring

theorem isNaN_ofInt {i : Int} (h : i.natAbs ≤ 2 ^ 63) : (ofInt i).isNaN = false := by
  have := (ofInt_finite h).1
  unfold isNaN
  rw [decide_eq_false_iff_not]
  omega

/-- Integers are compared after rounding. -/
theorem compare?_ofInt {i j : Int} (hi : i.natAbs ≤ 2 ^ 63) (hj : j.natAbs ≤ 2 ^ 63) :
    (ofInt i).compare? (ofInt j) = some (compare (rounded i) (rounded j)) := by
  unfold compare?
  rw [isNaN_ofInt hi, isNaN_ofInt hj, Bool.or_false, if_neg Bool.false_ne_true, compare_rank, (ofInt_finite hi).2,
    (ofInt_finite hj).2]
  have hpos : (0 : Int) < oneUnits := Int.natCast_pos.2 oneUnits_pos
  exact congrArg some (compare_congr (Int.mul_lt_mul_right hpos) (Int.mul_lt_mul_right hpos))

end Dossier.Double

import Mathlib.Tactic

/-!
# Serial numbers and slots

A serial number is a residue modulo `M`; `sub M a b` is how far `a` is ahead of `b`.  A buffer of
`n` slots anchored at a serial number `o` keeps `a` in slot `sub M a o % n`.

Two different serial numbers less than `n` apart never share a slot when `n` divides `M`
(`eq_of_slot_eq`).  When it does not, the anchor is where it breaks: the numbering of the slots
jumps there, and the last serial number before the wrap shares its slot with one that is only
`M % n` ahead (`slot_collision`).
-/

namespace Serial

variable {M n a b o : ℕ}

/-- How far `a` is ahead of `b`, modulo `M`. -/
def sub (M a b : ℕ) : ℕ := (((a : ℤ) - b) % M).toNat

lemma sub_cast (hM : 0 < M) (a b : ℕ) : (sub M a b : ℤ) = ((a : ℤ) - b) % M := by
  rw [sub, Int.toNat_of_nonneg (Int.emod_nonneg _ (by omega))]

/-- Reducing the first argument changes nothing. -/
lemma sub_mod_left (M a b : ℕ) : sub M (a % M) b = sub M a b := by
  simp only [sub, Int.natCast_mod, Int.emod_sub_emod]

/-- `k` steps ahead of `b`, for `k` below the modulus. -/
lemma sub_add_left {k : ℕ} (hk : k < M) (b : ℕ) : sub M ((b + k) % M) b = k := by
  rw [sub_mod_left, sub]
  have h : (((b + k : ℕ) : ℤ) - b) % M = k := by
    push_cast
    rw [add_sub_cancel_left]
    exact Int.emod_eq_of_lt (by omega) (by exact_mod_cast hk)
  rw [h, Int.toNat_natCast]

/-- Serial numbers at distance `0` are equal. -/
lemma eq_of_sub_eq_zero (ha : a < M) (hb : b < M) (h : sub M a b = 0) : a = b := by
  have hM : 0 < M := by omega
  have hz : ((a : ℤ) - b) % M = 0 := by
    rw [← sub_cast hM, h]; rfl
  have habs : |(a : ℤ) - b| < M := by
    rw [abs_lt]
    constructor <;> omega
  have := Int.eq_zero_of_abs_lt_dvd (Int.dvd_of_emod_eq_zero hz) habs
  omega

/-- Modulo a divisor of `M` the distance is the plain difference. -/
lemma sub_emod (hM : 0 < M) (hn : n ∣ M) (a b : ℕ) :
    (sub M a b : ℤ) % n = ((a : ℤ) - b) % n := by
  rw [sub_cast hM]
  exact Int.emod_emod_of_dvd _ (by exact_mod_cast hn)

/-- Serial numbers that differ by a multiple of `n` share a slot, when `n` divides `M`. -/
lemma slot_eq_of_emod_eq (hM : 0 < M) (hn : n ∣ M) (h : (a : ℤ) % n = (b : ℤ) % n) :
    sub M a o % n = sub M b o % n := by
  have hab : (sub M a o : ℤ) % n = (sub M b o : ℤ) % n := by
    rw [sub_emod hM hn, sub_emod hM hn, Int.sub_emod, h, ← Int.sub_emod]
  exact_mod_cast hab

/-- **Slots are injective on a window**, when the number of slots divides the modulus. -/
theorem eq_of_slot_eq (hn : n ∣ M) (ha : a < M) (hb : b < M) (hw : sub M a b < n)
    (hs : sub M a o % n = sub M b o % n) : a = b := by
  have hM : 0 < M := by omega
  have hao : ((a : ℤ) - o) % n = ((b : ℤ) - o) % n := by
    rw [← sub_emod hM hn, ← sub_emod hM hn]
    exact_mod_cast congrArg (Nat.cast : ℕ → ℤ) hs
  have hab : ((a : ℤ) - b) % n = 0 := by
    have heq : ((a : ℤ) - b) = ((a : ℤ) - o) - ((b : ℤ) - o) := by ring
    rw [heq, Int.sub_emod, hao, sub_self, Int.zero_emod]
  have hzero : (sub M a b : ℤ) % n = 0 := by rw [sub_emod hM hn, hab]
  have hsub : sub M a b = 0 := by
    have : sub M a b % n = 0 := by exact_mod_cast hzero
    rwa [Nat.mod_eq_of_lt hw] at this
  exact eq_of_sub_eq_zero ha hb hsub

/-- **Slots collide at the anchor** when the number of slots does not divide the modulus: the last
serial number before the wrap and the one `M % n` ahead of it are different and share a slot. -/
theorem slot_collision (hn : 0 < n) (hnM : n < M) (o : ℕ) :
    sub M ((o + (M - 1)) % M) o % n = sub M ((o + (M - 1 + M % n)) % M) o % n := by
  have hr : M % n < n := Nat.mod_lt _ hn
  rw [sub_add_left (by omega) o]
  rcases Nat.eq_zero_or_pos (M % n) with h0 | hpos
  · rw [h0, Nat.add_zero, sub_add_left (by omega) o]
  · have hwrap : (o + (M - 1 + M % n)) % M = (o + (M % n - 1)) % M := by
      rw [show o + (M - 1 + M % n) = (o + (M % n - 1)) + M by omega, Nat.add_mod_right]
    rw [hwrap, sub_add_left (by omega) o, Nat.mod_eq_of_lt (by omega : M % n - 1 < n)]
    have hdiv := Nat.div_add_mod M n
    have hM1 : M - 1 = (M % n - 1) + n * (M / n) := by omega
    rw [hM1, Nat.add_mul_mod_self_left, Nat.mod_eq_of_lt (by omega)]

end Serial

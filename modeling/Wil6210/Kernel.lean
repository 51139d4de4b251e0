import Mathlib.Tactic

/-!
# Kernel conventions

The integer types and helpers of the kernel that the driver code rests on.  A C integer is a
natural (or an integer where it can be negative), and what is stored in a field of fixed width
goes through the width's cast.  A return code is an integer, zero or minus an error number.
-/

namespace Wil6210

/-- Store in a `u16`. -/
def u16 (x : ℕ) : ℕ := x % 65536

/-- Store in a `u32`. -/
def u32 (x : ℕ) : ℕ := x % 4294967296

/-- Store in a `size_t`. -/
def sizeT (x : ℕ) : ℕ := x % 18446744073709551616

/-- `BIT` -/
def bit (n : ℕ) : ℕ := 1 <<< n

/-- `WIL_GET_BITS`: bits `b0 .. b1`, inclusive, of `x`. -/
def wilGetBits (x b0 b1 : ℕ) : ℕ := (x >>> b0) &&& ((1 <<< (b1 - b0 + 1)) - 1)

/-- A DMA address of 48 bits, read back from its two fields. -/
lemma pa_fields {pa : ℕ} (h : pa < 2 ^ 48) :
    (pa % 2 ^ 32) ||| (u16 (pa >>> 32) <<< 32) = pa := by
  have hhigh : u16 (pa >>> 32) = pa / 2 ^ 32 := by
    rw [Nat.shiftRight_eq_div_pow]
    exact Nat.mod_eq_of_lt (by omega)
  have hlow : pa % 2 ^ 32 < 2 ^ 32 := Nat.mod_lt _ (by norm_num)
  rw [hhigh, Nat.or_comm, ← Nat.shiftLeft_add_eq_or_of_lt hlow, Nat.shiftLeft_eq]
  exact Nat.div_add_mod' _ _

/-- `-EAGAIN` -/
def eAgain : ℤ := -11

/-- `-ENOMEM` -/
def eNomem : ℤ := -12

/-- `-EFAULT` -/
def eFault : ℤ := -14

/-- `-EBUSY` -/
def eBusy : ℤ := -16

/-- `-EINVAL` -/
def eInval : ℤ := -22

/-- `-ERANGE` -/
def eRange : ℤ := -34

/-- `-ETIME` -/
def eTime : ℤ := -62

/-- `-EOPNOTSUPP` -/
def eOpnotsupp : ℤ := -95

end Wil6210

/-!
# Words

Addresses, payload words and counts are unsigned 64-bit words. An address is written in lowercase
hexadecimal after `0x`, without leading zeros.
-/

namespace HybridGC

/-- A word in hexadecimal. -/
def hex (w : UInt64) : String :=
  "0x" ++ String.ofList (Nat.toDigits 16 w.toNat)

/-- A number rounded up to the next multiple of another. -/
def roundUp (n step : Nat) : Nat :=
  (n + step - 1) / step * step

theorem dvd_roundUp (n step : Nat) : step ∣ roundUp n step :=
  Nat.dvd_mul_left step _

theorem le_roundUp (n : Nat) {step : Nat} (h : 0 < step) : n ≤ roundUp n step := by
  have := Nat.div_add_mod (n + step - 1) step
  have := Nat.mod_lt (n + step - 1) h
  rw [roundUp, Nat.mul_comm]
  omega

theorem roundUp_lt (n : Nat) {step : Nat} (h : 0 < step) : roundUp n step < n + step := by
  have := Nat.div_mul_le_self (n + step - 1) step
  rw [roundUp]
  omega

end HybridGC

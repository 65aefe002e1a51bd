import HybridGC.Proofs.Table
import Mathlib.Data.Fintype.EquivFin
import Mathlib.Data.Nat.ModEq
import Mathlib.Data.Nat.Prime.Basic
import Mathlib.Data.UInt

/-!
# The avalanche hash is a bijection

The seven steps of the hash are of two kinds. One adds shifted copies of a word to it or to its
complement, which multiplies it by an odd number. The other xors a word with itself shifted right:
it respects xor, and a word that is its own shifted copy is zero. Both are injective, so the hash
is, and an injective function on the words meets each of them. A hash therefore stands for its
address.
-/

namespace HybridGC

/-! ### Multiplying by an odd word -/

/-- A shift to the left is a product, by a word that does not depend on the one that is shifted. -/
lemma shiftLeft_eq_mul (k s : UInt64) : k <<< s = k * ((1 : UInt64) <<< s) := by
  apply UInt64.toBitVec_injective
  simp only [UInt64.toBitVec_shiftLeft, UInt64.toBitVec_mul, BitVec.shiftLeft_eq']
  rw [BitVec.shiftLeft_eq_mul_twoPow, BitVec.shiftLeft_eq_mul_twoPow, UInt64.toBitVec_one,
    BitVec.one_mul]

/-- An odd word is prime to the number of words. -/
lemma injective_mul_odd {m : UInt64} (hm : m % 2 = 1) : Function.Injective fun k => k * m := by
  intro x y h
  have hmod : x.toNat * m.toNat ≡ y.toNat * m.toNat [MOD 2 ^ 64] := by
    have h' := congrArg UInt64.toNat h
    rwa [UInt64.toNat_mul, UInt64.toNat_mul] at h'
  have hodd : m.toNat % 2 = 1 := congrArg UInt64.toNat hm
  have hcoprime : (2 ^ 64).gcd m.toNat = 1 :=
    Nat.Coprime.pow_left 64 (Nat.coprime_two_left.2 (Nat.odd_iff.2 hodd))
  apply UInt64.toNat_inj.1
  exact (hmod.cancel_right_of_coprime hcoprime).eq_of_lt_of_lt x.toNat_lt y.toNat_lt

lemma injective_add_shiftLeft {s : UInt64} (hs : (1 + ((1 : UInt64) <<< s)) % 2 = 1) :
    Function.Injective fun k : UInt64 => k + (k <<< s) := by
  have h : (fun k => k + (k <<< s)) = fun k => k * (1 + ((1 : UInt64) <<< s)) := by
    funext k
    rw [shiftLeft_eq_mul k]
    grind
  rw [h]
  exact injective_mul_odd hs

lemma injective_add_shiftLeft_add_shiftLeft {s t : UInt64}
    (hst : (1 + ((1 : UInt64) <<< s) + ((1 : UInt64) <<< t)) % 2 = 1) :
    Function.Injective fun k : UInt64 => k + (k <<< s) + (k <<< t) := by
  have h : (fun k => k + (k <<< s) + (k <<< t)) =
      fun k => k * (1 + ((1 : UInt64) <<< s) + ((1 : UInt64) <<< t)) := by
    funext k
    rw [shiftLeft_eq_mul k s, shiftLeft_eq_mul k t]
    grind
  rw [h]
  exact injective_mul_odd hst

/-- The complement of a word is its opposite less one. -/
lemma injective_not_add_shiftLeft {s : UInt64} (hs : (((1 : UInt64) <<< s) - 1) % 2 = 1) :
    Function.Injective fun k : UInt64 => ~~~k + (k <<< s) := by
  have h : (fun k => ~~~k + (k <<< s)) = fun k => k * (((1 : UInt64) <<< s) - 1) - 1 := by
    funext k
    rw [shiftLeft_eq_mul k, UInt64.not_eq_neg_sub]
    grind
  rw [h]
  exact sub_left_injective.comp (injective_mul_odd hs)

/-! ### Xoring with a shifted copy -/

/-- The second kind of step respects xor, so it is injective if only zero goes to zero. -/
lemma xorShiftRight_xor (x y s : UInt64) :
    xorShiftRight (x ^^^ y) s = xorShiftRight x s ^^^ xorShiftRight y s := by
  simp only [xorShiftRight, UInt64.shiftRight_xor]
  ac_rfl

/-- A shift that moves anything makes every word but zero smaller. -/
lemma eq_zero_of_xorShiftRight {k s : UInt64} (hs : s.toNat % 64 ≠ 0)
    (h : xorShiftRight k s = 0) : k = 0 := by
  have hk : k = k >>> s := UInt64.xor_eq_zero_iff.1 h
  have hdiv : k.toNat = k.toNat / 2 ^ (s.toNat % 64) := by
    rw [← Nat.shiftRight_eq_div_pow, ← UInt64.toNat_shiftRight, ← hk]
  have hlt : 1 < 2 ^ (s.toNat % 64) := Nat.one_lt_two_pow hs
  apply UInt64.toNat_inj.1
  by_contra hne
  exact absurd (Nat.div_lt_self (Nat.pos_of_ne_zero hne) hlt) (by omega)

/-- Xoring a word with a proper shift of it to the right loses nothing. -/
lemma injective_xorShiftRight {s : UInt64} (hs : s.toNat % 64 ≠ 0) :
    Function.Injective (xorShiftRight · s) := by
  intro x y h
  apply UInt64.xor_eq_zero_iff.1
  apply eq_zero_of_xorShiftRight hs
  rw [xorShiftRight_xor]
  exact UInt64.xor_eq_zero_iff.2 h

/-! ### The hash -/

/-- Each of the seven steps is injective, for the shifts the hash has. -/
lemma injective_avalanche : Function.Injective avalanche := by
  intro x y h
  -- one step after the other is taken on both sides, from the first to the last
  apply injective_not_add_shiftLeft (s := 21) (by decide)
  apply injective_xorShiftRight (s := 24) (by decide)
  apply injective_add_shiftLeft_add_shiftLeft (s := 3) (t := 8) (by decide)
  apply injective_xorShiftRight (s := 14) (by decide)
  apply injective_add_shiftLeft_add_shiftLeft (s := 2) (t := 4) (by decide)
  apply injective_xorShiftRight (s := 28) (by decide)
  apply injective_add_shiftLeft (s := 31) (by decide)
  exact h

/-- There are finitely many words. -/
lemma bijective_of_injective {f : UInt64 → UInt64} (hf : Function.Injective f) :
    Function.Bijective f := by
  have : Finite UInt64 := .of_injective UInt64.toFin UInt64.toFin_injective
  exact Finite.injective_iff_bijective.1 hf

lemma Entry.hash_eq_iff (x y : Entry) : x.hash = y.hash ↔ x.address = y.address := by
  rw [x.hash_eq, y.hash_eq, injective_avalanche.eq_iff]

/-- The avalanche hash is a bijection of the words, and hashes tell the entries of a table apart. -/
theorem bijective_avalanche :
    Function.Bijective avalanche ∧
      (∀ x y : Entry, x.hash = y.hash ↔ x.address = y.address) ∧
      (∀ t : Table, (t.toList.map (·.hash)).Nodup) ∧
      ∀ (e : Entry) (a : UInt64), e.Matches (avalanche a) a ↔ e.address = a := by
  refine ⟨bijective_of_injective injective_avalanche, Entry.hash_eq_iff, fun t => ?_, fun e a => ?_⟩
  · refine t.nodup_toList.map fun x y h => ?_
    exact Entry.ext_address ((x.hash_eq_iff y).1 h)
  · constructor
    · exact And.right
    · rintro rfl
      exact ⟨e.hash_eq, rfl⟩

end HybridGC

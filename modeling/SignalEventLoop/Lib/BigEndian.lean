/-
# Numbers as bytes, and masking

The bytes of a number, most significant first, and the masking of a list of bytes with a key
that is repeated.  Both can be undone.
-/
import Mathlib.Tactic

namespace SignalEventLoop.Lib

/-- The last `k` bytes of `n`, most significant first. -/
def toBE : ℕ → ℕ → List UInt8
  | 0, _ => []
  | k + 1, n => toBE k (n / 256) ++ [UInt8.ofNat n]

/-- The number with these bytes, most significant first. -/
def ofBE (bytes : List UInt8) : ℕ := bytes.foldl (fun n b => 256 * n + b.toNat) 0

@[simp] lemma length_toBE (k n : ℕ) : (toBE k n).length = k := by
  induction k generalizing n with
  | zero => rfl
  | succ k ih => simp [toBE, ih]

lemma toBE_add (j k n : ℕ) : toBE (j + k) n = toBE j (n / 256 ^ k) ++ toBE k n := by
  induction k generalizing n with
  | zero => simp [toBE]
  | succ k ih =>
    rw [← Nat.add_assoc, toBE, ih, toBE, List.append_assoc, pow_succ', Nat.div_div_eq_div_mul]

lemma ofBE_concat (bytes : List UInt8) (b : UInt8) :
    ofBE (bytes ++ [b]) = 256 * ofBE bytes + b.toNat := by
  simp [ofBE]

lemma ofBE_append (xs ys : List UInt8) :
    ofBE (xs ++ ys) = 256 ^ ys.length * ofBE xs + ofBE ys := by
  induction ys using List.reverseRecOn with
  | nil => simp [ofBE]
  | append_singleton ys b ih =>
    rw [← List.append_assoc, ofBE_concat, ih, ofBE_concat, List.length_append,
      List.length_singleton, pow_succ]
    ring

lemma ofBE_toBE_mod (k n : ℕ) : ofBE (toBE k n) = n % 256 ^ k := by
  induction k generalizing n with
  | zero => simp [toBE, ofBE, Nat.mod_one]
  | succ k ih =>
    rw [toBE, ofBE_concat, ih, UInt8.toNat_ofNat', pow_succ' 256 k, Nat.mod_mul]
    omega

/-- A number that fits can be read back. -/
theorem ofBE_toBE {k n : ℕ} (h : n < 256 ^ k) : ofBE (toBE k n) = n := by
  rw [ofBE_toBE_mod, Nat.mod_eq_of_lt h]

/-- The bytes of a number that was read are the bytes that it was read from. -/
theorem toBE_ofBE (bytes : List UInt8) : toBE bytes.length (ofBE bytes) = bytes := by
  induction bytes using List.reverseRecOn with
  | nil => rfl
  | append_singleton bytes b ih =>
    have hb := b.toNat_lt
    have hdiv : (256 * ofBE bytes + b.toNat) / 256 = ofBE bytes := by omega
    have hbyte : UInt8.ofNat (256 * ofBE bytes + b.toNat) = b := by
      rw [← UInt8.toNat_inj, UInt8.toNat_ofNat']
      omega
    rw [List.length_append, List.length_singleton, ofBE_concat, toBE, hdiv, ih, hbyte]

lemma ofBE_lt (bytes : List UInt8) : ofBE bytes < 256 ^ bytes.length := by
  induction bytes using List.reverseRecOn with
  | nil => simp [ofBE]
  | append_singleton bytes b ih =>
    have := b.toNat_lt
    rw [ofBE_concat, List.length_append, List.length_singleton, pow_succ]
    omega

/-- Mask the bytes with the key, which is repeated; an empty key changes nothing. -/
def xorMask (key data : List UInt8) : List UInt8 :=
  data.mapIdx fun i b => b ^^^ key.getD (i % key.length) 0

@[simp] lemma length_xorMask (key data : List UInt8) : (xorMask key data).length = data.length := by
  simp [xorMask]

/-- Masked lists differ where the lists differ. -/
lemma getElem?_xorMask_inj {key xs ys : List UInt8} {i : ℕ} :
    (xorMask key xs)[i]? = (xorMask key ys)[i]? ↔ xs[i]? = ys[i]? := by
  rw [xorMask, xorMask, List.getElem?_mapIdx, List.getElem?_mapIdx]
  exact (Option.map_injective fun _ _ h => (UInt8.xor_left_inj _).mp h).eq_iff

/-- Masking twice changes nothing. -/
theorem xorMask_xorMask (key data : List UInt8) : xorMask key (xorMask key data) = data := by
  refine List.ext_getElem (by simp) fun i h₁ h₂ => ?_
  simp only [xorMask, List.getElem_mapIdx, UInt8.xor_assoc, UInt8.xor_self, UInt8.xor_zero]

end SignalEventLoop.Lib

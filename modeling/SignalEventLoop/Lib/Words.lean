/-
# Words as bytes

Words of 32 bits in a list of bytes, in either order, and their rotation.  The two orders are
exchanged by two rotations and two masks.
-/
import SignalEventLoop.Lib.BigEndian

namespace SignalEventLoop.Lib

/-- Rotate a word to the left. -/
def rol (value bits : UInt32) : UInt32 := (value <<< bits) ||| (value >>> (32 - bits))

/-- The word at `4 * t`, the least significant byte first. -/
def leWord (block : List UInt8) (t : ℕ) : UInt32 :=
  (block.getD (4 * t) 0).toUInt32 ||| ((block.getD (4 * t + 1) 0).toUInt32 <<< 8) |||
    ((block.getD (4 * t + 2) 0).toUInt32 <<< 16) ||| ((block.getD (4 * t + 3) 0).toUInt32 <<< 24)

/-- The word at `4 * t`, the most significant byte first. -/
def beWord (block : List UInt8) (t : ℕ) : UInt32 :=
  ((block.getD (4 * t) 0).toUInt32 <<< 24) ||| ((block.getD (4 * t + 1) 0).toUInt32 <<< 16) |||
    ((block.getD (4 * t + 2) 0).toUInt32 <<< 8) ||| (block.getD (4 * t + 3) 0).toUInt32

/-- The bytes of a word, the least significant one first. -/
def leBytes (w : UInt32) : List UInt8 :=
  [w.toUInt8, (w >>> 8).toUInt8, (w >>> 16).toUInt8, (w >>> 24).toUInt8]

/-- The bytes of a word, the most significant one first. -/
def beBytes (w : UInt32) : List UInt8 :=
  [(w >>> 24).toUInt8, (w >>> 16).toUInt8, (w >>> 8).toUInt8, w.toUInt8]

@[simp] lemma length_leBytes (w : UInt32) : (leBytes w).length = 4 := rfl

@[simp] lemma length_beBytes (w : UInt32) : (beBytes w).length = 4 := rfl

lemma toBE_mod (k n : ℕ) : toBE k (n % 256 ^ k) = toBE k n := by
  have h := toBE_ofBE (toBE k n)
  rwa [length_toBE, ofBE_toBE_mod] at h

lemma toUInt8_and (w : UInt32) : (w &&& 255).toUInt8 = w.toUInt8 := by
  rw [← UInt8.toNat_inj, UInt32.toNat_toUInt8, UInt32.toNat_toUInt8, UInt32.toNat_and]
  exact (Nat.and_two_pow_sub_one_eq_mod _ 8).symm ▸ Nat.mod_mod _ _

lemma toUInt8_shiftRight (w : UInt32) {k : ℕ} (hk : k < 32) :
    (w >>> UInt32.ofNat k).toUInt8 = UInt8.ofNat (w.toNat / 2 ^ k) := by
  rw [← UInt8.toNat_inj, UInt32.toNat_toUInt8, UInt8.toNat_ofNat', UInt32.toNat_shiftRight,
    UInt32.toNat_ofNat', Nat.mod_eq_of_lt (show k < 2 ^ 32 by omega), Nat.mod_eq_of_lt hk,
    Nat.shiftRight_eq_div_pow]

/-- The bytes of a word are the bytes of its number. -/
lemma beBytes_eq (w : UInt32) : beBytes w = toBE 4 w.toNat := by
  have h₂₄ := toUInt8_shiftRight w (show 24 < 32 by omega)
  have h₁₆ := toUInt8_shiftRight w (show 16 < 32 by omega)
  have h₈ := toUInt8_shiftRight w (show 8 < 32 by omega)
  have h₀ : w.toUInt8 = UInt8.ofNat w.toNat := rfl
  simp only [beBytes, toBE, Nat.div_div_eq_div_mul, List.nil_append, List.cons_append]
  exact congrArg₂ _ h₂₄ (congrArg₂ _ h₁₆ (congrArg₂ _ h₈ (congrArg₂ _ h₀ rfl)))

/-- Exchange the two orders. -/
def swapWord (w : UInt32) : UInt32 := (rol w 24 &&& 0xFF00FF00) ||| (rol w 8 &&& 0x00FF00FF)

/-- A word that was stored least significant byte first, after the exchange. -/
theorem swapWord_leWord (block : List UInt8) (t : ℕ) :
    swapWord (leWord block t) = beWord block t := by
  rw [leWord, beWord]
  generalize block.getD (4 * t) 0 = b₀, block.getD (4 * t + 1) 0 = b₁,
    block.getD (4 * t + 2) 0 = b₂, block.getD (4 * t + 3) 0 = b₃
  apply UInt32.toBitVec_inj.mp
  ext i hi
  interval_cases i <;> simp [swapWord, rol]

/-- Reading a place of a vector after writing one. -/
lemma get_set {α : Type*} {n : ℕ} (v : Vector α n) (i j : Fin n) (x : α) :
    (v.set i x).get j = if j = i then x else v.get j := by
  calc (v.set i x).get j = (v.set i x)[j.val] := rfl
    _ = if i.val = j.val then x else v[j.val] := Vector.getElem_set ..
    _ = if j = i then x else v.get j := if_congr (by rw [eq_comm, Fin.val_inj]) rfl rfl

lemma get_ofFn {α : Type*} {n : ℕ} (f : Fin n → α) (i : Fin n) : (Vector.ofFn f).get i = f i :=
  Vector.getElem_ofFn _

/-- A place that moves back by one. -/
lemma sub_ofNat_succ {n : ℕ} [NeZero n] (k : Fin n) (t : ℕ) :
    k - Fin.ofNat n (t + 1) = k - 1 - Fin.ofNat n t := by
  have hcast : Fin.ofNat n (t + 1) = Fin.ofNat n t + 1 := Fin.ext (Nat.add_mod t 1 n)
  rw [hcast]
  abel

end SignalEventLoop.Lib

/-
# Hashes that read blocks

A hash of this kind goes through a message in blocks of `size` elements and folds `compress` over
them: `absorb` is the state behind the whole blocks, and `rest` is what stands behind them.

A program that gets the message in parts keeps the state and a buffer of one block that begins
with the rest (`Holds`).  `feed` takes a part: it fills the buffer, compresses it, compresses the
blocks of the part in place (`sweep`), and keeps what is left.  However the message is cut into
parts, the state and the buffer stand for the parts one behind the other.
-/
import SignalEventLoop.Lib.ByteMem

namespace SignalEventLoop.Lib

universe u

/-- The blocks of a hash, and what a block does to the state. -/
structure BlockHash (α σ : Type u) where
  size : ℕ
  size_pos : 0 < size
  init : σ
  compress : σ → List α → σ

namespace BlockHash

variable {α σ : Type u} (H : BlockHash α σ) {s : σ} {m a b data buffer : List α} {bits i : ℕ}

/-- The state behind the whole blocks of a message. -/
def absorb (s : σ) (m : List α) : σ :=
  if H.size ≤ m.length then absorb (H.compress s (m.take H.size)) (m.drop H.size) else s
termination_by m.length
decreasing_by
  have := H.size_pos
  rw [List.length_drop]
  omega

/-- What stands behind the whole blocks of a message. -/
def rest (m : List α) : List α := m.drop (m.length / H.size * H.size)

/-- The loop `for (; i + (size - 1) < len; i += size) compress(&data[i])`, whose counter has
`bits` bits, and the counter behind it; `none` when it reads behind the data. -/
def sweep (bits : ℕ) (data : List α) (i : ℕ) (s : σ) : Option (σ × ℕ) :=
  if (i + (H.size - 1)) % 2 ^ bits < data.length then
    if i + H.size ≤ data.length then
      sweep bits data (i + H.size) (H.compress s (slice data i H.size))
    else none
  else some (s, i)
termination_by data.length - i
decreasing_by
  have := H.size_pos
  omega

/-- Take a part of the message when `used` elements of the buffer are in use. -/
def feed (bits used : ℕ) (data : List α) (s : σ) (buffer : List α) : Option (σ × List α) :=
  if H.size ≤ used + data.length then do
    let buffer ← store buffer used (data.take (H.size - used))
    let (s, i) ← H.sweep bits data (H.size - used) (H.compress s buffer)
    let buffer ← store buffer 0 (data.drop i)
    some (s, buffer)
  else do
    let buffer ← store buffer used data
    some (s, buffer)

/-! ## Messages -/

lemma absorb_of_lt (h : m.length < H.size) : H.absorb s m = s := by
  rw [absorb, if_neg (by omega)]

@[simp] lemma absorb_nil (s : σ) : H.absorb s [] = s := H.absorb_of_lt H.size_pos

lemma absorb_of_le (h : H.size ≤ m.length) :
    H.absorb s m = H.absorb (H.compress s (m.take H.size)) (m.drop H.size) := by
  rw [absorb, if_pos h]

/-- Whole blocks in front of a message are absorbed first. -/
lemma absorb_append (h : H.size ∣ a.length) :
    H.absorb s (a ++ b) = H.absorb (H.absorb s a) b := by
  obtain ⟨k, hk⟩ := h
  induction k generalizing a s with
  | zero =>
    rw [List.eq_nil_of_length_eq_zero (hk.trans (Nat.mul_zero _)), List.nil_append, absorb_nil]
  | succ k ih =>
    have hle : H.size ≤ a.length := by
      rw [hk, Nat.mul_succ]
      exact Nat.le_add_left _ _
    have hdrop : (a.drop H.size).length = H.size * k := by
      rw [List.length_drop, hk, Nat.mul_succ, Nat.add_sub_cancel]
    rw [H.absorb_of_le (by rw [List.length_append]; omega), H.absorb_of_le hle,
      List.take_append_of_le_length hle, List.drop_append_of_le_length hle, ih hdrop]

lemma length_rest (m : List α) : (H.rest m).length = m.length % H.size := by
  rw [rest, List.length_drop, Nat.mod_eq_sub_div_mul]

lemma rest_eq_nil (h : H.size ∣ m.length) : H.rest m = [] := by
  rw [← List.length_eq_zero_iff, length_rest, Nat.mod_eq_zero_of_dvd h]

lemma rest_of_lt (h : m.length < H.size) : H.rest m = m := by
  rw [rest, Nat.div_eq_of_lt h, Nat.zero_mul, List.drop_zero]

/-- The blocks of a message, and the rest. -/
lemma blocks_append_rest (m : List α) : m.take (m.length / H.size * H.size) ++ H.rest m = m :=
  List.take_append_drop _ _

lemma size_dvd_blocks (m : List α) : H.size ∣ (m.take (m.length / H.size * H.size)).length := by
  rw [List.length_take_of_le (Nat.div_mul_le_self _ _)]
  exact Nat.dvd_mul_left _ _

lemma absorb_blocks (m : List α) :
    H.absorb s (m.take (m.length / H.size * H.size)) = H.absorb s m := by
  conv_rhs => rw [← H.blocks_append_rest m, H.absorb_append (H.size_dvd_blocks m)]
  rw [H.absorb_of_lt (m := H.rest m)]
  rw [length_rest]
  exact Nat.mod_lt _ H.size_pos

/-- Only the rest of a message matters for what follows. -/
lemma absorb_append_rest (a b : List α) :
    H.absorb s (a ++ b) = H.absorb (H.absorb s a) (H.rest a ++ b) := by
  conv_lhs =>
    rw [← H.blocks_append_rest a, List.append_assoc, H.absorb_append (H.size_dvd_blocks a)]
  rw [absorb_blocks]

lemma rest_append_rest (a b : List α) : H.rest (a ++ b) = H.rest (H.rest a ++ b) := by
  have hlen := H.length_rest a
  have hdiv := Nat.div_add_mod a.length H.size
  have hsum : a.length + b.length =
      a.length % H.size + b.length + H.size * (a.length / H.size) := by omega
  have hpos : (a ++ b).length / H.size * H.size =
      a.length / H.size * H.size + (H.rest a ++ b).length / H.size * H.size := by
    rw [List.length_append, List.length_append, hlen, hsum, Nat.add_mul_div_left _ _ H.size_pos]
    ring
  rw [rest, hpos, ← List.drop_drop, List.drop_append_of_le_length (Nat.div_mul_le_self _ _)]
  rfl

/-! ## Parts -/

/-- Nothing is read behind the data, and the blocks are absorbed in order. -/
lemma sweep_eq (hi : i ≤ data.length) (hbits : data.length + H.size ≤ 2 ^ bits) :
    H.sweep bits data i s =
      some (H.absorb s (data.drop i), i + (data.length - i) / H.size * H.size) := by
  have hpos := H.size_pos
  induction i, s using BlockHash.sweep.induct H bits data with
  | case1 i s hlt hle ih =>
    have hstep : (data.length - i) / H.size = (data.length - (i + H.size)) / H.size + 1 := by
      rw [← Nat.add_div_right _ hpos]
      congr 1
      omega
    rw [sweep, if_pos hlt, if_pos hle, ih hle, hstep, Nat.add_mul, Nat.one_mul,
      H.absorb_of_le (m := data.drop i) (by rw [List.length_drop]; omega), List.drop_drop]
    congr 2
    omega
  | case2 i s hlt hnle =>
    rw [Nat.mod_eq_of_lt (by omega)] at hlt
    omega
  | case3 i s hnlt =>
    rw [Nat.mod_eq_of_lt (by omega)] at hnlt
    rw [sweep, if_neg (by rwa [Nat.mod_eq_of_lt (by omega)]),
      H.absorb_of_lt (m := data.drop i) (by rw [List.length_drop]; omega),
      Nat.div_eq_of_lt (by omega), Nat.zero_mul, Nat.add_zero]

/-- The state and the buffer stand for a message. -/
structure Holds (m : List α) (s : σ) (buffer : List α) : Prop where
  state : s = H.absorb H.init m
  length : buffer.length = H.size
  prefix_eq : buffer.take (m.length % H.size) = H.rest m

variable {H}

lemma holds_init (h : buffer.length = H.size) : H.Holds [] H.init buffer where
  state := (H.absorb_nil _).symm
  length := h
  prefix_eq := by simp [rest]

/-- A part that does not fill the buffer is kept. -/
lemma Holds.keep (h : H.Holds m s buffer) (data : List α)
    (hlt : m.length % H.size + data.length < H.size) :
    ∃ buffer', store buffer (m.length % H.size) data = some buffer' ∧
      H.Holds (m ++ data) s buffer' := by
  have hroom : m.length % H.size + data.length ≤ buffer.length := by
    rw [h.length]
    omega
  obtain ⟨buffer', hstore⟩ := exists_store hroom
  have hrest : (H.rest m ++ data).length = m.length % H.size + data.length := by
    rw [List.length_append, length_rest]
  have hmod : (m ++ data).length % H.size = m.length % H.size + data.length := by
    rw [List.length_append, Nat.add_mod, Nat.mod_eq_of_lt (a := data.length) (by omega),
      Nat.mod_eq_of_lt hlt]
  refine ⟨buffer', hstore, ?_, ?_, ?_⟩
  · rw [H.absorb_append_rest, H.absorb_of_lt (m := H.rest m ++ data) (by omega)]
    exact h.state
  · rw [length_of_store hstore]
    exact h.length
  · rw [hmod, take_of_store hstore, h.prefix_eq, H.rest_append_rest m,
      H.rest_of_lt (m := H.rest m ++ data) (by omega)]

/-- The beginning of a part fills the buffer, which is compressed. -/
lemma Holds.fill (h : H.Holds m s buffer) (data : List α)
    (hlen : m.length % H.size + data.length = H.size) :
    ∃ buffer', store buffer (m.length % H.size) data = some buffer' ∧
      H.Holds (m ++ data) (H.compress s buffer') buffer' := by
  have hroom : m.length % H.size + data.length ≤ buffer.length := by
    rw [h.length]
    omega
  obtain ⟨buffer', hstore⟩ := exists_store hroom
  have hbuf : buffer' = H.rest m ++ data := by
    have htake := take_of_store hstore
    rwa [hlen, List.take_of_length_le (by rw [length_of_store hstore, h.length]),
      h.prefix_eq] at htake
  have hsize : (H.rest m ++ data).length = H.size := by
    rw [List.length_append, length_rest, hlen]
  have hdvd : H.size ∣ (m ++ data).length := by
    rw [List.length_append, ← Nat.div_add_mod m.length H.size, Nat.add_assoc, hlen]
    exact Nat.dvd_add (Nat.dvd_mul_right _ _) dvd_rfl
  refine ⟨buffer', hstore, ?_, ?_, ?_⟩
  · rw [H.absorb_append_rest, H.absorb_of_le (m := H.rest m ++ data) hsize.ge,
      List.take_of_length_le hsize.le, List.drop_of_length_le hsize.le,
      absorb_nil, ← hbuf, h.state]
  · rw [hbuf, hsize]
  · rw [Nat.mod_eq_zero_of_dvd hdvd, List.take_zero, H.rest_eq_nil hdvd]

/-- Whole blocks behind whole blocks are compressed in place; the buffer is free. -/
lemma Holds.blocks (h : H.Holds m s buffer) (hm : H.size ∣ m.length)
    (hdata : H.size ∣ data.length) : H.Holds (m ++ data) (H.absorb s data) buffer where
  state := by rw [H.absorb_append hm, ← h.state]
  length := h.length
  prefix_eq := by
    have hdvd : H.size ∣ (m ++ data).length := by
      rw [List.length_append]
      exact Nat.dvd_add hm hdata
    rw [Nat.mod_eq_zero_of_dvd hdvd, List.take_zero, H.rest_eq_nil hdvd]

/-- **A part of a message**, with counters that are wide enough for it. -/
theorem Holds.feed (h : H.Holds m s buffer) (hbits : data.length + H.size ≤ 2 ^ bits) :
    ∃ s' buffer', H.feed bits (m.length % H.size) data s buffer = some (s', buffer') ∧
      H.Holds (m ++ data) s' buffer' := by
  have hmod := Nat.mod_lt m.length H.size_pos
  rw [BlockHash.feed]
  split_ifs with hle
  · -- the buffer is filled, then come the blocks in place, then the rest of the part
    obtain ⟨n, hn⟩ : ∃ n, H.size - m.length % H.size = n := ⟨_, rfl⟩
    have htake : (data.take n).length = n := List.length_take_of_le (by omega)
    obtain ⟨buffer₁, hstore₁, h₁⟩ := h.fill (data.take n) (by omega)
    have hdvd : H.size ∣ (m ++ data.take n).length := by
      rw [List.length_append, htake, ← hn]
      exact ⟨m.length / H.size + 1, by have := Nat.div_add_mod m.length H.size; rw [mul_add]; omega⟩
    have h₂ := h₁.blocks hdvd (H.size_dvd_blocks (data.drop n))
    rw [absorb_blocks] at h₂
    have hdvd₂ : H.size ∣ (m ++ data.take n ++
        (data.drop n).take ((data.drop n).length / H.size * H.size)).length := by
      rw [List.length_append]
      exact Nat.dvd_add hdvd (H.size_dvd_blocks _)
    obtain ⟨buffer₃, hstore₃, h₃⟩ := h₂.keep (H.rest (data.drop n)) (by
      rw [Nat.mod_eq_zero_of_dvd hdvd₂, length_rest, Nat.zero_add]
      exact Nat.mod_lt _ H.size_pos)
    rw [Nat.mod_eq_zero_of_dvd hdvd₂, rest, List.drop_drop, List.length_drop] at hstore₃
    refine ⟨H.absorb (H.compress s buffer₁) (data.drop n), buffer₃, ?_, ?_⟩
    · rw [hn, hstore₁]
      simp only [bind, Option.bind, H.sweep_eq (show n ≤ data.length by omega) hbits, hstore₃]
    · rwa [List.append_assoc, H.blocks_append_rest, List.append_assoc,
        List.take_append_drop] at h₃
  · obtain ⟨buffer', hstore, h'⟩ := h.keep data (by omega)
    exact ⟨s, buffer', by rw [hstore]; rfl, h'⟩

/-! ## The end of a message -/

variable (H)

/-- How many zeros put an end of `k` elements at the end of a block. -/
def zeros (n k : ℕ) : ℕ := (H.size - (n + k) % H.size) % H.size

lemma size_dvd_add_zeros (n k : ℕ) : H.size ∣ n + k + H.zeros n k := by
  have hlt := Nat.mod_lt (n + k) H.size_pos
  rw [zeros]
  obtain hz | hz := Nat.eq_zero_or_pos ((n + k) % H.size)
  · rw [hz, Nat.sub_zero, Nat.mod_self, Nat.add_zero]
    exact Nat.dvd_of_mod_eq_zero hz
  · rw [Nat.mod_eq_of_lt (by omega)]
    refine ⟨(n + k) / H.size + 1, ?_⟩
    have := Nat.div_add_mod (n + k) H.size
    rw [mul_add]
    omega

/-- No other number below the size of a block does. -/
lemma eq_zeros {n k z : ℕ} (hz : z < H.size) (hdvd : H.size ∣ n + k + z) : z = H.zeros n k := by
  have hlt : H.zeros n k < H.size := Nat.mod_lt _ H.size_pos
  have hmod : n + k + z ≡ n + k + H.zeros n k [MOD H.size] :=
    (Nat.modEq_zero_iff_dvd.mpr hdvd).trans
      (Nat.modEq_zero_iff_dvd.mpr (H.size_dvd_add_zeros n k)).symm
  exact Nat.ModEq.eq_of_lt_of_lt (Nat.ModEq.add_left_cancel' _ hmod) hz hlt

/-- A message with a mark, zeros and an end behind it, in whole blocks. -/
def padded (mark zero : α) (tail m : List α) : List α :=
  m ++ mark :: (List.replicate (H.zeros (m.length + 1) tail.length) zero ++ tail)

end BlockHash

end SignalEventLoop.Lib

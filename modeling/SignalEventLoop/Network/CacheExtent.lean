/-
# The sizes of an append

Whether `appendCache` takes some bytes, refuses them or leaves its block, and which sizes it
leaves behind, depends on three numbers of the state (`Extent`).  With
`ProtocalBase::decodeFrame`, which takes all bytes as one frame, `readFromBuf` then makes them
a frame, or drops a part of them as invalid data.
-/
import SignalEventLoop.Network.CacheRead

namespace SignalEventLoop.Network

/-- The numbers that `appendCache` looks at: `cache_size`, `write_offset`, and the number of
bytes from the read offset on. -/
@[ext]
structure Extent where
  size : ℕ
  write : ℕ
  kept : ℕ
deriving DecidableEq

def CacheState.extent (s : CacheState) : Extent :=
  ⟨s.cacheSize, s.writeOffset, s.writeOffset - s.readOffset⟩

namespace Extent

variable (B : IcacheBuffer) (e : Extent) (len : ℕ)

/-- The size test of `appendCache` refuses `len` bytes. -/
def Refuses : Prop := e.size < add32 len e.write ∧ B.maxCacheSize < add32 e.kept len

/-- The size of the block that `appendCache` asks `resize` for. -/
def newSize : ℕ :=
  min (if mul32 10 len < sub32 e.size e.kept then add32 e.kept B.protocal.maxFrameSize
    else add32 e.size B.protocal.maxFrameSize) B.maxCacheSize

/-- The block that `len` bytes are copied to has room for them. -/
def Fits : Prop :=
  if e.size < add32 len e.write then e.kept + len ≤ add32 (e.newSize B len) 1
  else e.write + len ≤ add32 e.size 1

/-- `appendCache` takes `len` bytes. -/
def Takes : Prop := ¬ e.Refuses B len ∧ e.Fits B len

/-- The sizes after `len` bytes are taken. -/
def append : Extent :=
  if e.size < add32 len e.write then ⟨e.newSize B len, e.kept + len, e.kept + len⟩
  else ⟨e.size, e.write + len, e.kept + len⟩

instance decidableRefuses : Decidable (e.Refuses B len) :=
  inferInstanceAs (Decidable (_ ∧ _))

instance decidableFits : Decidable (e.Fits B len) :=
  inferInstanceAs (Decidable (ite _ _ _))

instance decidableTakes : Decidable (e.Takes B len) :=
  inferInstanceAs (Decidable (_ ∧ _))

end Extent

namespace IcacheBuffer

open CacheState

variable {B : IcacheBuffer} {s s' : CacheState} {data : Bytes}

lemma Appended.ne (h : Appended s data s') (hne : data.1 ≠ []) : s' ≠ s := by
  rintro rfl
  exact hne (List.append_right_eq_self.mp h.rest.symm)

lemma appendCache_of_refuses (h : s.InMem) (href : s.extent.Refuses B data.1.length) :
    B.appendCache s data = some (false, s) := by
  obtain ⟨hfull, hover⟩ : s.cacheSize < add32 data.1.length s.writeOffset ∧
    B.maxCacheSize < add32 (s.writeOffset - s.readOffset) data.1.length := href
  rw [appendCache]
  dsimp only
  rw [h.data_size, if_pos hfull, if_pos hover, ite_self]

/-- An append that is not refused returns true if and only if it fits. -/
lemma appendCache_isSome_of_not_refuses (h : s.InMem) (hb : Block s) (hne : data.1 ≠ [])
    (href : ¬ s.extent.Refuses B data.1.length) :
    (B.appendCache s data).isSome ↔ s.extent.Fits B data.1.length :=
  appendCache_isSome_of_sizeTest h hb hne fun hfull => not_lt.mp fun hover => href ⟨hfull, hover⟩

/-- The read offset is at the beginning of a new block. -/
lemma readOffset_of_resize (h : s.InMem) {new_size : ℕ} (hs' : s.resize new_size = some s') :
    s'.readOffset = 0 := by
  obtain ⟨buf, -, rfl⟩ := resize_eq_some h hs'
  cases hmap : s.frameCacheMap with
  | nil => simp [readOffset, hmap]
  | cons f fs => simp [readOffset, hmap]

/-- The sizes after an append that returns true. -/
lemma extent_of_appendCache (h : s.InMem) (hs' : B.appendCache s data = some (true, s')) :
    s'.extent = s.extent.append B data.1.length := by
  have hr := h.readOffset_le_write
  rw [appendCache] at hs'
  dsimp only at hs'
  rw [newSize_eq_grownSize h] at hs'
  split_ifs at hs' with hlen hfull hover
  · exact absurd (Prod.mk.inj (Option.some.inj hs')).1 (by simp)
  · exact absurd (Prod.mk.inj (Option.some.inj hs')).1 (by simp)
  · -- into a new block
    obtain ⟨s₁, hs₁, hs₂⟩ := Option.bind_eq_some_iff.mp hs'
    obtain ⟨s₂, hcopy, he⟩ := Option.map_eq_some_iff.mp hs₂
    obtain ⟨-, rfl⟩ := Prod.mk.inj he
    have hmoved := resize_moved h hs₁
    have hzero := readOffset_of_resize h hs₁
    obtain ⟨buf, -, rfl⟩ := copyIn_eq_some hmoved.inMem hcopy
    have hread : s₁.writeOffset + data.1.length - s₁.readOffset =
        s.writeOffset - s.readOffset + data.1.length := by
      rw [hzero, hmoved.writeOffset, Nat.sub_zero]
    have happend : s.extent.append B data.1.length = ⟨s.extent.newSize B data.1.length,
        s.extent.kept + data.1.length, s.extent.kept + data.1.length⟩ := if_pos hfull
    rw [happend]
    ext
    · exact hmoved.cacheSize
    · exact congrArg (· + data.1.length) hmoved.writeOffset
    · exact hread
  · -- in place
    obtain ⟨s₁, hcopy, he⟩ := Option.map_eq_some_iff.mp hs'
    obtain ⟨-, rfl⟩ := Prod.mk.inj he
    obtain ⟨buf, -, rfl⟩ := copyIn_eq_some h hcopy
    have hread : s.writeOffset + data.1.length - s.readOffset =
        s.writeOffset - s.readOffset + data.1.length := by omega
    have happend : s.extent.append B data.1.length = ⟨s.extent.size,
        s.extent.write + data.1.length, s.extent.kept + data.1.length⟩ := if_neg hfull
    rw [happend]
    ext
    · rfl
    · rfl
    · exact hread

/-- Only the size test refuses data. -/
lemma refuses_of_appendCache (h : s.InMem) (hne : data.1 ≠ [])
    (hs' : B.appendCache s data = some (false, s')) : s.extent.Refuses B data.1.length := by
  rw [appendCache] at hs'
  dsimp only at hs'
  rw [h.data_size, if_neg (by simpa using hne)] at hs'
  split_ifs at hs' with hfull hover
  · exact ⟨hfull, hover⟩
  · obtain ⟨s₁, -, hs₂⟩ := Option.bind_eq_some_iff.mp hs'
    obtain ⟨s₂, -, he⟩ := Option.map_eq_some_iff.mp hs₂
    exact absurd (Prod.mk.inj he).1 (by simp)
  · obtain ⟨s₁, -, he⟩ := Option.map_eq_some_iff.mp hs'
    exact absurd (Prod.mk.inj he).1 (by simp)

/-- What an append does that is taken. -/
lemma appendCache_of_takes (h : s.InMem) (hb : Block s) (hne : data.1 ≠ [])
    (htake : s.extent.Takes B data.1.length) :
    ∃ s', B.appendCache s data = some (true, s') ∧ Appended s data s' ∧ Block s' ∧
      s'.extent = s.extent.append B data.1.length := by
  obtain ⟨href, hfits⟩ := htake
  obtain ⟨⟨ret, s'⟩, happ⟩ := Option.isSome_iff_exists.mp
    ((appendCache_isSome_of_not_refuses h hb hne href).mpr hfits)
  rcases appendCache_cases h happ with ⟨rfl, -⟩ | ⟨rfl, -, happended⟩
  · exact absurd (refuses_of_appendCache h hne happ) href
  · exact ⟨s', happ, happended, appendCache_block h hb happ, extent_of_appendCache h happ⟩

/-! ## Parsing -/

/-- What becomes of the bytes that are not decoded yet when `decodeFrame` takes them as one
frame: a frame, or invalid data, of which as many bytes are left as a frame can have. -/
inductive Parsed (B : IcacheBuffer) (s : CacheState) (bytes : List UInt8) (s' : CacheState) : Prop
  | frame (hle : bytes.length ≤ B.protocal.maxFrameSize) (frames : s'.frames = s.frames ++ [bytes])
      (rest : s'.rest = [])
  | invalid (hlt : B.protocal.maxFrameSize < bytes.length) (frames : s'.frames = s.frames)
      (rest : s'.rest.length = B.protocal.maxFrameSize)

lemma readOffset_updateFrameCache (n : ℕ) :
    (updateFrameCache s s.decodeOffset n).readOffset = s.readOffset := by
  cases hmap : s.frameCacheMap with
  | nil => simp [readOffset, updateFrameCache, hmap]
  | cons f fs => simp [readOffset, updateFrameCache, hmap]

/-- All bytes that are not decoded yet become one frame. -/
lemma updateFrameCache_whole (h : s.InMem) :
    (updateFrameCache s s.decodeOffset s.rest.length).InMem ∧
      (updateFrameCache s s.decodeOffset s.rest.length).frames = s.frames ++ [s.rest] ∧
      (updateFrameCache s s.decodeOffset s.rest.length).rest = [] := by
  obtain ⟨hmem, hframes, hrest⟩ := updateFrameCache_spec h (i := 0) (n := s.rest.length)
    (by rw [h.length_rest, Nat.zero_add])
  simp only [Nat.add_zero, Nat.zero_add, Lib.slice, List.drop_zero, List.take_length,
    List.drop_length] at hmem hframes hrest
  exact ⟨hmem, hframes, hrest⟩

/-- The loop of `readFromBuf` with `ProtocalBase::decodeFrame`. -/
lemma parseLoop_whole (hdec : ∀ call mem len, B.protocal.decodeFrame call mem len = (0, len))
    (h : s.InMem) (hpos : 0 < s.rest.length) (fuel : ℕ) :
    ∃ invalid s', B.parseLoop (fuel + 2) s = some (invalid, s') ∧ s'.InMem ∧ SameBlock s s' ∧
      Parsed B s s.rest s' ∧ (s.rest.length ≤ B.protocal.maxFrameSize → s'.extent = s.extent) := by
  have hd := h.decode_le
  have hw := h.write_lt
  have hlen := h.length_rest
  have hfirst : B.decoded s = (0, s.rest.length) := by rw [decoded, hdec, hlen]
  obtain ⟨-, hframe, hinvalid⟩ := parseLoop_succ (B := B) h (fuel + 1)
  rw [hfirst] at hframe hinvalid
  dsimp only at hframe hinvalid
  simp only [Nat.zero_add, Nat.add_zero] at hframe
  by_cases hle : s.rest.length ≤ B.protocal.maxFrameSize
  · -- one frame, and then no bytes
    have hcount : ({ s with decodeCalls := s.decodeCalls + 1 } : CacheState).InMem :=
      ⟨h.buf_lt, hd, h.write_le, h.frames_le, h.ordered⟩
    obtain ⟨hmem, hframes, hnil⟩ := updateFrameCache_whole hcount
    rw [hframe hpos hle (le_of_eq hlen)]
    have hempty := hmem.length_rest
    rw [hnil, List.length_nil] at hempty
    obtain ⟨hnone, -, -⟩ := parseLoop_succ (B := B) hmem fuel
    refine ⟨false, _, hnone ?_, ?_, ⟨rfl, rfl, rfl⟩, .frame hle hframes hnil, fun _ => ?_⟩
    · rw [decoded, hdec]
      exact hempty.symm
    · exact ⟨hmem.buf_lt, hmem.decode_le, hmem.write_le, hmem.frames_le, hmem.ordered⟩
    · exact congrArg (fun r => (⟨s.cacheSize, s.writeOffset, s.writeOffset - r⟩ : Extent))
        (readOffset_updateFrameCache s.rest.length)
  · have hbig : B.protocal.maxFrameSize < s.rest.length := not_le.mp hle
    have hle' : s.decodeOffset + (s.rest.length - B.protocal.maxFrameSize) ≤ s.writeOffset := by
      omega
    have hmem : ({ s with
        decodeOffset := s.decodeOffset + (s.rest.length - B.protocal.maxFrameSize)
        decodeCalls := s.decodeCalls + 1 } : CacheState).InMem :=
      ⟨h.buf_lt, hle', h.write_le, fun f hf => le_trans (h.frames_le f hf) (Nat.le_add_right _ _),
        h.ordered⟩
    refine ⟨true, _, hinvalid hbig (by omega) (by omega), hmem, ⟨rfl, rfl, rfl⟩,
      .invalid hbig rfl ?_, fun hle' => absurd hle' hle⟩
    rw [hmem.length_rest]
    dsimp only
    omega

/-- `readFromBuf` of data that is taken. -/
lemma readFromBuf_of_takes
    (hdec : ∀ call mem len, B.protocal.decodeFrame call mem len = (0, len))
    (hbase : B.isStream = false) (h : s.InMem) (hb : Block s) (hne : data.1 ≠ [])
    (htake : s.extent.Takes B data.1.length) :
    ∃ s', B.readFromBuf s data = some ((data.1.length : ℤ), s') ∧ s'.InMem ∧ Block s' ∧
      Parsed B s (s.rest ++ data.1) s' ∧
      ((s.rest ++ data.1).length ≤ B.protocal.maxFrameSize →
        s'.extent = s.extent.append B data.1.length) := by
  obtain ⟨s₁, happ, happended, hb₁, hext₁⟩ := appendCache_of_takes h hb hne htake
  have hpos : 0 < s₁.rest.length := by
    rw [happended.rest, List.length_append]
    have := List.length_pos_of_ne_nil hne
    omega
  obtain ⟨fuel, hfuel⟩ : ∃ fuel, s₁.writeOffset - s₁.decodeOffset + 1 = fuel + 2 :=
    ⟨s₁.rest.length - 1, by rw [← happended.inMem.length_rest]; omega⟩
  obtain ⟨invalid, s', hloop, hmem, hsame, hparsed, hext⟩ :=
    parseLoop_whole hdec happended.inMem hpos fuel
  rw [happended.rest] at hparsed hext
  refine ⟨s', ?_, hmem, hb₁.of_sameBlock hsame, ?_, fun hle => (hext hle).trans hext₁⟩
  · rw [readFromBuf, happ, Option.bind_some]
    simp only [if_true, hfuel, hloop, Option.map_some, hbase, Bool.false_and, Bool.false_eq_true,
      if_false]
  · cases hparsed with
    | frame hle hframes hrest => exact .frame hle (by rw [hframes, happended.frames]) hrest
    | invalid hlt hframes hrest => exact .invalid hlt (hframes.trans happended.frames) hrest

end IcacheBuffer

end SignalEventLoop.Network

/-
# MD5 in parts

`MY_MD5Context` and the functions over it (`third_party/md5/md5.cpp`).  A context has four words
of state, a count of bits, and a buffer of 64 bytes.  `addData` computes the bits of a part in 32
bits before it adds them, so that the count is right for parts of fewer than 2 ^ 29 bytes only;
the place in the buffer is right for all parts.
-/
import SignalEventLoop.Hash.Md5Transform
import SignalEventLoop.Lib.BlockHash
import SignalEventLoop.Lib.HexText

namespace SignalEventLoop.Hash.Md5

open Lib

/-- `MY_MD5Context` -/
structure Ctx where
  fState : State
  fBitCount : UInt64
  fWorkingBuffer : List UInt8

/-- The state of a new context. -/
def start : State := #v[0x67452301, 0xefcdab89, 0x98badcfe, 0x10325476]

/-- The blocks of 64 bytes, with the code's block function. -/
def blocks : BlockHash UInt8 State := ⟨64, by decide, start, transform64Bytes⟩

/-- The constructor; the buffer is not initialised. -/
def Ctx.new (fWorkingBuffer : List UInt8) : Ctx := ⟨start, 0, fWorkingBuffer⟩

def addData (c : Ctx) (inputData : List UInt8) : Option Ctx := do
  let byteCount := c.fBitCount >>> 3
  let bufferBytesInUse := (byteCount &&& 0x3F).toNat
  let fBitCount := c.fBitCount + (UInt32.ofNat inputData.length <<< 3).toUInt64
  let (fState, fWorkingBuffer) ←
    blocks.feed 32 bufferBytesInUse inputData c.fState c.fWorkingBuffer
  some ⟨fState, fBitCount, fWorkingBuffer⟩

def PADDING : List UInt8 := 0x80 :: List.replicate 63 0

def unpack64 (n : UInt64) : List UInt8 :=
  (List.range 8).map fun i => ((n >>> UInt64.ofNat (8 * i)) &&& 0xFF).toUInt8

def unpack32 (n : UInt32) : List UInt8 :=
  (List.range 4).map fun i => ((n >>> UInt32.ofNat (8 * i)) &&& 0xFF).toUInt8

def finalize (c : Ctx) : Option (List UInt8) := do
  let bitCountInBytes := unpack64 c.fBitCount
  let byteCount := c.fBitCount >>> 3
  let bufferBytesInUse := (byteCount &&& 0x3F).toNat
  let numPaddingBytes :=
    if bufferBytesInUse < 56 then 56 - bufferBytesInUse else 64 + 56 - bufferBytesInUse
  let padding ← load PADDING 0 numPaddingBytes
  let c ← addData c padding
  let c ← addData c bitCountInBytes
  some (unpack32 (c.fState.get Reg.a) ++ unpack32 (c.fState.get Reg.b) ++
    unpack32 (c.fState.get Reg.c) ++ unpack32 (c.fState.get Reg.d))

def hex : List UInt8 := text "0123456789abcdef"

/-- The digits of a digest, and a NUL. -/
def hexDigits (digestInBytes : List UInt8) : List UInt8 :=
  (digestInBytes.flatMap fun b : UInt8 =>
    [hex.getD (b >>> 4).toNat 0, hex.getD (b &&& 0x0F).toNat 0]) ++ [0]

/-- `MY_MD5Context::end` -/
def Ctx.end (c : Ctx) : Option (List UInt8) := (finalize c).map hexDigits

/-- A context gets the parts of a message one after the other. -/
def run (buffer : List UInt8) (parts : List (List UInt8)) : Option (List UInt8) := do
  let c ← parts.foldlM addData (Ctx.new buffer)
  finalize c

def MY_our_MD5DataRaw (buffer data : List UInt8) : Option (List UInt8) := do
  let ctx ← addData (Ctx.new buffer) data
  finalize ctx

def MY_our_MD5Data (buffer data : List UInt8) : Option (List UInt8) := do
  let ctx ← addData (Ctx.new buffer) data
  ctx.end

def Get_MD5_String (buffer data : List UInt8) : Option (List UInt8) := MY_our_MD5Data buffer data

/-! ## The standard -/

/-- The blocks of 64 bytes, with the standard's block function. -/
def standard : BlockHash UInt8 State := ⟨64, by decide, start, compress⟩

/-- The hash of a message that ends with a number of bits, in 64 bits. -/
def md5With (bits : ℕ) (m : List UInt8) : List UInt8 :=
  (standard.absorb start (standard.padded 0x80 0 (toBE 8 bits).reverse m)).toList.flatMap leBytes

def md5 (m : List UInt8) : List UInt8 := md5With (8 * m.length) m

/-! ## The count and the digest -/

lemma blocks_eq : blocks = standard := by
  rw [blocks, standard, funext fun state => funext (transform64Bytes_eq state)]

lemma unpack32_eq (n : UInt32) : unpack32 n = leBytes n := by
  have hand : ∀ w : UInt32, (w &&& 0xFF).toUInt8 = w.toUInt8 := toUInt8_and
  simp only [unpack32, hand]
  rfl

lemma unpack64_eq (n : UInt64) : unpack64 n = (toBE 8 n.toNat).reverse := by
  have hbyte : ∀ k < 64, ((n >>> UInt64.ofNat k) &&& 0xFF).toUInt8 =
      UInt8.ofNat (n.toNat / 2 ^ k) := by
    intro k hk
    rw [← UInt8.toNat_inj, UInt64.toNat_toUInt8, UInt8.toNat_ofNat', UInt64.toNat_and,
      UInt64.toNat_shiftRight, UInt64.toNat_ofNat', Nat.mod_eq_of_lt (show k < 2 ^ 64 by omega),
      Nat.mod_eq_of_lt hk, Nat.shiftRight_eq_div_pow]
    exact (Nat.and_two_pow_sub_one_eq_mod _ 8).symm ▸ Nat.mod_mod _ _
  have hmap : unpack64 n = (List.range 8).map fun i => UInt8.ofNat (n.toNat / 2 ^ (8 * i)) :=
    List.map_congr_left fun i hi => hbyte _ (by rw [List.mem_range] at hi; omega)
  rw [hmap]
  simp [List.range_succ, toBE, Nat.div_div_eq_div_mul]

lemma digest_eq (state : State) :
    unpack32 (state.get Reg.a) ++ unpack32 (state.get Reg.b) ++ unpack32 (state.get Reg.c) ++
      unpack32 (state.get Reg.d) = state.toList.flatMap leBytes := by
  obtain ⟨⟨words⟩, hwords⟩ := state
  match words, hwords with
  | [a, b, c, d], _ =>
    simp only [unpack32_eq]
    rfl

/-- A context has counted a number of bits, and its state and its buffer stand for a message. -/
structure Ctx.Holds (m : List UInt8) (bits : ℕ) (c : Ctx) : Prop where
  stream : blocks.Holds m c.fState c.fWorkingBuffer
  count : c.fBitCount.toNat = bits % 2 ^ 64
  place : bits % 512 = 8 * m.length % 512

variable {c : Ctx} {m data buffer : List UInt8} {bits : ℕ}

lemma holds_new (h : buffer.length = 64) : (Ctx.new buffer).Holds [] 0 :=
  ⟨BlockHash.holds_init h, rfl, rfl⟩

/-- The bytes of the buffer that are in use. -/
lemma Ctx.Holds.used (h : c.Holds m bits) :
    ((c.fBitCount >>> 3) &&& 0x3F).toNat = m.length % 64 := by
  have hcount := h.count
  have hplace := h.place
  have hmask : ((c.fBitCount >>> 3) &&& 0x3F).toNat = c.fBitCount.toNat / 2 ^ 3 % 2 ^ 6 := by
    rw [UInt64.toNat_and, UInt64.toNat_shiftRight, ← Nat.and_two_pow_sub_one_eq_mod,
      ← Nat.shiftRight_eq_div_pow]
    rfl
  omega

/-- A part is counted in 32 bits. -/
lemma count_step {n : UInt64} (len : ℕ) (h : n.toNat = bits % 2 ^ 64) :
    (n + (UInt32.ofNat len <<< 3).toUInt64).toNat = (bits + 8 * len % 2 ^ 32) % 2 ^ 64 := by
  have hthree : UInt32.toNat 3 % 32 = 3 := rfl
  rw [UInt64.toNat_add, UInt32.toNat_toUInt64, UInt32.toNat_shiftLeft, UInt32.toNat_ofNat',
    Nat.shiftLeft_eq, hthree]
  omega

/-- More data stands for the message with the data behind it. -/
theorem Ctx.Holds.add (h : c.Holds m bits) (data : List UInt8) (hlen : data.length + 64 ≤ 2 ^ 32) :
    ∃ c', addData c data = some c' ∧
      c'.Holds (m ++ data) (bits + 8 * data.length % 2 ^ 32) := by
  have hsize : blocks.size = 64 := rfl
  obtain ⟨state, buffer, hfeed, hstream⟩ :=
    h.stream.feed (show data.length + blocks.size ≤ 2 ^ 32 by omega)
  have hcount := count_step data.length h.count
  have hplace := h.place
  refine ⟨⟨state, _, buffer⟩, ?_, hstream, hcount, ?_⟩
  · rw [addData, h.used]
    exact congrArg (Option.bind · _) hfeed
  · rw [List.length_append]
    omega

/-! ## The end of a message -/

/-- The padding is a mark and the zeros that are missing. -/
lemma load_padding (n : ℕ) : load PADDING 0
    (if n % 64 < 56 then 56 - n % 64 else 64 + 56 - n % 64) =
      some (0x80 :: List.replicate (standard.zeros (n + 1) 8) 0) := by
  have hmod := Nat.mod_lt n (show 0 < 64 by norm_num)
  obtain ⟨z, hz, hlt, hdvd⟩ : ∃ z,
      (if n % 64 < 56 then 56 - n % 64 else 64 + 56 - n % 64) = z + 1 ∧ z < standard.size ∧
        standard.size ∣ n + 1 + 8 + z := by
    have hsize : standard.size = 64 := rfl
    rw [hsize]
    split_ifs
    · exact ⟨55 - n % 64, by omega, by omega, by omega⟩
    · exact ⟨119 - n % 64, by omega, by omega, by omega⟩
  have hle : z ≤ 63 := Nat.le_of_lt_succ hlt
  rw [hz, ← standard.eq_zeros hlt hdvd, load, if_pos (by simp [PADDING]; omega), slice,
    List.drop_zero, PADDING, List.take_succ_cons, List.take_replicate, min_eq_left hle]

/-- The digest of a context that stands for a message. -/
theorem Ctx.Holds.finalize (h : c.Holds m bits) : finalize c = some (md5With bits m) := by
  have hzeros : standard.zeros (m.length + 1) 8 < 64 := Nat.mod_lt _ standard.size_pos
  obtain ⟨c₁, hpad, h₁⟩ := h.add (0x80 :: List.replicate (standard.zeros (m.length + 1) 8) 0) (by
    rw [List.length_cons, List.length_replicate]
    omega)
  obtain ⟨c₂, hcount, h₂⟩ := h₁.add (toBE 8 bits).reverse (by simp)
  have hbits : unpack64 c.fBitCount = (toBE 8 bits).reverse := by
    rw [unpack64_eq, h.count]
    exact congrArg List.reverse (toBE_mod 8 bits)
  have hpadded : m ++ 0x80 :: List.replicate (standard.zeros (m.length + 1) 8) 0 ++
      (toBE 8 bits).reverse = standard.padded 0x80 0 (toBE 8 bits).reverse m := by
    simp [BlockHash.padded]
  have hstate := h₂.stream.state
  rw [hpadded, blocks_eq] at hstate
  rw [Md5.finalize, hbits, h.used]
  simp only [load_padding, hpad, hcount, bind, Option.bind, digest_eq, hstate]
  rfl

/-- The bits of some parts, as the parts are counted. -/
def bitsOf (parts : List (List UInt8)) : ℕ :=
  (parts.map fun data => 8 * data.length % 2 ^ 32).sum

lemma run_eq {parts : List (List UInt8)} (hbuf : buffer.length = 64)
    (hparts : ∀ data ∈ parts, data.length + 64 ≤ 2 ^ 32) :
    run buffer parts = some (md5With (bitsOf parts) parts.flatten) := by
  have hfold : ∀ {m : List UInt8} {bits : ℕ} {c : Ctx}, c.Holds m bits →
      ∃ c', parts.foldlM addData c = some c' ∧
        c'.Holds (m ++ parts.flatten) (bits + bitsOf parts) := by
    induction parts with
    | nil => exact fun {m bits c} h => ⟨c, rfl, by simpa [bitsOf] using h⟩
    | cons data parts ih =>
      intro m bits c h
      rw [List.forall_mem_cons] at hparts
      obtain ⟨c₁, hadd, h₁⟩ := h.add data hparts.1
      obtain ⟨c₂, hrest, h₂⟩ := ih hparts.2 h₁
      refine ⟨c₂, ?_, by simpa [bitsOf, Nat.add_assoc] using h₂⟩
      rw [List.foldlM_cons, hadd]
      exact hrest
  obtain ⟨c, hrun, h⟩ := hfold (holds_new hbuf)
  rw [Nat.zero_add] at h
  rw [run, hrun]
  exact h.finalize

lemma bitsOf_eq {parts : List (List UInt8)} (hparts : ∀ data ∈ parts, data.length < 2 ^ 29) :
    bitsOf parts = 8 * parts.flatten.length := by
  induction parts with
  | nil => rfl
  | cons data parts ih =>
    rw [List.forall_mem_cons] at hparts
    have ih := ih hparts.2
    rw [bitsOf] at ih ⊢
    rw [List.map_cons, List.sum_cons, ih, List.flatten_cons, List.length_append]
    omega

/-- **Parts of fewer than 2 ^ 29 bytes are hashed as the standard says**, however the message is
cut into them. -/
theorem md5_parts {parts : List (List UInt8)} (hbuf : buffer.length = 64)
    (hparts : ∀ data ∈ parts, data.length < 2 ^ 29) :
    run buffer parts = some (md5 parts.flatten) := by
  rw [run_eq hbuf fun data hdata => by have := hparts data hdata; omega, bitsOf_eq hparts, md5]

theorem md5_parts_three :
    run (List.replicate 64 9) [[97], [], [98, 99]] = some (md5 [97, 98, 99]) :=
  md5_parts rfl (by simp)

lemma MY_our_MD5DataRaw_eq (hbuf : buffer.length = 64) (hlen : data.length < 2 ^ 29) :
    MY_our_MD5DataRaw buffer data = some (md5 data) := by
  have hrun := run_eq hbuf (List.forall_mem_singleton.mpr (show data.length + 64 ≤ 2 ^ 32 by omega))
  rw [bitsOf_eq (List.forall_mem_singleton.mpr hlen), List.flatten_singleton] at hrun
  rw [md5, ← hrun, run, List.foldlM_cons, MY_our_MD5DataRaw]
  simp only [List.foldlM_nil, bind_pure]

lemma length_md5With (bits : ℕ) (m : List UInt8) : (md5With bits m).length = 16 := by
  rw [md5With, ← digest_eq]
  simp only [List.length_append, unpack32_eq, length_leBytes]

/-! ## The text of a digest -/

lemma hex_getD {n : ℕ} (hn : n < 16) : hex.getD n 0 = hexByte false n := by
  interval_cases n <;> decide +kernel

/-- The digits of some bytes are the digits of their number. -/
lemma hexText_ofBE (upper : Bool) (bytes : List UInt8) :
    hexText upper (2 * bytes.length) (ofBE bytes) =
      bytes.flatMap fun b => hexText upper 2 b.toNat := by
  induction bytes using List.reverseRecOn with
  | nil => rfl
  | append_singleton bytes b ih =>
    have hb := b.toNat_lt
    have hdiv : (256 * ofBE bytes + b.toNat) / 16 / 16 = ofBE bytes := by omega
    have hmod : (256 * ofBE bytes + b.toNat) / 16 % 16 = b.toNat / 16 % 16 := by omega
    have hmod' : (256 * ofBE bytes + b.toNat) % 16 = b.toNat % 16 := by omega
    rw [List.flatMap_append, ← ih, List.length_append, List.length_singleton, ofBE_concat,
      Nat.mul_add, hexText, hexText, hdiv, hmod, hmod', List.append_assoc]
    rfl

lemma hexDigits_eq (bytes : List UInt8) :
    hexDigits bytes = hexText false (2 * bytes.length) (ofBE bytes) ++ [0] := by
  have hbyte : ∀ b : UInt8, [hex.getD (b >>> 4).toNat 0, hex.getD (b &&& 0x0F).toNat 0] =
      hexText false 2 b.toNat := by
    intro b
    have hb := b.toNat_lt
    have hhigh : (b >>> 4).toNat = b.toNat / 16 % 16 := by
      rw [UInt8.toNat_shiftRight, Nat.shiftRight_eq_div_pow,
        show UInt8.toNat 4 % 8 = 4 from rfl]
      omega
    have hlow : (b &&& 0x0F).toNat = b.toNat % 16 := by
      rw [UInt8.toNat_and, show UInt8.toNat 0x0F = 2 ^ 4 - 1 from rfl,
        Nat.and_two_pow_sub_one_eq_mod]
    rw [hhigh, hlow, hex_getD (Nat.mod_lt _ (by norm_num)), hex_getD (Nat.mod_lt _ (by norm_num))]
    rfl
  rw [hexDigits, hexText_ofBE, funext hbyte]

/-- **The text of a hash**, for all data that the code does not read behind: 32 digits and a NUL.
The digits are read back as the number of the digest. -/
theorem get_MD5_string (hbuf : buffer.length = 64) (hlen : data.length + 64 ≤ 2 ^ 32) :
    ∃ digits, Get_MD5_String buffer data = some (digits ++ [0]) ∧ digits.length = 32 ∧
      scanHex 32 (digits ++ [0]) =
        some (false, ofBE (md5With (8 * data.length % 2 ^ 32) data)) := by
  have hlen16 := length_md5With (8 * data.length % 2 ^ 32) data
  have hrun := run_eq hbuf (List.forall_mem_singleton.mpr hlen)
  rw [bitsOf, List.map_singleton, List.sum_singleton, List.flatten_singleton] at hrun
  refine ⟨hexText false 32 (ofBE (md5With (8 * data.length % 2 ^ 32) data)), ?_,
    length_hexText _ _ _, scanHex_hexText false (by norm_num) ?_ _⟩
  · have hend : Get_MD5_String buffer data = (run buffer [data]).map hexDigits := by
      rw [Get_MD5_String, MY_our_MD5Data, run, List.foldlM_cons]
      simp only [Ctx.end, List.foldlM_nil, bind_pure]
      cases addData (Ctx.new buffer) data <;> rfl
    rw [hend, hrun, Option.map_some, hexDigits_eq, hlen16]
  · have h := ofBE_lt (md5With (8 * data.length % 2 ^ 32) data)
    rw [hlen16] at h
    exact h.trans_eq (by norm_num)

theorem get_MD5_string_three : ∃ digits,
    Get_MD5_String (List.replicate 64 9) [97, 98, 99] = some (digits ++ [0]) ∧
      digits.length = 32 ∧
      scanHex 32 (digits ++ [0]) = some (false, ofBE (md5With (8 * 3 % 2 ^ 32) [97, 98, 99])) :=
  get_MD5_string rfl (by simp)

end SignalEventLoop.Hash.Md5

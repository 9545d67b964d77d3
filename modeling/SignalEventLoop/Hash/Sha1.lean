/-
# SHA-1 in parts

`ws_sha1_init`, `ws_sha1_update`, `ws_sha1_final` and `ws_hmac_sha1`
(`imp/network/websocket/websocket_connection_helper.cpp`).  A context has five words of state, a
count of bits in two words, the lower one first, and a buffer of 64 bytes.  `none` is an access
behind a buffer or a loop that does not end.
-/
import SignalEventLoop.Hash.Sha1Transform
import SignalEventLoop.Lib.BlockHash

namespace SignalEventLoop.Hash.Sha1

open Lib

/-- `ws_sha1_ctx` -/
structure Ctx where
  state : State
  count₀ : UInt32
  count₁ : UInt32
  buffer : List UInt8

/-- The state of a new context. -/
def start : State := #v[0x67452301, 0xEFCDAB89, 0x98BADCFE, 0x10325476, 0xC3D2E1F0]

lemma blockSize_pos : 0 < 64 := by decide

/-- The blocks of 64 bytes, with the code's block function. -/
def blocks : BlockHash UInt8 State := ⟨64, blockSize_pos, start, ws_sha1_transform⟩

/-- The buffer is not initialised. -/
def ws_sha1_init (context : Ctx) : Ctx :=
  { context with state := start, count₀ := 0, count₁ := 0 }

def ws_sha1_update (context : Ctx) (data : List UInt8) : Option Ctx := do
  let j := context.count₀
  let count₀ := j + UInt32.ofNat data.length <<< 3
  let carried := if count₀ < j then context.count₁ + 1 else context.count₁
  let count₁ := carried + UInt32.ofNat (data.length >>> 29)
  let (state, buffer) ←
    blocks.feed 64 ((j >>> 3) &&& 63).toNat data context.state context.buffer
  some ⟨state, count₀, count₁, buffer⟩

/-- The count of bits, most significant byte first. -/
def finalcount (context : Ctx) : List UInt8 :=
  (List.range 8).map fun i =>
    (((if i ≥ 4 then context.count₀ else context.count₁) >>>
      UInt32.ofNat ((3 - (i &&& 3)) * 8)) &&& 255).toUInt8

/-- The loop `while ((context->count[0] & 504) != 448)`. -/
def fillLoop : ℕ → Ctx → Option Ctx
  | 0, _ => none
  | fuel + 1, context =>
    if context.count₀ &&& 504 ≠ 448 then
      (ws_sha1_update context [0]).bind (fillLoop fuel)
    else some context

def digest (state : State) : List UInt8 :=
  (List.range 20).map fun i =>
    ((state.get (Reg.ofNat (i >>> 2)) >>> UInt32.ofNat ((3 - (i &&& 3)) * 8)) &&& 255).toUInt8

/-- What `memset` leaves. -/
def erased : Ctx := ⟨Vector.replicate 5 0, 0, 0, List.replicate 64 0⟩

/-- The digest, and the context that was erased. -/
def ws_sha1_final (context : Ctx) : Option (List UInt8 × Ctx) := do
  let finalcount := finalcount context
  let context ← ws_sha1_update context [0x80]
  let context ← fillLoop 64 context
  let context ← ws_sha1_update context finalcount
  some (digest context.state, erased)

/-- A context gets the parts of a message one after the other. -/
def run (context : Ctx) (parts : List (List UInt8)) : Option (List UInt8 × Ctx) := do
  let context ← parts.foldlM ws_sha1_update (ws_sha1_init context)
  ws_sha1_final context

/-- A context is used for one message after the other. -/
def runAll (context : Ctx) : List (List (List UInt8)) → Option (List (List UInt8))
  | [] => some []
  | parts :: messages => do
    let (digest, context) ← run context parts
    let digests ← runAll context messages
    some (digest :: digests)

/-- A key that does not fit into a block is hashed. -/
def shortKey (context : Ctx) (key : List UInt8) : Option (List UInt8 × Ctx) :=
  if key.length > 64 then run context [key] else some (key, context)

def ws_hmac_sha1 (context : Ctx) (key data : List UInt8) : Option (List UInt8) := do
  let (key, context) ← shortKey context key
  let buf1 ← store (List.replicate 64 0) 0 key
  let buf2 ← store (List.replicate 64 0) 0 key
  let buf1 := buf1.map (· ^^^ 0x36)
  let buf2 := buf2.map (· ^^^ 0x5c)
  let (out, context) ← run context [buf1, data]
  let (out, _) ← run context [buf2, out]
  some out

/-! ## The standard -/

/-- The blocks of 64 bytes, with the standard's block function. -/
def standard : BlockHash UInt8 State := ⟨64, blockSize_pos, start, compress⟩

/-- A message ends with its number of bits, in 64 bits. -/
def sha1 (m : List UInt8) : List UInt8 :=
  (standard.absorb start (standard.padded 0x80 0 (toBE 8 (8 * m.length)) m)).toList.flatMap beBytes

/-- A key of 64 bytes: the hash of a longer key, and zeros behind a shorter one. -/
def hmacKey (key : List UInt8) : List UInt8 :=
  let key := if key.length > 64 then sha1 key else key
  key ++ List.replicate (64 - key.length) 0

/-- The hash of a message with a key. -/
def hmac (key data : List UInt8) : List UInt8 :=
  sha1 ((hmacKey key).map (· ^^^ 0x5c) ++ sha1 ((hmacKey key).map (· ^^^ 0x36) ++ data))

/-! ## The count and the digest -/

lemma blocks_eq : blocks = standard := by
  rw [blocks, standard, funext fun state => funext (ws_sha1_transform_eq state)]

lemma digest_eq (state : State) : digest state = state.toList.flatMap beBytes := by
  obtain ⟨⟨words⟩, hwords⟩ := state
  match words, hwords with
  | [a, b, c, d, e], _ =>
    simp only [digest, toUInt8_and]
    rfl

/-- A context has counted the bits of a message, and its state and its buffer stand for it. -/
structure Ctx.Holds (m : List UInt8) (context : Ctx) : Prop where
  stream : blocks.Holds m context.state context.buffer
  count : context.count₀.toNat + 2 ^ 32 * context.count₁.toNat = 8 * m.length % 2 ^ 64

variable {context : Ctx} {m : List UInt8}

/-- The bytes of the count. -/
lemma finalcount_eq (h : context.Holds m) : finalcount context = toBE 8 (8 * m.length) := by
  have hcount := h.count
  have h₀ := context.count₀.toNat_lt
  have h₁ := context.count₁.toNat_lt
  have hbytes : finalcount context = beBytes context.count₁ ++ beBytes context.count₀ := by
    simp only [finalcount, toUInt8_and]
    rfl
  have hhigh : context.count₁.toNat = 8 * m.length / 256 ^ 4 % 256 ^ 4 := by omega
  have hlow : context.count₀.toNat = 8 * m.length % 256 ^ 4 := by omega
  rw [hbytes, beBytes_eq, beBytes_eq, hhigh, hlow, toBE_mod, toBE_mod, ← toBE_add]

lemma holds_ws_sha1_init (h : context.buffer.length = 64) : (ws_sha1_init context).Holds [] :=
  ⟨BlockHash.holds_init h, rfl⟩

/-- The bytes of the buffer that are in use. -/
lemma Ctx.Holds.used (h : context.Holds m) :
    ((context.count₀ >>> 3) &&& 63).toNat = m.length % 64 := by
  have hcount := h.count
  have hmask : ((context.count₀ >>> 3) &&& 63).toNat = context.count₀.toNat / 2 ^ 3 % 2 ^ 6 := by
    rw [UInt32.toNat_and, UInt32.toNat_shiftRight, ← Nat.and_two_pow_sub_one_eq_mod,
      ← Nat.shiftRight_eq_div_pow]
    rfl
  omega

lemma count_step {c₀ c₁ : UInt32} {n : ℕ} (len : ℕ)
    (h : c₀.toNat + 2 ^ 32 * c₁.toNat = 8 * n % 2 ^ 64) :
    (c₀ + UInt32.ofNat len <<< 3).toNat + 2 ^ 32 *
      ((if c₀ + UInt32.ofNat len <<< 3 < c₀ then c₁ + 1 else c₁) +
        UInt32.ofNat (len >>> 29)).toNat = 8 * (n + len) % 2 ^ 64 := by
  have h₀ := c₀.toNat_lt
  have h₁ := c₁.toNat_lt
  have hlow : (c₀ + UInt32.ofNat len <<< 3).toNat = (c₀.toNat + 8 * len) % 2 ^ 32 := by
    have hthree : UInt32.toNat 3 % 32 = 3 := rfl
    rw [UInt32.toNat_add, UInt32.toNat_shiftLeft, UInt32.toNat_ofNat', Nat.shiftLeft_eq, hthree]
    omega
  have hhigh : (UInt32.ofNat (len >>> 29)).toNat = len / 2 ^ 29 % 2 ^ 32 := by
    rw [UInt32.toNat_ofNat', Nat.shiftRight_eq_div_pow]
  generalize c₀ + UInt32.ofNat len <<< 3 = low at *
  by_cases hlt : low < c₀
  · have hone : (c₁ + 1).toNat = (c₁.toNat + 1) % 2 ^ 32 := UInt32.toNat_add c₁ 1
    rw [if_pos hlt, UInt32.toNat_add, hone, hhigh]
    rw [UInt32.lt_iff_toNat_lt] at hlt
    omega
  · rw [if_neg hlt, UInt32.toNat_add, hhigh]
    rw [UInt32.lt_iff_toNat_lt] at hlt
    omega

/-- An update stands for the message with the part behind it. -/
theorem Ctx.Holds.update (h : context.Holds m) (data : List UInt8) (hlen : data.length < 2 ^ 63) :
    ∃ context', ws_sha1_update context data = some context' ∧ context'.Holds (m ++ data) := by
  have hsize : blocks.size = 64 := rfl
  obtain ⟨state, buffer, hfeed, hstream⟩ :=
    h.stream.feed (show data.length + blocks.size ≤ 2 ^ 64 by omega)
  have hcount := count_step data.length h.count
  rw [← List.length_append] at hcount
  refine ⟨⟨state, _, _, buffer⟩, ?_, hstream, hcount⟩
  rw [ws_sha1_update, h.used]
  exact congrArg (Option.bind · _) hfeed

/-! ## The end of a message -/

/-- The mask finds the place in the last block. -/
lemma Ctx.Holds.count_and (h : context.Holds m) :
    context.count₀ &&& 504 = 448 ↔ m.length % 64 = 56 := by
  have hcount := h.count
  obtain ⟨n, hn⟩ : ∃ n, context.count₀.toNat = n <<< 3 :=
    ⟨context.count₀.toNat / 8, by rw [Nat.shiftLeft_eq]; omega⟩
  have hmask : (context.count₀ &&& 504).toNat = n % 2 ^ 6 * 2 ^ 3 := by
    rw [UInt32.toNat_and, hn, ← Nat.and_two_pow_sub_one_eq_mod, ← Nat.shiftLeft_eq,
      Nat.shiftLeft_and_distrib]
    rfl
  rw [← UInt32.toNat_inj, hmask, show UInt32.toNat 448 = 448 from rfl]
  rw [hn, Nat.shiftLeft_eq] at hcount
  omega

/-- The loop writes the zeros that are missing. -/
lemma fillLoop_eq {z fuel : ℕ} (hlt : z < 64) (hz : (m.length + z) % 64 = 56) (hfuel : z < fuel)
    (h : context.Holds m) : ∃ context', fillLoop fuel context = some context' ∧
      context'.Holds (m ++ List.replicate z 0) := by
  induction z generalizing fuel m context with
  | zero =>
    obtain ⟨fuel, rfl⟩ := Nat.exists_eq_add_of_lt hfuel
    refine ⟨context, ?_, by simpa using h⟩
    rw [fillLoop, if_neg]
    rw [ne_eq, not_not, h.count_and]
    exact hz
  | succ z ih =>
    obtain ⟨fuel, rfl⟩ : ∃ n, fuel = n + 1 := ⟨fuel - 1, by omega⟩
    obtain ⟨context₁, hupdate, h₁⟩ := h.update [0] (by simp)
    have hlen : (m ++ [0]).length = m.length + 1 := List.length_append
    obtain ⟨context₂, hloop, h₂⟩ := ih (by omega) (by rw [hlen]; omega) (show z < fuel by omega) h₁
    refine ⟨context₂, ?_, by simpa [List.replicate_succ] using h₂⟩
    rw [fillLoop, if_pos (by rw [ne_eq, h.count_and]; omega), hupdate, Option.bind_some, hloop]

/-- The digest of a context that stands for a message. -/
theorem Ctx.Holds.final (h : context.Holds m) :
    ws_sha1_final context = some (sha1 m, erased) := by
  have hdvd := standard.size_dvd_add_zeros (m.length + 1) 8
  have hsize : standard.size = 64 := rfl
  have hlt : standard.zeros (m.length + 1) 8 < 64 := Nat.mod_lt _ standard.size_pos
  rw [hsize] at hdvd
  obtain ⟨context₁, hmark, h₁⟩ := h.update [0x80] (by simp)
  have hlen : (m ++ [0x80]).length = m.length + 1 := List.length_append
  obtain ⟨context₂, hloop, h₂⟩ := fillLoop_eq hlt (by rw [hlen]; omega) hlt h₁
  obtain ⟨context₃, hcount, h₃⟩ := h₂.update (toBE 8 (8 * m.length)) (by simp)
  have hpadded : m ++ [0x80] ++ List.replicate (standard.zeros (m.length + 1) 8) 0 ++
      toBE 8 (8 * m.length) = standard.padded 0x80 0 (toBE 8 (8 * m.length)) m := by
    simp [BlockHash.padded]
  have hstate := h₃.stream.state
  rw [hpadded, blocks_eq] at hstate
  rw [ws_sha1_final, finalcount_eq h]
  simp only [hmark, hloop, hcount, bind, Option.bind, digest_eq, hstate]
  rfl

/-- The digest of a message does not depend on the parts, nor on what the context held before. -/
lemma run_eq {parts : List (List UInt8)} (hbuf : context.buffer.length = 64)
    (hparts : ∀ data ∈ parts, data.length < 2 ^ 63) :
    run context parts = some (sha1 parts.flatten, erased) := by
  have hfold : ∀ {m : List UInt8} {context : Ctx}, context.Holds m →
      ∃ context', parts.foldlM ws_sha1_update context = some context' ∧
        context'.Holds (m ++ parts.flatten) := by
    induction parts with
    | nil => exact fun {m context} h => ⟨context, rfl, by simpa using h⟩
    | cons data parts ih =>
      intro m context h
      rw [List.forall_mem_cons] at hparts
      obtain ⟨context₁, hupdate, h₁⟩ := h.update data hparts.1
      obtain ⟨context₂, hrest, h₂⟩ := ih hparts.2 h₁
      refine ⟨context₂, ?_, by simpa using h₂⟩
      rw [List.foldlM_cons, hupdate]
      exact hrest
  obtain ⟨context', hrun, h'⟩ := hfold (holds_ws_sha1_init hbuf)
  rw [run, hrun]
  exact h'.final

/-- **Messages in parts, one after the other.**  However the messages are cut into parts, and
whatever the context held before the first one, the digests are the hashes of the messages. -/
theorem runAll_eq {messages : List (List (List UInt8))} (hbuf : context.buffer.length = 64)
    (hparts : ∀ parts ∈ messages, ∀ data ∈ parts, data.length < 2 ^ 63) :
    runAll context messages = some (messages.map fun parts => sha1 parts.flatten) := by
  induction messages generalizing context with
  | nil => rfl
  | cons parts messages ih =>
    rw [List.forall_mem_cons] at hparts
    have hrest := ih (show erased.buffer.length = 64 from rfl) hparts.2
    rw [runAll, run_eq hbuf hparts.1]
    simp only [bind, Option.bind, hrest, List.map_cons]

/-- A context whose memory was used before. -/
def used : Ctx := ⟨Vector.replicate 5 7, 1, 2, List.replicate 64 9⟩

theorem runAll_eq_used : runAll used [[[97], [], [98, 99]], [], [[97, 98, 99]]] =
    some [sha1 [97, 98, 99], sha1 [], sha1 [97, 98, 99]] :=
  runAll_eq rfl (by simp)

/-! ## A hash with a key -/

lemma length_sha1 (m : List UInt8) : (sha1 m).length = 20 := by
  rw [sha1, ← digest_eq, digest, List.length_map, List.length_range]

lemma store_zeros {key : List UInt8} (h : key.length ≤ 64) :
    store (List.replicate 64 0) 0 key = some (key ++ List.replicate (64 - key.length) 0) := by
  rw [store, if_pos (by rwa [List.length_replicate, Nat.zero_add]), List.take_zero,
    List.nil_append, Nat.zero_add, List.drop_replicate]

lemma length_hmacKey (key : List UInt8) : (hmacKey key).length = 64 := by
  have h := length_sha1 key
  rw [hmacKey]
  split_ifs <;>
  · rw [List.length_append, List.length_replicate]
    omega

/-- The key that is copied, and the context after a long key was hashed. -/
lemma shortKey_eq {key : List UInt8} (hbuf : context.buffer.length = 64)
    (hkey : key.length < 2 ^ 63) : ∃ key' context', shortKey context key = some (key', context') ∧
      context'.buffer.length = 64 ∧
        store (List.replicate 64 0) 0 key' = some (hmacKey key) := by
  rw [shortKey, hmacKey]
  split_ifs with hlong
  · refine ⟨_, _, run_eq hbuf (by simpa using hkey), rfl, ?_⟩
    rw [List.flatten_singleton, store_zeros]
    rw [length_sha1]
    omega
  · exact ⟨key, context, rfl, hbuf, store_zeros (by omega)⟩

/-- **The hash with a key**, for keys of any length. -/
theorem ws_hmac_sha1_eq {key data : List UInt8} (hbuf : context.buffer.length = 64)
    (hkey : key.length < 2 ^ 63) (hdata : data.length < 2 ^ 63) :
    ws_hmac_sha1 context key data = some (hmac key data) := by
  obtain ⟨key', context', hnew, hbuf', hstore⟩ := shortKey_eq hbuf hkey
  have hmap : ∀ x : UInt8, ((hmacKey key).map (· ^^^ x)).length < 2 ^ 63 := by
    intro x
    rw [List.length_map, length_hmacKey]
    omega
  have hdigest : (sha1 ((hmacKey key).map (· ^^^ 0x36) ++ data)).length < 2 ^ 63 := by
    rw [length_sha1]
    omega
  have hinner := run_eq hbuf' (List.forall_mem_cons.mpr
    ⟨hmap 0x36, List.forall_mem_singleton.mpr hdata⟩)
  have houter := run_eq (show erased.buffer.length = 64 from rfl) (List.forall_mem_cons.mpr
    ⟨hmap 0x5c, List.forall_mem_singleton.mpr hdigest⟩)
  rw [List.flatten_cons, List.flatten_singleton] at hinner houter
  rw [ws_hmac_sha1, hnew]
  simp only [bind, Option.bind, hstore, hinner, houter]
  rfl

theorem ws_hmac_sha1_eq_used :
    ws_hmac_sha1 used (List.replicate 65 7) [97] = some (hmac (List.replicate 65 7) [97]) :=
  ws_hmac_sha1_eq rfl (by simp) (by simp)

end SignalEventLoop.Hash.Sha1

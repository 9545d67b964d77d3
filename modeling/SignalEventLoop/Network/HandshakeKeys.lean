/-
# The keys of the handshake

`generateSessionKey` and `generateServerAcceptKey`
(`imp/network/websocket/websocket_connection_helper.cpp`).  The key of a session is the MD5 hash
of an address as a decimal number, and the key of the answer is the SHA-1 hash of the key and a
fixed text; both are sent in base64, so that they are values of a header field as they are.
-/
import SignalEventLoop.Hash.Md5
import SignalEventLoop.Hash.Sha1
import SignalEventLoop.Network.HttpRoundTrip
import SignalEventLoop.Tools.CommandlineTool

namespace SignalEventLoop.Tools

lemma charOf_mem (i : UInt8) : charOf i ∈ base64Char := by
  have hlt : (i &&& 0x3F).toNat < base64Char.length := by
    rw [UInt8.toNat_and]
    exact lt_of_le_of_lt Nat.and_le_right (by decide)
  rw [charOf, List.getD_eq_getElem?_getD, List.getElem?_eq_getElem hlt]
  exact List.getElem_mem hlt

/-- The characters of an encoded text. -/
lemma mem_encodeGroups (arg : List UInt8) :
    ∀ c ∈ encodeGroups arg, c ∈ base64Char ∨ c = 61 := by
  induction arg using encodeGroups.induct with
  | case1 a b c rest ih =>
    simp only [encodeGroups, List.forall_mem_cons, charOf_mem, true_or, true_and]
    exact ih
  | case2 a b => simp [encodeGroups, charOf_mem]
  | case3 a => simp [encodeGroups, charOf_mem]
  | case4 => simp [encodeGroups]

end SignalEventLoop.Tools

namespace SignalEventLoop.Network

open Hash ProtocalHttp
open Tools (base64Encode base64Decode encodeGroups)

/-- `sha1_get_guid` -/
def sha1_get_guid : Text := ascii "258EAFA5-E914-47DA-95CA-C5AB0DC85B11"

/-- `buffer` is what the working buffer of the context held before. -/
def generateSessionKey (buffer : Text) (ptr : UInt64) : Option Text := do
  let data ← Md5.MY_our_MD5DataRaw buffer (Lib.decimal ptr.toNat)
  some (base64Encode data).bytes

/-- `sha_ctx` is what the context held before; it gets the key and the text, one after the
other. -/
def generateServerAcceptKey (sha_ctx : Sha1.Ctx) (sesion_key : Text) : Option Text := do
  let (sha, _) ← Sha1.run sha_ctx [sesion_key, sha1_get_guid.take 36]
  some (base64Encode sha).bytes

/-- The key of a session, by the standard's hash. -/
def sessionKey (ptr : UInt64) : Text := encodeGroups (Md5.md5 (Lib.decimal ptr.toNat))

/-- The key of the answer to a key, by the standard's hash. -/
def acceptKey (key : Text) : Text := encodeGroups (Sha1.sha1 (key ++ sha1_get_guid))

/-! ## Base64 in a header -/

lemma isValue_encodeGroups {arg : Text} (h : arg.length < 3000) :
    IsValue (encodeGroups arg) := by
  have htable : ∀ c ∈ Tools.base64Char, c ≠ 0 ∧ c ≠ 13 ∧ c ≠ 10 ∧ isSpace c = false := by
    decide +kernel
  have hclean : ∀ c ∈ encodeGroups arg, c ≠ 0 ∧ c ≠ 13 ∧ c ≠ 10 ∧ isSpace c = false := by
    intro c hc
    obtain hc | rfl := Tools.mem_encodeGroups arg c hc
    · exact htable c hc
    · decide
  refine ⟨fun c hc => ?_, fun c hc => ?_, ?_⟩
  · obtain ⟨h₁, h₂, h₃, -⟩ := hclean c hc
    exact ⟨h₁, h₂, h₃⟩
  · exact (hclean c (List.mem_of_mem_head? hc)).2.2.2
  · rw [Tools.length_encodeGroups]
    omega

/-! ## The keys -/

variable {buffer : Text} {sha_ctx : Sha1.Ctx}

lemma generateSessionKey_eq (hbuf : buffer.length = 64) (ptr : UInt64) :
    generateSessionKey buffer ptr = some (sessionKey ptr) := by
  have hlen := Lib.length_decimal_le (show 0 < 20 by norm_num) (show ptr.toNat < 10 ^ 20 by
    have := ptr.toNat_lt
    omega)
  rw [generateSessionKey, Md5.MY_our_MD5DataRaw_eq hbuf (by omega), sessionKey,
    ← Tools.base64Encode_bytes]
  rfl

lemma generateServerAcceptKey_eq {key : Text} (hbuf : sha_ctx.buffer.length = 64)
    (hkey : key.length < 2 ^ 63) :
    generateServerAcceptKey sha_ctx key = some (acceptKey key) := by
  have hparts := Sha1.run_eq hbuf (List.forall_mem_cons.mpr ⟨hkey,
    List.forall_mem_singleton.mpr (show (sha1_get_guid.take 36).length < 2 ^ 63 by decide)⟩)
  have hguid : sha1_get_guid.take 36 = sha1_get_guid := by decide
  rw [List.flatten_cons, List.flatten_singleton, hguid] at hparts
  rw [generateServerAcceptKey, hguid, hparts, acceptKey, ← Tools.base64Encode_bytes]
  rfl

/-- A peer that decodes the text gets the bytes. -/
lemma holds_encodeGroups {arg : Text} (h : arg.length < 3000) :
    (base64Decode (encodeGroups arg)).Holds arg := by
  apply Tools.base64Decode_encodeGroups
  rw [Tools.length_encodeGroups]
  omega

/-- **The keys of a handshake.**  For every address the key of the session is the base64 text of
16 bytes, and the key of the answer is the base64 text of the SHA-1 hash of the key and the fixed
text; both can be values of a header field. -/
theorem handshake_keys (hbuf : buffer.length = 64) (hsha : sha_ctx.buffer.length = 64)
    (ptr : UInt64) :
    ∃ key accept, generateSessionKey buffer ptr = some key ∧
      generateServerAcceptKey sha_ctx key = some accept ∧ IsValue key ∧ IsValue accept ∧
      key.length = 24 ∧ (base64Decode key).Holds (Md5.md5 (Lib.decimal ptr.toNat)) ∧
      accept.length = 28 ∧
      (base64Decode accept).Holds (Sha1.sha1 (key ++ sha1_get_guid)) := by
  have hmd5 : (Md5.md5 (Lib.decimal ptr.toNat)).length = 16 := Md5.length_md5With _ _
  have hsha1 := Sha1.length_sha1 (sessionKey ptr ++ sha1_get_guid)
  have hlen : (sessionKey ptr).length = 24 := by
    rw [sessionKey, Tools.length_encodeGroups, hmd5]
  refine ⟨sessionKey ptr, acceptKey (sessionKey ptr), generateSessionKey_eq hbuf ptr,
    generateServerAcceptKey_eq hsha (by omega), isValue_encodeGroups (by omega),
    isValue_encodeGroups (by omega), hlen, holds_encodeGroups (by omega), ?_,
    holds_encodeGroups (by omega)⟩
  rw [acceptKey, Tools.length_encodeGroups, hsha1]

theorem handshake_keys_used : ∃ key accept, generateSessionKey (List.replicate 64 9) 12345 =
    some key ∧ generateServerAcceptKey Sha1.used key = some accept ∧ IsValue key ∧
      IsValue accept ∧ key.length = 24 ∧
      (base64Decode key).Holds (Md5.md5 (Lib.decimal (12345 : UInt64).toNat)) ∧
      accept.length = 28 ∧
      (base64Decode accept).Holds (Sha1.sha1 (key ++ sha1_get_guid)) :=
  handshake_keys rfl rfl 12345

end SignalEventLoop.Network

/-
# The check of the software before an update

The device reports its version, its product and its date, and the addresses at which the same
strings lie in a HEX file of its firmware.  `checkHexFile` reads a field of 32 bytes at each of
the three addresses; the update goes on when the products agree, and it is not needed when the
versions and the dates agree as well.  But `handleReplyQuerySoftwareVersion` hands the address
of the date over as the address of the product, too: the product of the device is compared with
the date of the file.

What a field holds is not always what the file has there: a string that fills the field of the
version runs on into the next one, and at the end of the address space records are lost.  A copy
that leaves its block, and a string that is read over the end of the reply or of the three fields,
have no defined outcome.
-/
import SignalEventLoop.Lib.CText
import SignalEventLoop.Device.HandleFrame
import SignalEventLoop.Device.HexRanges
import SignalEventLoop.Device.ReplySafety

namespace SignalEventLoop.Device

open Lib

/-- A string in a block of memory; `none` when it is read over the end of the block. -/
def readCString (mem : List UInt8) (off : ℕ) : Option (List UInt8) :=
  if 0 ∈ mem.drop off then some (cString (mem.drop off)) else none

/-- The data of an `UPGRADE_QUERY_SOFTWARE` reply that `parserDeviceInfo` accepts: the addresses,
two strings that are not empty, with their terminators, and what begins with the date. -/
structure SoftwareReply where
  addresses : List UInt8
  version : List UInt8
  product : List UInt8
  tail : List UInt8
  length_addresses : addresses.length = 12
  version_ok : version ≠ [] ∧ 0 ∉ version
  product_ok : product ≠ [] ∧ 0 ∉ product
  tail_ok : ∃ c rest, c ≠ 0 ∧ tail = c :: rest

namespace SoftwareReply

variable (r : SoftwareReply)

/-- The bytes behind the command. -/
def payload : List UInt8 :=
  r.addresses ++ (r.version ++ 0 :: (r.product ++ 0 :: r.tail))

def date : List UInt8 := cString r.tail

def version_addr : ℕ := ofBE (slice r.addresses 0 4).reverse

def date_addr : ℕ := ofBE (slice r.addresses 8 4).reverse

lemma drop_payload : r.payload.drop 12 = r.version ++ 0 :: (r.product ++ 0 :: r.tail) :=
  List.drop_left' r.length_addresses

lemma parserDeviceInfo_payload : parserDeviceInfo (r.payload.drop 12) =
    some [0, r.version.length + 1, r.version.length + r.product.length + 2] :=
  parserDeviceInfo_eq_some.mpr ⟨r.version, r.product, r.tail, r.version_ok, r.product_ok,
    r.tail_ok, r.drop_payload, rfl⟩

lemma length_payload : 12 ≤ r.payload.length := by
  rw [payload, List.length_append, r.length_addresses]
  omega

/-- **The replies are those whose `parserDeviceInfo` succeeds**; its date may have no end. -/
theorem exists_payload_iff (data : List UInt8) : (∃ r : SoftwareReply, r.payload = data) ↔
    12 ≤ data.length ∧ ∃ out, parserDeviceInfo (data.drop 12) = some out := by
  constructor
  · rintro ⟨r, rfl⟩
    exact ⟨r.length_payload, _, r.parserDeviceInfo_payload⟩
  · rintro ⟨hlen, out, hout⟩
    obtain ⟨version, product, tail, hversion, hproduct, htail, hdata, -⟩ :=
      parserDeviceInfo_eq_some.mp hout
    refine ⟨⟨data.take 12, version, product, tail, ?_, hversion, hproduct, htail⟩, ?_⟩
    · rw [List.length_take, min_eq_left hlen]
    · rw [payload, ← hdata, List.take_append_drop]

end SoftwareReply

/-! ## Strings in the file -/

section

variable {im : ℕ → Option UInt8} {a : ℕ} {s : List UInt8}

variable {content version product date : List UInt8} {v d : ℕ}

end

/-! ## The decision -/

section

variable {C : Type} {file : FileFunctions C} {s : ReplyState C} {content : List UInt8}

lemma readString_append {w : List UInt8} (hw : 0 ∉ w) (pre t : List UInt8) :
    readString (pre ++ (w ++ 0 :: t)) pre.length = .ok w := by
  have hcstring : cString (w ++ 0 :: t) = w := by
    rw [cString_append fun c hc => ne_of_mem_of_not_mem hc hw]
    simp [cString]
  rw [readString, List.drop_left, if_pos (by simp)]
  exact congrArg Except.ok hcstring

lemma readLE_append {bytes : List UInt8} {off len : ℕ} (h : off + len ≤ bytes.length)
    (t : List UInt8) : readLE (bytes ++ t) off len = .ok (ofBE (slice bytes off len).reverse) := by
  have hslice : slice (bytes ++ t) off len = slice bytes off len := by
    rw [slice, slice, List.drop_append_of_le_length (by omega),
      List.take_append_of_le_length (by rw [List.length_drop]; omega)]
  have hlen : off + len ≤ (bytes ++ t).length := by
    rw [List.length_append]
    omega
  rw [readLE, readBytes, if_pos hlen, hslice]
  rfl

/-- What the handler hands to `checkFile`, unless the date has no end. -/
lemma SoftwareReply.checkSoftware_eq (r : SoftwareReply) :
    s.checkSoftware file r.payload 0 (r.version.length + 1)
        (r.version.length + r.product.length + 2) =
      if 0 ∈ r.tail then .ok (file.checkFile s.context r.version r.product r.date r.version_addr
        r.date_addr r.date_addr) else .error .readPastEnd := by
  have hversion := readString_append r.version_ok.2 [] (r.product ++ 0 :: r.tail)
  have hproduct := readString_append r.product_ok.2 (r.version ++ [0]) r.tail
  have hdate : readString (r.version ++ 0 :: (r.product ++ 0 :: r.tail))
      (r.version.length + r.product.length + 2) =
        if 0 ∈ r.tail then .ok r.date else .error .readPastEnd := by
    rw [readString, drop_date]
    rfl
  simp only [List.append_assoc, List.cons_append, List.nil_append, List.length_append,
    List.length_cons, List.length_nil, Nat.zero_add] at hversion hproduct
  have hva : readLE r.payload 0 4 = .ok r.version_addr :=
    readLE_append (by rw [r.length_addresses]; norm_num) _
  have hda : readLE r.payload 8 4 = .ok r.date_addr :=
    readLE_append (by rw [r.length_addresses]) _
  simp only [ReplyState.checkSoftware, r.drop_payload, hversion, hproduct, hdate, Except.bind]
  split_ifs with hterm
  · simp only [hva, hda, Except.map]
  · rfl

/-- The handler, when `checkFile` returns `ret`. -/
lemma SoftwareReply.handle (r : SoftwareReply) (hterm : 0 ∈ r.tail) {ret : ℤ}
    (hret : file.checkFile s.context r.version r.product r.date r.version_addr r.date_addr
      r.date_addr = ret) :
    s.handleReplyQuerySoftwareVersion file r.payload s.updateDeviceAdress =
      .ok (if ret = 0 then s.requestQuitUpgradeWorkMode "not need upgrade!"
        else if ret < 0 then s.quitWithRollback "file check failed!"
        else s.requestQuerySegmentInfomation) := by
  rw [ReplyState.handleReplyQuerySoftwareVersion, if_neg (by simp), if_neg r.length_payload.not_gt,
    r.parserDeviceInfo_payload]
  simp only [r.checkSoftware_eq, if_pos hterm, hret, Except.map]

end

end SignalEventLoop.Device

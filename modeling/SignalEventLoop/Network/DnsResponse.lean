/-
# The response that is read

`Parse_Rcvbuf` (`imp/dns-solver.cpp`) knows neither how long the response is nor where its array
ends: the numbers in the response alone lead it on.  It stays inside of its blocks only when the
name and the records end in time, and `RecordSection` says which bytes are such records.  A record
is one of those whose name is a pointer; the length is its low byte, and four bytes are taken as an
address whatever the type is.
-/
import SignalEventLoop.Network.DnsName

namespace SignalEventLoop

open Lib Lib.Dns

namespace DnsSolver

/-! ## Records -/

/-- The records up to the first one of length four, with its data, or up to something else. -/
inductive RecordSection : Bytes → Option Bytes → Prop
  | stop {c : UInt8} {rest : Bytes} (hc : c ≠ 0xc0) : RecordSection (c :: rest) none
  | address {header address rest : Bytes} (hheader : header.length = 10)
      (haddress : address.length = 4) :
      RecordSection (0xc0 :: (header ++ 4 :: (address ++ rest))) (some address)
  | skip {header data rest : Bytes} {length : UInt8} {out : Option Bytes}
      (hheader : header.length = 10) (hlength : length ≠ 4) (hdata : data.length = length.toNat)
      (h : RecordSection rest out) :
      RecordSection (0xc0 :: (header ++ length :: (data ++ rest))) out

variable {buffer bytes header : Bytes} {out : Option Bytes} {pos fuel : ℕ} {length : UInt8}

lemma RecordSection.length_pos (h : RecordSection bytes out) : 0 < bytes.length := by
  cases h <;> simp

lemma RecordSection.length_address {address : Bytes} (h : RecordSection bytes (some address)) :
    address.length = 4 := by
  generalize hout : some address = out at h
  induction h with
  | stop => cases hout
  | address hheader haddress =>
    obtain rfl := Option.some.inj hout
    exact haddress
  | skip _ _ _ _ ih => exact ih hout

/-- A record up to its length. -/
lemma drop_eq_record (hpos : buffer[pos]? = some 0xc0) (hlength : buffer[pos + 11]? = some length) :
    (slice buffer (pos + 1) 10).length = 10 ∧
      buffer.drop pos =
        0xc0 :: (slice buffer (pos + 1) 10 ++ length :: buffer.drop (pos + 12)) := by
  obtain ⟨hlt, -⟩ := List.getElem?_eq_some_iff.mp hlength
  refine ⟨length_slice (by omega), ?_⟩
  rw [drop_of_getElem? hpos, ← slice_append_drop buffer (pos + 1) 10, drop_of_getElem? hlength]

lemma record_of_drop_eq {c : UInt8} {rest : Bytes} (hheader : header.length = 10)
    (hdrop : buffer.drop pos = c :: (header ++ length :: rest)) :
    buffer[pos]? = some c ∧ buffer[pos + 11]? = some length ∧ buffer.drop (pos + 12) = rest := by
  refine ⟨getElem?_of_drop hdrop, ?_, ?_⟩
  · rw [← List.getElem?_drop, hdrop, List.getElem?_cons_succ,
      List.getElem?_append_right hheader.le, hheader]
    rfl
  · rw [← List.drop_drop, hdrop, List.drop_succ_cons, List.drop_append, hheader,
      List.drop_of_length_le (by omega)]
    rfl

/-- What the loop has passed when it returns. -/
lemma recordSection_of_recordLoop (h : recordLoop buffer fuel pos = some out) :
    RecordSection (buffer.drop pos) out := by
  induction fuel generalizing pos with
  | zero => simp [recordLoop] at h
  | succ fuel ih =>
    obtain ⟨c, hc, h⟩ := Option.bind_eq_some_iff.mp h
    split_ifs at h with hpointer
    · subst hpointer
      obtain ⟨length, hlength, h⟩ := Option.bind_eq_some_iff.mp h
      obtain ⟨hheader, hdrop⟩ := drop_eq_record hc hlength
      rw [hdrop]
      split_ifs at h with hfour
      · -- the data are inside, since the loop reads a byte behind them
        have hrest := ih h
        have hroom := hrest.length_pos
        rw [List.length_drop] at hroom
        have hnext : pos + 11 + (length.toNat + 1) = pos + 12 + length.toNat := by omega
        rw [hnext] at hrest
        rw [← slice_append_drop buffer (pos + 12) length.toNat]
        exact .skip hheader hfour (length_slice (by omega)) hrest
      · obtain ⟨address, hload, rfl⟩ := Option.map_eq_some_iff.mp h
        obtain ⟨hroom, rfl⟩ := load_eq_some.mp hload
        rw [not_not.mp hfour, ← slice_append_drop buffer (pos + 12) 4]
        exact .address hheader (length_slice hroom)
    · obtain rfl := Option.some.inj h
      rw [drop_of_getElem? hc]
      exact .stop hpointer

/-- The loop returns on records. -/
lemma recordLoop_of_recordSection (hfuel : buffer.length < pos + fuel)
    (h : RecordSection (buffer.drop pos) out) : recordLoop buffer fuel pos = some out := by
  generalize hdrop : buffer.drop pos = bytes at h
  have hpos : pos < buffer.length := by
    have hlt := h.length_pos
    rw [← hdrop, List.length_drop] at hlt
    omega
  -- by induction on the records: each of them leaves fuel for the next one
  obtain ⟨fuel, rfl⟩ := Nat.exists_eq_succ_of_ne_zero (by omega : fuel ≠ 0)
  induction h generalizing pos fuel with
  | @stop c rest hc =>
    rw [recordLoop, getElem?_of_drop hdrop, Option.bind_some]
    exact if_neg hc
  | @address header address rest hheader haddress =>
    obtain ⟨hfirst, hlength, htail⟩ := record_of_drop_eq hheader hdrop
    have hload : load buffer (pos + 12) 4 = some address := by
      have hlen := congrArg List.length htail
      rw [List.length_drop, List.length_append, haddress] at hlen
      refine load_eq_some.mpr ⟨by omega, ?_⟩
      rw [slice, htail, List.take_left' haddress]
    rw [recordLoop, hfirst, Option.bind_some, if_pos rfl, hlength, Option.bind_some,
      if_neg (not_not.mpr rfl), hload]
    rfl
  | @skip header data rest length out hheader hlength hdata h ih =>
    obtain ⟨hfirst, hbyte, htail⟩ := record_of_drop_eq hheader hdrop
    have hrest : buffer.drop (pos + 11 + (length.toNat + 1)) = rest := by
      have hnext : pos + 11 + (length.toNat + 1) = pos + 12 + length.toNat := by omega
      rw [hnext, ← List.drop_drop, htail, List.drop_left' hdata]
    have hnext : pos + 11 + (length.toNat + 1) < buffer.length := by
      have hlt := h.length_pos
      rw [← hrest, List.length_drop] at hlt
      omega
    obtain ⟨fuel, rfl⟩ := Nat.exists_eq_succ_of_ne_zero (by omega : fuel ≠ 0)
    rw [recordLoop, hfirst, Option.bind_some, if_pos rfl, hbyte, Option.bind_some,
      if_pos hlength]
    exact ih hrest hnext fuel (by omega)

theorem recordLoop_eq_some (hfuel : buffer.length < pos + fuel) :
    recordLoop buffer fuel pos = some out ↔ RecordSection (buffer.drop pos) out :=
  ⟨recordSection_of_recordLoop, recordLoop_of_recordSection hfuel⟩

/-! ## The response -/

variable {randid : UInt16} {num : ℕ} {ip : Option Bytes}

/-- Behind the header a name that has room in the array together with its end, and behind it and
four bytes the records. -/
def IsParsed (buffer : Bytes) (out : Option Bytes) : Prop :=
  ∃ first labels, BeginsWithName first labels (buffer.drop 12) ∧
    (dotted (first :: labels)).length ≤ NAME_SIZE ∧
    ((dotted (first :: labels)).length = NAME_SIZE → 0 ∈ dotted (first :: labels)) ∧
    RecordSection (buffer.drop (12 + ((dotted (first :: labels)).length + 5))) out

lemma IsParsed.length_address {address : Bytes} (h : IsParsed buffer (some address)) :
    address.length = 4 :=
  let ⟨_, _, _, _, _, hrecords⟩ := h
  hrecords.length_address

/-- The array has an end when the name does not fill it or has one in it. -/
lemma zero_mem_of_store {w Domain : Bytes}
    (hstore : store (List.replicate NAME_SIZE 0) 0 w = some Domain) :
    0 ∈ Domain ↔ (w.length = NAME_SIZE → 0 ∈ w) := by
  obtain ⟨hroom, rfl⟩ := store_eq_some.mp hstore
  rw [List.length_replicate, Nat.zero_add] at hroom
  rw [List.take_zero, List.nil_append, List.drop_replicate, List.mem_append, List.mem_replicate]
  constructor
  · rintro (hmem | ⟨hne, -⟩) hlen
    · exact hmem
    · omega
  · intro h
    by_cases hlen : w.length = NAME_SIZE
    · exact .inl (h hlen)
    · exact .inr ⟨by omega, rfl⟩

/-- A response with another number is not looked at. -/
lemma Parse_Rcvbuf_of_ne (hlen : buffer.length = RECV_SIZE)
    (hid : ofBE (slice buffer 0 2) ≠ ntohs randid) :
    Parse_Rcvbuf randid buffer = some (0, none) := by
  have hload : load buffer 0 2 = some (slice buffer 0 2) :=
    load_eq_some.mpr ⟨by rw [hlen]; decide, rfl⟩
  rw [Parse_Rcvbuf, hload, Option.bind_some, if_pos hid]

theorem Parse_Rcvbuf_eq_some (hlen : buffer.length = RECV_SIZE)
    (hid : ofBE (slice buffer 0 2) = ntohs randid) :
    Parse_Rcvbuf randid buffer = some (num, ip) ↔
      num = 1 ∧ ∃ out, IsParsed buffer out ∧ ip = out.map addressText := by
  have hload : load buffer 0 2 = some (slice buffer 0 2) :=
    load_eq_some.mpr ⟨by rw [hlen]; decide, rfl⟩
  have hload' : load buffer 2 10 = some (slice buffer 2 10) :=
    load_eq_some.mpr ⟨by rw [hlen]; decide, rfl⟩
  rw [Parse_Rcvbuf, hload, Option.bind_some, if_neg (not_not.mpr hid), hload', Option.bind_some]
  constructor
  · intro h
    obtain ⟨⟨passed, Domain⟩, hparse, h⟩ := Option.bind_eq_some_iff.mp h
    obtain ⟨text, hprint, h⟩ := Option.bind_eq_some_iff.mp h
    obtain ⟨out, hrecords, hresult⟩ := Option.map_eq_some_iff.mp h
    obtain ⟨first, labels, hname, rfl, hstore⟩ := parseNAME_eq_some.mp hparse
    obtain ⟨rfl, rfl⟩ := Prod.mk.inj hresult
    have hroom := exists_store_replicate.mp ⟨Domain, hstore⟩
    rw [recordLoop_eq_some (by omega)] at hrecords
    rw [printString, Option.ite_none_right_eq_some] at hprint
    have hzero := (zero_mem_of_store hstore).mp hprint.1
    exact ⟨rfl, out, ⟨first, labels, hname, hroom, hzero, hrecords⟩, rfl⟩
  · rintro ⟨rfl, out, ⟨first, labels, hname, hroom, hzero, hrecords⟩, rfl⟩
    obtain ⟨Domain, hstore⟩ := exists_store_replicate.mpr hroom
    have hprint : printString Domain = some (cString Domain) :=
      if_pos ((zero_mem_of_store hstore).mpr hzero)
    rw [parseNAME_eq_some.mpr ⟨first, labels, hname, rfl, hstore⟩, Option.bind_some]
    dsimp only
    rw [hprint, Option.bind_some, (recordLoop_eq_some (by omega)).mpr hrecords]
    rfl

lemma length_recvbuf (received : Received) : received.recvbuf.length = RECV_SIZE := by
  cases received with
  | timeOut => exact List.length_replicate
  | error => exact List.length_replicate
  | datagram response =>
    rw [Received.recvbuf, List.length_append, List.length_take, List.length_replicate]
    omega

/-- **The blocks of the response**: the bytes read and written are inside of their blocks exactly
when the name and the records end in time. -/
theorem parse_Rcvbuf_returns_iff (response : Bytes)
    (hid : ofBE (slice (Received.datagram response).recvbuf 0 2) = ntohs randid) :
    (∃ result, Parse_Rcvbuf randid (Received.datagram response).recvbuf = some result) ↔
      ∃ out, IsParsed (Received.datagram response).recvbuf out := by
  constructor
  · rintro ⟨⟨num, ip⟩, hresult⟩
    obtain ⟨-, out, hparsed, -⟩ := (Parse_Rcvbuf_eq_some (length_recvbuf _) hid).mp hresult
    exact ⟨out, hparsed⟩
  · rintro ⟨out, hparsed⟩
    exact ⟨_, (Parse_Rcvbuf_eq_some (length_recvbuf _) hid).mpr ⟨rfl, out, hparsed, rfl⟩⟩

/-- A response of one byte is filled up with zeros. -/
theorem parse_Rcvbuf_returns_iff_zero :
    ∃ result, Parse_Rcvbuf 0 (Received.datagram [0]).recvbuf = some result := by
  refine (parse_Rcvbuf_returns_iff [0] rfl).mpr ⟨none, [], [], ?_, ?_, ?_, ?_⟩
  · exact ⟨by decide, by simp, List.replicate 498 0, rfl⟩
  · decide
  · decide
  · exact .stop (by decide)

/-- Labels of 255 bytes: the second one leaves the array of the response. -/
def longLabels : Bytes := 0 :: 0 :: List.replicate 510 255

theorem parse_Rcvbuf_leaves :
    longLabels.length = RECV_SIZE ∧
      ofBE (slice (Received.datagram longLabels).recvbuf 0 2) = ntohs 0 ∧
      Parse_Rcvbuf 0 (Received.datagram longLabels).recvbuf = none := by
  decide +kernel

end DnsSolver

end SignalEventLoop

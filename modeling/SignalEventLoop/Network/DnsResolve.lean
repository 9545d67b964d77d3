/-
# What success means

`DNS_Resolve` (`imp/dns-solver.cpp`) passes the failures of its helpers on as numbers without a
sign, where an error of the socket is a large number, and it returns 0 for every response with the
number of the query, also when the records end without an address.
-/
import SignalEventLoop.Network.DnsQuery
import SignalEventLoop.Network.DnsResponse

namespace SignalEventLoop

open Lib Lib.Dns

namespace DnsSolver

variable {calls : Calls} {rand sent num : ℕ} {randid : UInt16} {domain server buffer : Bytes}
  {received : Received} {ip : Option Bytes}

/-- The number returned is 0 only with the address of an answer; otherwise it is negative. -/
def ResolvesToAnswer (calls : Calls) (rand : ℕ) (domain server buffer : Bytes) : Prop :=
  ∃ result ip, DNS_Resolve calls rand domain server buffer = some (result, ip) ∧
    (result = 0 → ∃ response r, calls.received = .datagram response ∧ InAnswers response r ∧
      r.IsAddress ∧ ip = some (addressText r.rdata)) ∧
    (result ≠ 0 → result < 0)

/-- The query goes out as a whole. -/
def Sent (calls : Calls) (domain : Bytes) : Prop :=
  calls.opened = true ∧ calls.sendto % 2 ^ 32 = (cString domain).length + 18

/-- Something is received, and it has the number of the query. -/
def HasNumber (rand : ℕ) (received : Received) : Prop :=
  0 < received.recvlen ∧ ofBE (slice received.recvbuf 0 2) = ntohs (UInt16.ofNat rand)

/-- What is received leads to an address, which is that of an answer. -/
def LeadsToAnswer (received : Received) : Prop :=
  ∃ response r, received = .datagram response ∧ InAnswers response r ∧ r.IsAddress ∧
    IsParsed received.recvbuf (some r.rdata)

/-! ## The parts -/

/-- `DNSSend` gives a number other than 0 when the query goes out as a whole. -/
lemma exists_DNSSend (hbuffer : buffer.length = SEND_SIZE)
    (hdomain : calls.opened = true → (cString domain).length < DOMAIN_SIZE) (rand : ℕ) :
    ∃ sent randid, DNSSend calls rand domain buffer = some (sent, randid) ∧
      (0 < sent ↔ Sent calls domain) ∧ (0 < sent → randid = UInt16.ofNat rand) := by
  cases hopened : calls.opened with
  | false =>
    refine ⟨0, 0, if_pos hopened, ⟨fun h => absurd h (lt_irrefl 0), fun h => ?_⟩,
      fun h => absurd h (lt_irrefl 0)⟩
    exact absurd (hopened.symm.trans h.1) Bool.false_ne_true
  | true =>
    obtain ⟨labels, hne, hlabels, htext⟩ := exists_labels (cString domain)
    obtain ⟨copied, buffer', -, hpackage⟩ :=
      exists_Package_Sendbuf hbuffer (hdomain hopened) hne hlabels htext.symm rand
    have hsend : DNSSend calls rand domain buffer =
        some (if (calls.sendto % 2 ^ 32).toNat ≠ (cString domain).length + 18 then 0
          else (calls.sendto % 2 ^ 32).toNat, UInt16.ofNat rand) := by
      rw [DNSSend, if_neg (by simp [hopened]), hpackage]
      rfl
    refine ⟨_, _, hsend, ?_, fun _ => rfl⟩
    rw [Sent, hopened, eq_self_iff_true, true_and]
    split_ifs with hlen <;> omega

lemma length_lt_of_DNSSend (h : DNSSend calls rand domain buffer = some (sent, randid))
    (hopened : calls.opened = true) : (cString domain).length < DOMAIN_SIZE := by
  rw [DNSSend, if_neg (by simp [hopened])] at h
  obtain ⟨⟨buflen, dns, buffer'⟩, hpackage, -⟩ := Option.map_eq_some_iff.mp h
  exact length_lt_of_Package_Sendbuf hpackage

/-- A response to the query is parsed. -/
lemma DNSRecv_eq_some (h : HasNumber rand received) :
    DNSRecv (UInt16.ofNat rand) received = some (num, ip) ↔
      num = 1 ∧ ∃ out, IsParsed received.recvbuf out ∧ ip = out.map addressText := by
  rw [DNSRecv, if_neg (by have hpos := h.1; omega), Option.map_eq_some_iff]
  constructor
  · rintro ⟨⟨parsed, ip'⟩, hparse, hresult⟩
    obtain ⟨rfl, hout⟩ := (Parse_Rcvbuf_eq_some (length_recvbuf received) h.2).mp hparse
    obtain ⟨rfl, rfl⟩ := Prod.mk.inj hresult
    exact ⟨rfl, hout⟩
  · rintro ⟨rfl, hout⟩
    exact ⟨(1, ip), (Parse_Rcvbuf_eq_some (length_recvbuf received) h.2).mpr ⟨rfl, hout⟩, rfl⟩

/-- Everything else is a failure. -/
lemma DNSRecv_of_not_hasNumber (h : ¬HasNumber rand received) :
    DNSRecv (UInt16.ofNat rand) received = some (0, none) := by
  rw [DNSRecv]
  split_ifs with hlen
  · rfl
  · have hid : ofBE (slice received.recvbuf 0 2) ≠ ntohs (UInt16.ofNat rand) :=
      fun hid => h ⟨by omega, hid⟩
    rw [Parse_Rcvbuf_of_ne (length_recvbuf received) hid]
    rfl

/-! ## The request -/

/-- What has to be true for 0 to come with an answer only. -/
lemma ResolvesToAnswer.condition (hbuffer : buffer.length = SEND_SIZE)
    (h : ResolvesToAnswer calls rand domain server buffer) :
    (cString server).length < SERVER_IP_SIZE ∧
      (calls.opened = true → (cString domain).length < DOMAIN_SIZE) ∧
      (Sent calls domain → HasNumber rand calls.received → LeadsToAnswer calls.received) := by
  obtain ⟨result, ip, hresolve, hzero, -⟩ := h
  obtain ⟨copied, hcopied, h⟩ := Option.bind_eq_some_iff.mp hresolve
  obtain ⟨⟨sent, randid⟩, hsend, h⟩ := Option.bind_eq_some_iff.mp h
  have hdomain := length_lt_of_DNSSend hsend
  refine ⟨?_, hdomain, fun hsent hnumber => ?_⟩
  · have hroom := exists_store_replicate.mp ⟨copied, hcopied⟩
    rwa [List.length_append, List.length_singleton] at hroom
  · obtain ⟨sent', randid', hsend', hiff, hrandid⟩ := exists_DNSSend hbuffer hdomain rand
    obtain ⟨rfl, rfl⟩ := Prod.mk.inj (Option.some.inj (hsend.symm.trans hsend'))
    have hpos := hiff.mpr hsent
    -- what is received was parsed, and 0 was returned
    dsimp only at h
    rw [if_neg (by omega), hrandid hpos] at h
    obtain ⟨⟨num, ip'⟩, hrecv, hresult⟩ := Option.map_eq_some_iff.mp h
    obtain ⟨rfl, out, hparsed, rfl⟩ := (DNSRecv_eq_some hnumber).mp hrecv
    obtain ⟨rfl, rfl⟩ := Prod.mk.inj hresult
    obtain ⟨response, r, hreceived, hr, haddress, htext⟩ := hzero rfl
    obtain ⟨address, rfl, htext⟩ := Option.map_eq_some_iff.mp htext
    have hlength := hparsed.length_address
    have hne (w : Bytes) (hw : w.length = 4) : w ≠ [] := by
      rintro rfl
      cases hw
    obtain rfl := addressText_injective (hne _ hlength) (hne _ haddress.2)
      (Option.some.inj htext)
    exact ⟨response, r, hreceived, hr, haddress, hparsed⟩

/-- With room in the arrays and an answer in the response, every result is right. -/
lemma resolvesToAnswer_of_condition (hbuffer : buffer.length = SEND_SIZE)
    (hserver : (cString server).length < SERVER_IP_SIZE)
    (hdomain : calls.opened = true → (cString domain).length < DOMAIN_SIZE)
    (hleads : Sent calls domain → HasNumber rand calls.received → LeadsToAnswer calls.received) :
    ResolvesToAnswer calls rand domain server buffer := by
  obtain ⟨copied, hcopied⟩ : ∃ copied,
      store (List.replicate SERVER_IP_SIZE 0) 0 (cString server ++ [0]) = some copied := by
    refine exists_store_replicate.mpr ?_
    rwa [List.length_append, List.length_singleton]
  obtain ⟨sent, randid, hsend, hiff, hrandid⟩ := exists_DNSSend hbuffer hdomain rand
  have hresolve : DNS_Resolve calls rand domain server buffer =
      if sent ≤ 0 then some (-1, none)
      else (DNSRecv randid calls.received).map fun r => (if r.1 = 0 then -2 else 0, r.2) := by
    rw [DNS_Resolve, hcopied, Option.bind_some, hsend]
    rfl
  by_cases hsent : Sent calls domain
  · have hpos := hiff.mpr hsent
    rw [if_neg (by omega), hrandid hpos] at hresolve
    by_cases hnumber : HasNumber rand calls.received
    · -- a response to the query
      obtain ⟨response, r, hreceived, hr, haddress, hparsed⟩ := hleads hsent hnumber
      rw [(DNSRecv_eq_some hnumber).mpr ⟨rfl, _, hparsed, rfl⟩] at hresolve
      exact ⟨0, _, hresolve, fun _ => ⟨response, r, hreceived, hr, haddress, rfl⟩,
        fun hne => absurd rfl hne⟩
    · -- nothing, or something else
      rw [DNSRecv_of_not_hasNumber hnumber] at hresolve
      exact ⟨-2, _, hresolve, fun h => absurd h (by decide), fun _ => by decide⟩
  · -- the query did not go out
    have hzero := mt hiff.mp hsent
    rw [if_pos (by omega)] at hresolve
    exact ⟨-1, _, hresolve, fun h => absurd h (by decide), fun _ => by decide⟩

/-- **Success**: 0 with the address of an answer. -/
theorem resolvesToAnswer_iff (calls : Calls) (rand : ℕ) (domain server : Bytes)
    (buffer : List.Vector UInt8 SEND_SIZE) :
    ResolvesToAnswer calls rand domain server buffer.toList ↔
      (cString server).length < SERVER_IP_SIZE ∧
      (calls.opened = true → (cString domain).length < DOMAIN_SIZE) ∧
      (Sent calls domain → HasNumber rand calls.received → LeadsToAnswer calls.received) := by
  constructor
  · exact ResolvesToAnswer.condition buffer.toList_length
  · rintro ⟨hserver, hdomain, hleads⟩
    exact resolvesToAnswer_of_condition buffer.toList_length hserver hdomain hleads

/-- The server does not know the name: the question comes back without an answer. -/
def noSuchName : Bytes :=
  [0, 0, 0x81, 0x83, 0, 1, 0, 0, 0, 0, 0, 0, 1, 97, 0, 0, 1, 0, 1]

/-- Nothing is found, and 0 is returned. -/
theorem not_resolvesToAnswer_noSuchName :
    ¬ResolvesToAnswer ⟨true, 19, .datagram noSuchName⟩ 0 [97] [49, 46, 49, 46, 49, 46, 49]
      (List.replicate SEND_SIZE 0) := by
  rintro ⟨result, ip, hresolve, hzero, -⟩
  have hvalue : DNS_Resolve ⟨true, 19, .datagram noSuchName⟩ 0 [97] [49, 46, 49, 46, 49, 46, 49]
      (List.replicate SEND_SIZE 0) = some (0, none) := by
    decide +kernel
  obtain ⟨rfl, rfl⟩ := Prod.mk.inj (Option.some.inj (hvalue.symm.trans hresolve))
  obtain ⟨response, r, -, -, -, hip⟩ := hzero rfl
  cases hip

end DnsSolver

end SignalEventLoop

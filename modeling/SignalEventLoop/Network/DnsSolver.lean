/-
# The resolver

`imp/dns-solver.cpp` asks a server for the address of a domain name: `Package_Sendbuf` writes the
query, and `Parse_Rcvbuf` looks for an address in what comes back.  The arrays are blocks of their
sizes in the source, and all reads and writes are checked against them.

Functions return numbers without a sign here, also where they say -1.
-/
import SignalEventLoop.Lib.DnsMessage

namespace SignalEventLoop

open Lib

namespace DnsSolver

/-! ## The query -/

/-- `sizeof(DNSInfo::Domain)` -/
def DOMAIN_SIZE : ℕ := 30

/-- `sizeof(DNSInfo::dns_server_ip)` -/
def SERVER_IP_SIZE : ℕ := 20

/-- The array of `DNSSend`. -/
def SEND_SIZE : ℕ := 256

/-- The fields that the query sets. -/
structure DNSInfo where
  Domain : Bytes
  Domainlen : ℕ
  randid : UInt16
deriving DecidableEq

/-- What `calloc` gives. -/
def DNSInfo.new : DNSInfo := ⟨List.replicate DOMAIN_SIZE 0, 0, 0⟩

/-- A number of 16 bits as it lies in memory. -/
def memoryBytes (n : UInt16) : Bytes := (toBE 2 n.toNat).reverse

/-- `ntohs` -/
def ntohs (n : UInt16) : ℕ := ofBE (memoryBytes n)

/-- The twelve bytes in front of the queries. -/
def queryHeader (randid : UInt16) : Bytes := memoryBytes randid ++ [1, 0, 0, 1, 0, 0, 0, 0, 0, 0]

/-- The loop over the characters from `i` on: the number of a label is written when its dot
comes. -/
def packLoop : Bytes → ℕ → ℕ → ℕ → Bytes → Option (ℕ × ℕ × Bytes)
  | [], _, j, Position, buffer => some (j, Position, buffer)
  | c :: Domain, i, j, Position, buffer =>
    if c = 46 then
      -- the place of the dot is that of the next number
      (store buffer Position [UInt8.ofNat j]).bind fun buffer =>
        packLoop Domain (i + 1) 0 (Position + j + 1) buffer
    else
      (store buffer (12 + i + 1) [c]).bind fun buffer =>
        packLoop Domain (i + 1) (j + 1) Position buffer

/-- The name from `i` on, with the number of its last label. -/
def packName (Domain : Bytes) (i : ℕ) (buffer : Bytes) : Option (ℕ × Bytes) :=
  (packLoop Domain i 0 (12 + i) buffer).bind fun (j, Position, buffer) =>
    (store buffer Position [UInt8.ofNat j]).map fun buffer => (Position + j + 1, buffer)

/-- `Package_Sendbuf`, with the result of `rand()`; `none` when it writes outside of a block. -/
def Package_Sendbuf (rand : ℕ) (Domain : Bytes) (dns : DNSInfo) (buffer : Bytes) :
    Option (ℕ × DNSInfo × Bytes) :=
  (store dns.Domain 0 (cString Domain ++ [0])).bind fun copied =>
    let randid := UInt16.ofNat rand
    (store buffer 0 (queryHeader randid)).bind fun buffer =>
      (packName (cString Domain) 0 buffer).bind fun (Position, buffer) =>
        (store buffer Position [0, 0, 1, 0, 1]).map fun buffer =>
          (Position + 5, ⟨copied, (cString Domain).length, randid⟩, buffer)

/-! ## The response -/

/-- The array of `DNSRecv`. -/
def RECV_SIZE : ℕ := 512

/-- The array of `Parse_Rcvbuf`. -/
def NAME_SIZE : ℕ := 256

/-- `parseNAME` at the number `j` of a label, which stands at `pos`: the number of bytes that it
passes, and the array with the name. -/
def nameLoop (buffer : Bytes) : ℕ → ℕ → UInt8 → Bytes → ℕ → ℕ → Option (ℕ × Bytes)
  | 0, _, _, _, _, _ => none
  | fuel + 1, pos, j, Domain, a, num =>
    (load buffer (pos + 1) j.toNat).bind fun label =>
      (store Domain a (label ++ [46])).bind fun Domain =>
        buffer[pos + j.toNat + 1]?.bind fun next =>
          let num := num + j.toNat + 1
          if next = 0 then some (num + 5, Domain)
          else nameLoop buffer fuel (pos + j.toNat + 1) next Domain (a + j.toNat + 1) num

/-- Every turn of the loop needs room in `Domain`. -/
def parseNAME (buffer : Bytes) (pos : ℕ) (Domain : Bytes) : Option (ℕ × Bytes) :=
  buffer[pos]?.bind fun j => nameLoop buffer (Domain.length + 1) pos j Domain 0 0

/-- The loop over the records: where it stops at an address, these are the four bytes of it. -/
def recordLoop (buffer : Bytes) : ℕ → ℕ → Option (Option Bytes)
  | 0, _ => none
  | fuel + 1, pos =>
    buffer[pos]?.bind fun c =>
      if c = 0xc0 then
        -- the low byte of the length; the high one, the type and the class are passed over
        buffer[pos + 11]?.bind fun length =>
          if length ≠ 4 then recordLoop buffer fuel (pos + 11 + (length.toNat + 1))
          else (load buffer (pos + 12) 4).map some
      else some none

/-- A text that is printed has an end in its block. -/
def printString (mem : Bytes) : Option Bytes := if 0 ∈ mem then some (cString mem) else none

/-- `Parse_Rcvbuf`: what it returns, and what it copies to `domain_ip`; `none` when it reads or
writes outside of a block. -/
def Parse_Rcvbuf (randid : UInt16) (buffer : Bytes) : Option (ℕ × Option Bytes) :=
  (load buffer 0 2).bind fun transID =>
    if ofBE transID ≠ ntohs randid then some (0, none)
    else
      -- the flags and the four numbers are not looked at
      (load buffer 2 10).bind fun _ =>
        (parseNAME buffer 12 (List.replicate NAME_SIZE 0)).bind fun (num, Domain) =>
          (printString Domain).bind fun _ =>
            (recordLoop buffer (RECV_SIZE + 1) (12 + num)).map fun netip =>
              (1, netip.map Dns.addressText)

/-! ## A request -/

/-- What `UdpRecv` gets: nothing in time, an error, or a datagram. -/
inductive Received where
  | timeOut
  | error
  | datagram (response : Bytes)
deriving DecidableEq

/-- The number that `UdpRecv` returns. -/
def Received.recvlen : Received → ℕ
  | .timeOut => 0
  | .error => 2 ^ 32 - 1
  | .datagram response => (response.take RECV_SIZE).length

/-- The array of `DNSRecv`, which is cleared at first; a datagram is cut to its size. -/
def Received.recvbuf : Received → Bytes
  | .timeOut | .error => List.replicate RECV_SIZE 0
  | .datagram response =>
    response.take RECV_SIZE ++ List.replicate (RECV_SIZE - response.length) 0

/-- `DNSRecv`: what it returns, and what is copied to `domain_ip`. -/
def DNSRecv (randid : UInt16) (received : Received) : Option (ℕ × Option Bytes) :=
  -- an error is not less than 0 here
  if received.recvlen ≤ 0 then some (0, none)
  else (Parse_Rcvbuf randid received.recvbuf).map fun (parsed, ip) =>
    (if parsed = 0 then 0 else 1, ip)

/-- The calls of the system: whether the socket was opened, what `sendto` returns, and what was
received. -/
structure Calls where
  opened : Bool
  sendto : ℤ
  received : Received

/-- `DNSSend`: what it returns, and the number of the query. -/
def DNSSend (calls : Calls) (rand : ℕ) (Domain buffer : Bytes) : Option (ℕ × UInt16) :=
  if calls.opened = false then some (0, 0)
  else
    (Package_Sendbuf rand Domain DNSInfo.new buffer).map fun (buflen, dns, _) =>
      let sendlen := (calls.sendto % 2 ^ 32).toNat
      (if sendlen ≠ buflen then 0 else sendlen, dns.randid)

/-- `DNS_Resolve`, behind its assertions: what it returns, and what it copies to `return_ip`.
`buffer` is what the array of `DNSSend` holds at first. -/
def DNS_Resolve (calls : Calls) (rand : ℕ) (domain dns_server_ip buffer : Bytes) :
    Option (ℤ × Option Bytes) :=
  (store (List.replicate SERVER_IP_SIZE 0) 0 (cString dns_server_ip ++ [0])).bind fun _ =>
    (DNSSend calls rand domain buffer).bind fun (sent, randid) =>
      if sent ≤ 0 then some (-1, none)
      else (DNSRecv randid calls.received).map fun (received, ip) =>
        (if received = 0 then -2 else 0, ip)

end DnsSolver

end SignalEventLoop

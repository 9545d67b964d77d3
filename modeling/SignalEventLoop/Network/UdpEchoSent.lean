/-
# What the UDP echo server sends

Every packet that the server hears while it is echoing, and every packet for `sendData`, is sent
once, in order, as long as there is room for it.  A packet for `sendData` may be empty; `sendto`
then returns 0, and the packet is not popped.
-/
import SignalEventLoop.Network.UdpEchoServer

namespace SignalEventLoop.Network

open SignalEventLoop.Core IcacheBuffer

namespace UdpEchoServer

/-! ## The packets of an operation -/

/-- The packets that up to `n` turns receive while the flag is set. -/
def heard : ℕ → List Turn → Bool → List Packet
  | n + 1, ⟨.datagram d, switched⟩ :: turns, echoing =>
    (if switched.getD echoing then [(d.addr.1, d.payload.1)] else []) ++
      heard n turns (switched.getD echoing)
  | _, _, _ => []

/-- The packets that an operation wants to send. -/
def offered (s : UdpEchoServer) : EchoOp → List Packet
  | .onRead turns => heard 10 turns s.echoing
  | .onWrite _ => []
  | .sendData addr data => [(addr.1, data.1)]
  | .start => []
  | .stop => []

/-- There is room for all of them. -/
def Room (s : UdpEchoServer) (op : EchoOp) : Prop :=
  (s.writeCache.packets.map Packet.size).sum + ((offered s op).map Packet.size).sum ≤
    20 * 32 * 1024

/-- The data of `sendData` is not empty. -/
def HasBytes : EchoOp → Prop
  | .sendData _ data => data.1 ≠ []
  | _ => True

end UdpEchoServer

/-! ## Nothing is sent twice -/

namespace EchoQueue

open UdpEchoServer
open scoped List

variable {q : EchoQueue}

/-- No packet of the queue is empty. -/
def NoEmpty (q : EchoQueue) : Prop := ∀ p ∈ q.waiting, p.2 ≠ []

lemma offer_spec (p : Packet) (q : EchoQueue) : (q.offer p).echoing = q.echoing ∧
    (q.offer p).sent = q.sent ∧ (q.offer p).waiting <+ q.waiting ++ [p] ∧
    ((q.waiting.map Packet.size).sum + p.size ≤ 20 * 32 * 1024 →
      (q.offer p).waiting = q.waiting ++ [p]) := by
  rw [offer]
  split_ifs with hroom
  · exact ⟨rfl, rfl, .refl _, fun _ => rfl⟩
  · exact ⟨rfl, rfl, List.sublist_append_left _ _, fun h => absurd h hroom⟩

/-- The turns of `on_read` add packets that they hear, in order, and all of them if there is
room. -/
lemma receive_spec (n : ℕ) (turns : List Turn) (q : EchoQueue) :
    (q.receive n turns).sent = q.sent ∧
      (q.receive n turns).waiting <+ q.waiting ++ heard n turns q.echoing ∧
      ((q.waiting.map Packet.size).sum + ((heard n turns q.echoing).map Packet.size).sum ≤
        20 * 32 * 1024 → (q.receive n turns).waiting = q.waiting ++ heard n turns q.echoing) := by
  induction turns generalizing n q with
  | nil => cases n <;> simp [receive, heard]
  | cons t turns ih =>
    cases n with
    | zero => simp [receive, heard]
    | succ n =>
      obtain ⟨result, switched⟩ := t
      cases result with
      | empty | again | error => simp [receive, heard]
      | datagram d =>
        rw [receive, heard]
        by_cases hecho : switched.getD q.echoing = true
        · obtain ⟨hflag, hsent, hsub, hroom⟩ :=
            offer_spec (d.addr.1, d.payload.1) { q with echoing := switched.getD q.echoing }
          obtain ⟨hsent', hsub', hroom'⟩ := ih n
            (offer (d.addr.1, d.payload.1) { q with echoing := switched.getD q.echoing })
          rw [hflag] at hsub' hroom'
          simp only [hecho, if_true] at hsent hsub hroom hsent' hsub' hroom' ⊢
          refine ⟨hsent'.trans hsent, ?_, fun hsum => ?_⟩
          · rw [← List.append_assoc]
            exact hsub'.trans (hsub.append_right _)
          · simp only [List.map_append, List.sum_append, List.map_cons, List.map_nil,
              List.sum_cons, List.sum_nil] at hsum
            have hfirst := hroom (by omega)
            rw [hroom' ?_, hfirst, List.append_assoc]
            rw [hfirst]
            simp only [List.map_append, List.sum_append, List.map_cons, List.map_nil,
              List.sum_cons, List.sum_nil]
            omega
        · have := ih n { q with echoing := switched.getD q.echoing }
          simpa [hecho] using this

/-- Sending takes packets from the front. -/
lemma send_spec (results : List UdpSend) (q : EchoQueue) (h : q.NoEmpty) :
    (q.send results).sent ++ (q.send results).waiting = q.sent ++ q.waiting ∧
      (q.send results).waiting <:+ q.waiting := by
  induction results generalizing q with
  | nil => exact ⟨rfl, List.suffix_rfl⟩
  | cons result results ih =>
    cases result with
    | again | error => exact ⟨rfl, List.suffix_rfl⟩
    | sent =>
      rw [send]
      cases hw : q.waiting with
      | nil => simp [hw]
      | cons p ps =>
        dsimp only
        rw [if_neg (h p (by simp [hw]))]
        obtain ⟨hconserved, hsuffix⟩ := ih { q with waiting := ps, sent := q.sent ++ [p] }
          fun r hr => h r (by simp [hw, hr])
        refine ⟨?_, hsuffix.trans (List.suffix_cons _ _)⟩
        rw [hconserved]
        simp

lemma heard_ne_nil {n : ℕ} {turns : List Turn} {echoing : Bool} {p : Packet}
    (hp : p ∈ heard n turns echoing) : p.2 ≠ [] := by
  induction turns generalizing n echoing with
  | nil => cases n <;> simp [heard] at hp
  | cons t turns ih =>
    cases n with
    | zero => simp [heard] at hp
    | succ n =>
      obtain ⟨result, switched⟩ := t
      cases result with
      | empty | again | error => simp [heard] at hp
      | datagram d =>
        rw [heard, List.mem_append] at hp
        rcases hp with hp | hp
        · split_ifs at hp
          · rw [List.mem_singleton.mp hp]
            exact d.payload_ne_nil
          · exact absurd hp List.not_mem_nil
        · exact ih hp

end EchoQueue

namespace UdpEchoServer

open scoped List

variable {fd : ℕ} {s s' : UdpEchoServer}

/-- **One operation.** The packets that were sent or wait are the ones from before and packets
that the operation wants to send, all of them if there is room. -/
lemma step_conserves {op : EchoOp} (hnil : s.toQueue.NoEmpty) (hop : HasBytes op)
    (hqueue : s'.toQueue = s.toQueue.step op) :
    s'.toQueue.NoEmpty ∧
      s'.sent ++ s'.writeCache.packets <+ s.sent ++ s.writeCache.packets ++ offered s op ∧
      (Room s op → s'.sent ++ s'.writeCache.packets =
        s.sent ++ s.writeCache.packets ++ offered s op) := by
  show s'.toQueue.NoEmpty ∧ s'.toQueue.sent ++ s'.toQueue.waiting <+ _ ∧
    (_ → s'.toQueue.sent ++ s'.toQueue.waiting = _)
  rw [hqueue]
  cases op with
  | onRead turns =>
    obtain ⟨hsent, hsub, hroom⟩ := EchoQueue.receive_spec 10 turns s.toQueue
    refine ⟨fun p hp => ?_, ?_, fun h => ?_⟩
    · rcases List.mem_append.mp (hsub.subset hp) with hp | hp
      · exact hnil p hp
      · exact EchoQueue.heard_ne_nil hp
    · rw [EchoQueue.step, hsent, List.append_assoc]
      exact hsub.append_left _
    · rw [EchoQueue.step, hsent, hroom h, List.append_assoc]
      rfl
  | onWrite results =>
    obtain ⟨hconserved, hsuffix⟩ := EchoQueue.send_spec results s.toQueue hnil
    refine ⟨fun p hp => hnil p (hsuffix.subset hp), ?_, fun _ => ?_⟩
    · rw [EchoQueue.step, hconserved, offered, List.append_nil]
      exact .refl _
    · rw [EchoQueue.step, hconserved, offered, List.append_nil]
      rfl
  | sendData addr data =>
    obtain ⟨-, hsent, hsub, hroom⟩ := EchoQueue.offer_spec (addr.1, data.1) s.toQueue
    refine ⟨fun p hp => ?_, ?_, fun h => ?_⟩
    · rcases List.mem_append.mp (hsub.subset hp) with hp | hp
      · exact hnil p hp
      · rw [List.mem_singleton.mp hp]
        exact hop
    · rw [EchoQueue.step, hsent, List.append_assoc]
      exact hsub.append_left _
    · have hfits : (s.toQueue.waiting.map Packet.size).sum + Packet.size (addr.1, data.1) ≤
          20 * 32 * 1024 := by simpa [Room, offered, toQueue] using h
      rw [EchoQueue.step, hsent, hroom hfits, List.append_assoc]
      rfl
  | start =>
    refine ⟨hnil, ?_, fun _ => ?_⟩ <;> rw [offered, List.append_nil]
    · exact .refl _
    · rfl
  | stop =>
    refine ⟨hnil, ?_, fun _ => ?_⟩ <;> rw [offered, List.append_nil]
    · exact .refl _
    · rfl

lemma run_conserves (ops : List EchoOp) (h : Serving fd s) (hnil : s.toQueue.NoEmpty)
    (hops : ∀ op ∈ ops, Fits op ∧ HasBytes op) :
    ∃ t, Lib.run (step fd) s ops = some t ∧
      t.sent ++ t.writeCache.packets <+
        s.sent ++ s.writeCache.packets ++ Lib.outputs (step fd) offered s ops ∧
      (Lib.AllSteps (step fd) Room s ops → t.sent ++ t.writeCache.packets =
        s.sent ++ s.writeCache.packets ++ Lib.outputs (step fd) offered s ops) := by
  induction ops generalizing s with
  | nil => exact ⟨s, rfl, by simp, fun _ => by simp⟩
  | cons op ops ih =>
    obtain ⟨hfits, hbytes⟩ := hops op List.mem_cons_self
    obtain ⟨s', hs', hserve, hqueue⟩ := h.step hfits
    obtain ⟨hnil', hsub, hroom⟩ := step_conserves hnil hbytes hqueue
    obtain ⟨t, ht, hsub', hroom'⟩ := ih hserve hnil' fun o ho => hops o (List.mem_cons_of_mem _ ho)
    refine ⟨t, Lib.run_cons_eq_some.mpr ⟨s', hs', ht⟩, ?_, fun hall => ?_⟩
    · rw [Lib.outputs_cons ops hs', ← List.append_assoc]
      exact hsub'.trans (hsub.append_right _)
    · obtain ⟨hfirst, hrest⟩ := (Lib.allSteps_cons_of_eq_some hs').mp hall
      rw [Lib.outputs_cons ops hs', ← List.append_assoc, ← hroom hfirst]
      exact hroom' hrest

/-! ## A packet without bytes -/

/-- The calls of `on_write` whose first `sendto` takes a packet. -/
def Sends : EchoOp → Bool
  | .onWrite (.sent :: _) => true
  | _ => false

end UdpEchoServer

namespace EchoQueue

open UdpEchoServer

variable {q : EchoQueue} {p : Packet}

lemma offer_head? (r : Packet) (hq : q.waiting.head? = some p) :
    (q.offer r).waiting.head? = some p := by
  obtain ⟨ps, hps⟩ := List.head?_eq_some_iff.mp hq
  rw [offer]
  split_ifs <;> simp [hps]

lemma receive_head? (n : ℕ) (turns : List Turn) (hq : q.waiting.head? = some p) :
    (q.receive n turns).waiting.head? = some p := by
  induction turns generalizing n q with
  | nil =>
    cases n with
    | zero => exact hq
    | succ n => exact hq
  | cons t turns ih =>
    cases n with
    | zero => exact hq
    | succ n =>
      obtain ⟨result, switched⟩ := t
      cases result with
      | empty | again | error => exact hq
      | datagram d =>
        rw [receive]
        refine ih n ?_
        split_ifs
        · exact offer_head? _ hq
        · exact hq

/-- A packet without bytes at the front of the queue stays there, and is all that is sent. -/
lemma step_of_empty_front (hp : p.2 = []) (hq : q.waiting.head? = some p) (op : EchoOp) :
    (q.step op).waiting.head? = some p ∧
      (q.step op).sent = q.sent ++ List.replicate ([op].countP Sends) p := by
  cases op with
  | onRead turns =>
    exact ⟨receive_head? 10 turns hq, by simp [step, (receive_spec 10 turns q).1, Sends]⟩
  | onWrite results =>
    obtain ⟨ps, hps⟩ := List.head?_eq_some_iff.mp hq
    match results with
    | [] | .again :: _ | .error :: _ => exact ⟨hq, by simp [step, send, Sends]⟩
    | .sent :: _ => simp [step, send, hps, hp, Sends]
  | sendData addr data =>
    exact ⟨offer_head? _ hq, by simp [step, (offer_spec (addr.1, data.1) q).2.1, Sends]⟩
  | start => exact ⟨hq, by simp [step, Sends]⟩
  | stop => exact ⟨hq, by simp [step, Sends]⟩

lemma foldl_of_empty_front (hp : p.2 = []) (hq : q.waiting.head? = some p) (ops : List EchoOp) :
    (ops.foldl step q).waiting.head? = some p ∧
      (ops.foldl step q).sent = q.sent ++ List.replicate (ops.countP Sends) p := by
  induction ops generalizing q with
  | nil => exact ⟨hq, by simp⟩
  | cons op ops ih =>
    obtain ⟨hfront, hsent⟩ := step_of_empty_front hp hq op
    obtain ⟨hfront', hsent'⟩ := ih hfront
    refine ⟨hfront', ?_⟩
    have hcount : (op :: ops).countP Sends = [op].countP Sends + ops.countP Sends := by
      rw [← List.countP_append, List.singleton_append]
    rw [List.foldl_cons, hsent', hsent, hcount, List.append_assoc, List.replicate_append_replicate]

end EchoQueue

namespace UdpEchoServer

open scoped List

/-- **Every packet goes back once.** The packets that were sent and then the ones that wait are,
each with its own address, packets that came while the server was echoing or were given to
`sendData`, in order and none twice; and they are all of these when there was room for them. -/
theorem echoed_once (fd : ℕ) (scheduler : RunningRegistry) (ops : List EchoOp)
    (hops : ∀ op ∈ ops, Fits op ∧ HasBytes op) :
    ∃ t, Lib.run (step fd) (init fd scheduler) ops = some t ∧
      t.sent ++ t.writeCache.packets <+ Lib.outputs (step fd) offered (init fd scheduler) ops ∧
      (Lib.AllSteps (step fd) Room (init fd scheduler) ops → t.sent ++ t.writeCache.packets =
        Lib.outputs (step fd) offered (init fd scheduler) ops) := by
  obtain ⟨t, ht, hsub, hroom⟩ := run_conserves ops (serving_init fd scheduler)
    (fun p hp => absurd hp List.not_mem_nil) hops
  exact ⟨t, ht, hsub, hroom⟩

lemma hasBytes_echoRun : ∀ op ∈ echoRun, HasBytes op := by
  intro op hop
  simp only [echoRun, List.mem_cons, List.not_mem_nil, or_false] at hop
  rcases hop with rfl | rfl | rfl <;> trivial

theorem echoed_once_packet :
    ∃ t, Lib.run (step 3) (init 3 .init) echoRun = some t ∧
      t.sent ++ t.writeCache.packets <+
        Lib.outputs (step 3) offered (init 3 .init) echoRun ∧
      (Lib.AllSteps (step 3) Room (init 3 .init) echoRun → t.sent ++ t.writeCache.packets =
        Lib.outputs (step 3) offered (init 3 .init) echoRun) :=
  echoed_once 3 .init echoRun fun op hop => ⟨fits_echoRun op hop, hasBytes_echoRun op hop⟩

/-- **A packet without bytes stops the server.** Once it is the first of the packets that wait,
it stays there: every later call of `on_write` sends it again, and no other packet is sent. -/
theorem empty_packet_blocks (fd : ℕ) (scheduler : RunningRegistry) (ops ops' : List EchoOp)
    (hops : ∀ op ∈ ops ++ ops', Fits op) {t : UdpEchoServer}
    (hrun : Lib.run (step fd) (init fd scheduler) ops = some t) {p : Packet} (hp : p.2 = [])
    (hfront : t.writeCache.packets.head? = some p) :
    ∃ t', Lib.run (step fd) t ops' = some t' ∧ t'.writeCache.packets.head? = some p ∧
      t'.sent = t.sent ++ List.replicate (ops'.countP Sends) p := by
  obtain ⟨t₁, ht₁, hserve, -⟩ := (serving_init fd scheduler).run ops
    fun op hop => hops op (List.mem_append_left _ hop)
  obtain rfl : t = t₁ := Option.some.inj (hrun.symm.trans ht₁)
  obtain ⟨t', ht', -, hqueue⟩ := hserve.run ops' fun op hop => hops op (List.mem_append_right _ hop)
  obtain ⟨hfront', hsent⟩ := EchoQueue.foldl_of_empty_front (q := t.toQueue) hp hfront ops'
  rw [← hqueue] at hfront' hsent
  exact ⟨t', ht', hfront', hsent⟩

/-- `sendData` of nothing: the packet is sent by two calls of `on_write`, and the packet that was
given to `sendData` after it is not. -/
theorem empty_packet_blocks_twice :
    ∃ t, Lib.run (step 3) (init 3 .init)
        [.sendData ⟨List.replicate 16 7, by simp⟩ noBytes,
          .sendData ⟨List.replicate 16 8, by simp⟩ ⟨[1], by simp⟩] = some t ∧
      ∃ t', Lib.run (step 3) t [.onWrite [.sent, .sent], .onWrite [.sent]] = some t' ∧
        t'.writeCache.packets.head? = some (List.replicate 16 7, []) ∧
        t'.sent = t.sent ++ List.replicate 2 (List.replicate 16 7, []) := by
  let ops : List EchoOp := [.sendData ⟨List.replicate 16 7, by simp⟩ noBytes,
    .sendData ⟨List.replicate 16 8, by simp⟩ ⟨[1], by simp⟩]
  have hfits : ∀ op ∈ ops, Fits op := by
    intro op hop
    simp only [ops, List.mem_cons, List.not_mem_nil, or_false] at hop
    rcases hop with rfl | rfl <;> norm_num [Fits, noBytes]
  obtain ⟨t, ht, -, hqueue⟩ := (serving_init 3 .init).run ops hfits
  have hfront : t.toQueue.waiting.head? = some (List.replicate 16 7, []) := by
    rw [hqueue]
    rfl
  refine ⟨t, ht, empty_packet_blocks 3 .init ops [.onWrite [.sent, .sent], .onWrite [.sent]] ?_ ht
    rfl hfront⟩
  intro op hop
  rcases List.mem_append.mp hop with hop | hop
  · exact hfits op hop
  · simp only [List.mem_cons, List.not_mem_nil, or_false] at hop
    rcases hop with rfl | rfl <;> trivial

end UdpEchoServer

end SignalEventLoop.Network

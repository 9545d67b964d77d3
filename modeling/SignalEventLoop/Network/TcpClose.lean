/-
# A connection after its close

`on_close` and `on_error` of a `TcpConnection` take the channel out of the scheduler and emit
`disconnected`; nothing in the object says that this has happened.  Calls of `sendFrame` and
slots that were queued before go on as ever: `sendFrame` syncs the channel when the queue has
one frame, `on_write` syncs it when the queue is empty, and every slot that finds the end of
the stream closes the connection again.
-/
import SignalEventLoop.Network.TcpConnection

namespace SignalEventLoop.Network

open SignalEventLoop.Core IcacheBuffer

/-- After the first `disconnected` the channel is not registered and there is no other
`disconnected`. -/
def StaysClosed : List TcpEffect → Prop
  | [] => True
  | .disconnected :: later => TcpEffect.registered ∉ later ∧ TcpEffect.disconnected ∉ later
  | _ :: later => StaysClosed later

/-- Neither a registration nor a close. -/
def Quiet (effects : List TcpEffect) : Prop :=
  TcpEffect.registered ∉ effects ∧ TcpEffect.disconnected ∉ effects

lemma staysClosed_append_of_open {log later : List TcpEffect}
    (hopen : TcpEffect.disconnected ∉ log) : StaysClosed (log ++ later) ↔ StaysClosed later := by
  induction log with
  | nil => rfl
  | cons e log ih =>
    have hlog : TcpEffect.disconnected ∉ log := fun h => hopen (List.mem_cons_of_mem _ h)
    cases e with
    | disconnected => exact absurd List.mem_cons_self hopen
    | registered => exact ih hlog
    | notifyFrame frame => exact ih hlog

lemma staysClosed_append_of_closed {log later : List TcpEffect}
    (hclosed : TcpEffect.disconnected ∈ log) :
    StaysClosed (log ++ later) ↔ StaysClosed log ∧ Quiet later := by
  induction log with
  | nil => exact absurd hclosed (by simp)
  | cons e log ih =>
    cases e with
    | disconnected =>
      simp only [List.cons_append, StaysClosed, Quiet, List.mem_append, not_or]
      tauto
    | registered => exact ih (by simpa using hclosed)
    | notifyFrame frame => exact ih (by simpa using hclosed)

lemma quiet_frames (frames : List (List UInt8)) : Quiet (frames.map .notifyFrame) := by
  simp [Quiet]

lemma staysClosed_frames (frames : List (List UInt8)) (later : List TcpEffect) :
    StaysClosed (frames.map .notifyFrame ++ later) ↔ StaysClosed later :=
  staysClosed_append_of_open (quiet_frames frames).2

/-! ## The condition -/

/-- The size test of `appendCache` lets the frame in. -/
def IcacheBuffer.Accepts (B : IcacheBuffer) (c : CacheState) (frame : Bytes) : Prop :=
  c.cacheSize < add32 frame.1.length c.writeOffset →
    add32 (sub32 c.writeOffset c.readOffset) frame.1.length ≤ B.maxCacheSize

instance decidableAccepts (B : IcacheBuffer) (c : CacheState) (frame : Bytes) :
    Decidable (B.Accepts c frame) :=
  inferInstanceAs (Decidable (_ → _))

namespace TcpConnection

variable (C : TcpConnection)

/-- What `recv` gives is taken by the cache, until there is nothing more. -/
def NoEnd : List TcpRecv → CacheState → Prop
  | [], _ => True
  | .again :: _, _ => True
  | .closed :: _, _ => False
  | .data chunk :: results, c =>
    ∀ result c₁, C.cache.readFromBuf c chunk = some (result, c₁) → 0 ≤ result ∧
      ∀ frames c₂, popLoop (c₁.frameCacheMap.length + 1) c₁ = some (frames, c₂) → NoEnd results c₂

/-- `send` reports no end, and blocks before the queue is empty. -/
def Blocks : List (List SendResult) → CacheState → Prop
  | [], c => c.frameCacheMap ≠ []
  | r :: results, c => c.frameCacheMap ≠ [] ∧
    ∀ ret out c₁, C.cache.sendCacheByFd c r = some (ret, out, c₁) →
      (ret < 0 → c₁.frameCacheMap ≠ []) ∧ (0 ≤ ret → ret ≠ 0 ∧ Blocks results c₁)

/-- The operations that a closed connection survives. -/
def QuietOp (s : TcpState) : TcpOp → Prop
  | .sendFrame frame => frame.1 ≠ [] →
    (s.writeCache.frameCacheMap = [] → ¬ C.cache.Accepts s.writeCache frame) ∧
      (s.writeCache.frameCacheMap.length = 1 → C.cache.Accepts s.writeCache frame)
  | .onRecv results => C.NoEnd results s.readCache
  | .onWrite results => C.Blocks results s.writeCache
  | .onClose | .onError => False

/-- The condition on an operation: after the first close, `sendFrame` does not leave exactly
one frame in the queue, `on_recv` finds no end of the stream, `on_write` neither finds the
queue empty nor empties it nor finds an end, and no other close or error slot is run. -/
def QuietAfterClose (s : TcpState) (op : TcpOp) : Prop :=
  TcpEffect.disconnected ∈ s.log → C.QuietOp s op

variable {C} {s s' : TcpState}

/-! ## The loops -/

lemma appendFrame_accepts {B : IcacheBuffer} {c c' : CacheState} {frame : Bytes} {ret : ℤ}
    (hne : frame.1 ≠ []) (h : B.appendFrame c frame = some (ret, c')) :
    (B.Accepts c frame ∧ c'.frameCacheMap.length = c.frameCacheMap.length + 1) ∨
      (¬ B.Accepts c frame ∧ c' = c) := by
  have hlen : frame.1.length ≠ 0 := fun h => hne (List.length_eq_zero_iff.mp h)
  obtain ⟨⟨ok, c₁⟩, happ, he⟩ := Option.map_eq_some_iff.mp h
  by_cases hacc : B.Accepts c frame
  · refine Or.inl ⟨hacc, ?_⟩
    rcases appendFrame_length h with ⟨rfl, -⟩ | hlength
    · -- the value is -1 only when the append was refused
      cases ok with
      | true =>
        have hret := (Prod.mk.inj he).1
        exact absurd hret (by simp)
      | false =>
        exfalso
        rw [appendCache] at happ
        dsimp only at happ
        rw [if_neg hlen] at happ
        split_ifs at happ with hfull hover
        · exact absurd (hacc hfull) (not_le.mpr hover)
        · obtain ⟨c₂, -, happ⟩ := Option.bind_eq_some_iff.mp happ
          obtain ⟨c₃, -, hmk⟩ := Option.map_eq_some_iff.mp happ
          exact absurd (Prod.mk.inj hmk).1 (by simp)
        · obtain ⟨c₃, -, hmk⟩ := Option.map_eq_some_iff.mp happ
          exact absurd (Prod.mk.inj hmk).1 (by simp)
    · exact hlength
  · refine Or.inr ⟨hacc, ?_⟩
    simp only [IcacheBuffer.Accepts, not_forall, not_le] at hacc
    obtain ⟨hfull, hover⟩ := hacc
    rw [appendCache] at happ
    dsimp only at happ
    rw [if_neg hlen, if_pos hfull, if_pos hover] at happ
    obtain ⟨rfl, rfl⟩ := Prod.mk.inj (Option.some.inj happ)
    exact (Prod.mk.inj he).2.symm

/-- An empty chunk is refused. -/
lemma readFromBuf_ne_nil {B : IcacheBuffer} {c c₁ : CacheState} {chunk : Bytes} {result : ℤ}
    (h : B.readFromBuf c chunk = some (result, c₁)) (hresult : 0 ≤ result) : chunk.1 ≠ [] := by
  intro hnil
  have happ : B.appendCache c chunk = some (false, c) := by
    rw [appendCache]
    simp [hnil]
  rw [readFromBuf, happ] at h
  obtain ⟨rfl, -⟩ := Prod.mk.inj (Option.some.inj h)
  exact absurd hresult (by simp)

/-- `on_recv` calls `on_close` exactly when it comes to an end of the stream. -/
lemma recvLoop_noEnd {results : List TcpRecv} {c c' : CacheState} {closed : Bool}
    {frames : List (List UInt8)} (h : C.recvLoop results c = some (closed, frames, c')) :
    C.NoEnd results c ↔ closed = false := by
  induction results generalizing c c' frames with
  | nil =>
    obtain ⟨rfl, -⟩ := Prod.mk.inj (Option.some.inj h)
    simp [NoEnd]
  | cons r results ih =>
    rw [recvLoop] at h
    obtain ⟨⟨ret, c₁⟩, hread, h⟩ := Option.bind_eq_some_iff.mp h
    cases r with
    | again =>
      obtain ⟨rfl, rfl⟩ := Prod.mk.inj (Option.some.inj hread)
      obtain ⟨rfl, -⟩ := Prod.mk.inj (Option.some.inj h)
      simp [NoEnd]
    | closed =>
      obtain ⟨rfl, rfl⟩ := Prod.mk.inj (Option.some.inj hread)
      obtain ⟨rfl, -⟩ := Prod.mk.inj (Option.some.inj h)
      simp [NoEnd]
    | data chunk =>
      obtain ⟨⟨result, c₂⟩, hbuf, he⟩ := Option.map_eq_some_iff.mp hread
      obtain ⟨rfl, rfl⟩ := Prod.mk.inj he
      simp only [NoEnd, hbuf, Option.some.injEq, Prod.mk.injEq, and_imp]
      by_cases hresult : result < 0
      · simp only [hresult, if_true] at h
        obtain ⟨rfl, -⟩ := Prod.mk.inj (Option.some.inj h)
        simp only [Bool.true_eq_false, iff_false, not_forall]
        exact ⟨result, c₂, rfl, rfl, fun hall => absurd hall.1 (not_le.mpr hresult)⟩
      · have hlen : chunk.1.length ≠ 0 := fun hzero =>
          readFromBuf_ne_nil hbuf (not_lt.mp hresult) (List.length_eq_zero_iff.mp hzero)
        rw [if_neg hresult] at h
        dsimp only at h
        rw [if_neg (by simp), if_neg (by simpa using hlen)] at h
        obtain ⟨⟨fs, c₃⟩, hpop, h⟩ := Option.bind_eq_some_iff.mp h
        obtain ⟨⟨closed', later, c₄⟩, hloop, he⟩ := Option.map_eq_some_iff.mp h
        obtain ⟨rfl, hrest⟩ := Prod.mk.inj he
        obtain ⟨-, rfl⟩ := Prod.mk.inj hrest
        rw [← ih hloop]
        constructor
        · intro hall
          exact (hall result c₂ rfl rfl).2 fs c₃ hpop
        · rintro hend _ _ rfl rfl
          refine ⟨not_lt.mp hresult, fun fs' c₃' hpop' => ?_⟩
          obtain ⟨-, rfl⟩ := Prod.mk.inj (Option.some.inj (hpop.symm.trans hpop'))
          exact hend

/-- `on_write` leaves the channel alone exactly when its sends block. -/
lemma writeLoop_blocks {results : List (List SendResult)} {c c' : CacheState} {closed : Bool}
    (h : C.writeLoop results c = some (closed, c')) :
    C.Blocks results c ↔ closed = false ∧ c'.frameCacheMap ≠ [] := by
  induction results generalizing c with
  | nil =>
    obtain ⟨rfl, rfl⟩ := Prod.mk.inj (Option.some.inj h)
    simp [Blocks]
  | cons r results ih =>
    rw [writeLoop] at h
    split_ifs at h with hempty
    · obtain ⟨rfl, rfl⟩ := Prod.mk.inj (Option.some.inj h)
      simp [Blocks, hempty]
    · obtain ⟨⟨ret, out, c₁⟩, hsend, h⟩ := Option.bind_eq_some_iff.mp h
      have hblocks : C.Blocks (r :: results) c ↔
          (ret < 0 → c₁.frameCacheMap ≠ []) ∧ (0 ≤ ret → ret ≠ 0 ∧ C.Blocks results c₁) := by
        simp only [Blocks, hsend, Option.some.injEq, Prod.mk.injEq, and_imp]
        constructor
        · rintro ⟨-, hall⟩
          exact hall ret out c₁ rfl rfl rfl
        · rintro hthis
          refine ⟨hempty, ?_⟩
          rintro _ _ _ rfl rfl rfl
          exact hthis
      rw [hblocks]
      dsimp only at h
      split_ifs at h with hneg hzero
      · obtain ⟨rfl, rfl⟩ := Prod.mk.inj (Option.some.inj h)
        simp [hneg, not_le.mpr hneg]
      · obtain ⟨rfl, rfl⟩ := Prod.mk.inj (Option.some.inj h)
        simp [hzero]
      · rw [← ih h]
        simp [hneg, hzero, not_lt.mp hneg]

/-! ## What an operation adds to the log -/

/-- What an operation does: its effects, which are quiet exactly for the operations that a
closed connection survives. -/
structure Adds (C : TcpConnection) (s : TcpState) (op : TcpOp) (s' : TcpState)
    (effects : List TcpEffect) : Prop where
  log : s'.log = s.log ++ effects
  closes_last : StaysClosed effects
  quiet_iff : C.QuietOp s op ↔ Quiet effects
  reading : s'.events.reading = s.events.reading
  /-- A registration is the only effect of its operation. -/
  registered : effects = [.registered] ∨
    s'.scheduler.isRegistered C.fd = false ∨
    (TcpEffect.disconnected ∉ effects ∧ s'.scheduler = s.scheduler)

lemma sendFrame_adds {frame : Bytes} (hreading : s.events.reading = true)
    (h : C.step s (.sendFrame frame) = some s') :
    ∃ effects, Adds C s (.sendFrame frame) s' effects := by
  obtain ⟨⟨ret, s₁⟩, hsend, rfl⟩ := Option.map_eq_some_iff.mp h
  rcases sendFrame_cases hsend with ⟨hnil, rfl⟩ | ⟨n, writeCache, hne, happ, hcases⟩
  · exact ⟨[], by simp, trivial, by simp [QuietOp, hnil, Quiet], rfl,
      Or.inr (Or.inr ⟨by simp, rfl⟩)⟩
  · -- the queue has one frame after the call
    have hone : C.QuietOp s (.sendFrame frame) ↔ writeCache.frameCacheMap.length ≠ 1 := by
      simp only [QuietOp, hne, ne_eq, not_false_eq_true, forall_const]
      rcases appendFrame_accepts hne happ with ⟨hacc, hlength⟩ | ⟨hacc, rfl⟩
      · simp [hacc, hlength, List.length_eq_zero_iff]
      · simp [hacc]
    rcases hcases with ⟨hlen, rfl⟩ | ⟨hlen, rfl⟩
    · refine ⟨[.registered], syncChannel_log hreading, trivial, ?_, rfl, Or.inl rfl⟩
      simp [hone, hlen, Quiet]
    · exact ⟨[], by simp, trivial, by simp [hone, hlen, Quiet], rfl,
        Or.inr (Or.inr ⟨by simp, rfl⟩)⟩

lemma onRecv_adds {results : List TcpRecv} (h : C.step s (.onRecv results) = some s') :
    ∃ effects, Adds C s (.onRecv results) s' effects := by
  obtain ⟨closed, frames, readCache, hloop, ⟨rfl, rfl⟩ | ⟨rfl, rfl⟩⟩ := onRecv_cases h
  · refine ⟨frames.map .notifyFrame ++ [.disconnected], ?_, ?_, ?_, rfl,
      Or.inr (Or.inl (by simp [TcpConnection.onClose, stopChannel]))⟩
    · simp [TcpConnection.onClose, stopChannel]
    · simp [staysClosed_frames, StaysClosed]
    · simp [QuietOp, recvLoop_noEnd hloop, Quiet]
  · refine ⟨frames.map .notifyFrame, rfl, ?_, ?_, rfl, Or.inr (Or.inr ⟨by simp, rfl⟩)⟩
    · simpa using (staysClosed_frames frames []).mpr trivial
    · simp [QuietOp, recvLoop_noEnd hloop, quiet_frames]

lemma onWrite_adds {results : List (List SendResult)} (hreading : s.events.reading = true)
    (h : C.step s (.onWrite results) = some s') :
    ∃ effects, Adds C s (.onWrite results) s' effects := by
  obtain ⟨closed, writeCache, hloop, ⟨rfl, rfl⟩ | ⟨rfl, hempty, rfl⟩ | ⟨rfl, hne, rfl⟩⟩ :=
    onWrite_cases h
  · refine ⟨[.disconnected], rfl, ?_, ?_, rfl,
      Or.inr (Or.inl (by simp [TcpConnection.onClose, stopChannel]))⟩
    · simp [StaysClosed]
    · simp [QuietOp, writeLoop_blocks hloop, Quiet]
  · refine ⟨[.registered], syncChannel_log hreading, trivial, ?_, rfl, Or.inl rfl⟩
    simp [QuietOp, writeLoop_blocks hloop, Quiet, hempty]
  · refine ⟨[], by simp, trivial, ?_, rfl, Or.inr (Or.inr ⟨by simp, rfl⟩)⟩
    simp [QuietOp, writeLoop_blocks hloop, Quiet, hne]

lemma step_adds {op : TcpOp} (hreading : s.events.reading = true) (h : C.step s op = some s') :
    ∃ effects, Adds C s op s' effects := by
  cases op with
  | sendFrame frame => exact sendFrame_adds hreading h
  | onRecv results => exact onRecv_adds h
  | onWrite results => exact onWrite_adds hreading h
  | onClose =>
    obtain rfl := Option.some.inj h
    exact ⟨[.disconnected], rfl, by simp [StaysClosed], by simp [QuietOp, Quiet], rfl,
      Or.inr (Or.inl (by simp [TcpConnection.onClose, stopChannel]))⟩
  | onError =>
    obtain rfl := Option.some.inj h
    exact ⟨[.disconnected], rfl, by simp [StaysClosed], by simp [QuietOp, Quiet], rfl,
      Or.inr (Or.inl (by simp [TcpConnection.onError, stopChannel]))⟩

/-! ## Whole runs -/

/-- The connection that was closed stays closed, and its channel is not registered. -/
def ClosedForGood (C : TcpConnection) (s : TcpState) : Prop :=
  StaysClosed s.log ∧
    (TcpEffect.disconnected ∈ s.log → s.scheduler.isRegistered C.fd = false)

lemma ClosedForGood.next {op : TcpOp} (hreading : s.events.reading = true)
    (hs : ClosedForGood C s) (hok : C.QuietAfterClose s op) (h : C.step s op = some s') :
    ClosedForGood C s' := by
  obtain ⟨effects, hadds⟩ := step_adds hreading h
  by_cases hclosed : TcpEffect.disconnected ∈ s.log
  · have hquiet := hadds.quiet_iff.mp (hok hclosed)
    refine ⟨?_, fun _ => ?_⟩
    · rw [hadds.log, staysClosed_append_of_closed hclosed]
      exact ⟨hs.1, hquiet⟩
    · rcases hadds.registered with hreg | hreg | ⟨-, hsame⟩
      · exact absurd (by simp [hreg]) hquiet.1
      · exact hreg
      · rw [hsame]
        exact hs.2 hclosed
  · refine ⟨?_, fun hclosed' => ?_⟩
    · rw [hadds.log, staysClosed_append_of_open hclosed]
      exact hadds.closes_last
    · -- the operation closes the connection
      rw [hadds.log, List.mem_append] at hclosed'
      have hlast := hclosed'.resolve_left hclosed
      rcases hadds.registered with hreg | hreg | ⟨hnot, -⟩
      · simp [hreg] at hlast
      · exact hreg
      · exact absurd hlast hnot

lemma not_staysClosed_of_not_quiet {op : TcpOp} (hreading : s.events.reading = true)
    (hok : ¬ C.QuietAfterClose s op) (h : C.step s op = some s') : ¬ StaysClosed s'.log := by
  obtain ⟨effects, hadds⟩ := step_adds hreading h
  simp only [QuietAfterClose, Classical.not_imp] at hok
  rw [hadds.log, staysClosed_append_of_closed hok.1]
  exact fun hstays => hok.2 (hadds.quiet_iff.mpr hstays.2)

/-- The log only grows, so what has happened after the close stays in it. -/
lemma not_staysClosed_append {log effects : List TcpEffect} (h : ¬ StaysClosed log) :
    ¬ StaysClosed (log ++ effects) := by
  by_cases hclosed : TcpEffect.disconnected ∈ log
  · rw [staysClosed_append_of_closed hclosed]
    exact fun hstays => h hstays.1
  · have hnil : StaysClosed (log ++ []) := (staysClosed_append_of_open hclosed).mpr trivial
    rw [List.append_nil] at hnil
    exact absurd hnil h

/-- **A closed connection stays closed exactly when nothing happens to it.** In every run after
`setProtocal`, there is no registration and no second `disconnected` after the first close,
and the channel is not registered, if and only if every operation after the first close meets
the condition. -/
theorem closed_stays_closed_iff (C : TcpConnection) (events : Interest)
    (scheduler : RunningRegistry) (ops : List TcpOp) (s : TcpState)
    (hrun : Lib.run C.step (C.setProtocal events scheduler) ops = some s) :
    ClosedForGood C s ↔
      Lib.AllSteps C.step C.QuietAfterClose (C.setProtocal events scheduler) ops := by
  have hlog : (C.setProtocal events scheduler).log = [.registered] := syncChannel_log rfl
  have hinit : (C.setProtocal events scheduler).events.reading = true ∧
      ClosedForGood C (C.setProtocal events scheduler) := by
    refine ⟨rfl, ?_, ?_⟩
    · rw [hlog]
      trivial
    · rw [hlog]
      simp
  have hbad : ∀ s op s', s.events.reading = true ∧ ClosedForGood C s →
      ¬ C.QuietAfterClose s op → C.step s op = some s' →
      s'.events.reading = true ∧ ¬ StaysClosed s'.log := by
    intro s op s' hs hok h
    obtain ⟨effects, hadds⟩ := step_adds hs.1 h
    exact ⟨hadds.reading.trans hs.1, not_staysClosed_of_not_quiet hs.1 hok h⟩
  refine Lib.run_iff_allSteps ?_ hbad ?_ (fun _ hs => hs.2) (fun _ hs hgood => hs.2 hgood.1)
    hinit hrun
  · intro s op s' hs hok h
    obtain ⟨effects, hadds⟩ := step_adds hs.1 h
    exact ⟨hadds.reading.trans hs.1, hs.2.next hs.1 hok h⟩
  · intro s op s' hs h
    obtain ⟨effects, hadds⟩ := step_adds hs.1 h
    refine ⟨hadds.reading.trans hs.1, ?_⟩
    rw [hadds.log]
    exact not_staysClosed_append hs.2

/-- The peer closes the connection after one frame; a slot that was queued finds nothing to
read. -/
theorem close_then_idle_slot : ∃ s : TcpState,
    Lib.run sampleConnection.step (sampleConnection.setProtocal .noneEvent .init)
      [.onRecv [.data ⟨[1, 2], by decide⟩, .closed], .onRecv [.again]] = some s ∧
    s.log = [.registered, .notifyFrame [1, 2], .disconnected] ∧
    ClosedForGood sampleConnection s := by
  let ops : List TcpOp := [.onRecv [.data ⟨[1, 2], by decide⟩, .closed], .onRecv [.again]]
  have hrun : (Lib.run sampleConnection.step (sampleConnection.setProtocal .noneEvent .init)
      ops).map TcpState.log = some [.registered, .notifyFrame [1, 2], .disconnected] := by
    decide +kernel
  obtain ⟨s, hs, hlog⟩ := Option.map_eq_some_iff.mp hrun
  refine ⟨s, hs, hlog, (closed_stays_closed_iff sampleConnection .noneEvent .init ops s hs).mpr ?_⟩
  have hfirst : TcpEffect.disconnected ∉ (sampleConnection.setProtocal .noneEvent .init).log := by
    decide +kernel
  exact ⟨fun hclosed => absurd hclosed hfirst, fun _ _ => ⟨fun _ => trivial, fun _ _ => trivial⟩⟩

/-- `sendFrame` on a closed connection registers the channel again. -/
theorem send_after_close_registers : ∃ (ops : List TcpOp) (s : TcpState),
    Lib.run sampleConnection.step (sampleConnection.setProtocal .noneEvent .init) ops = some s ∧
    s.log = [.registered, .disconnected, .registered] ∧
    ¬ ClosedForGood sampleConnection s := by
  let ops : List TcpOp := [.onClose, .sendFrame ⟨[1], by decide⟩]
  have hrun : (Lib.run sampleConnection.step (sampleConnection.setProtocal .noneEvent .init)
      ops).map TcpState.log = some [.registered, .disconnected, .registered] := by
    decide +kernel
  obtain ⟨s, hs, hlog⟩ := Option.map_eq_some_iff.mp hrun
  refine ⟨ops, s, hs, hlog, fun hgood => ?_⟩
  have hstays := hgood.1
  rw [hlog] at hstays
  exact hstays.1 (by simp)

end TcpConnection

end SignalEventLoop.Network

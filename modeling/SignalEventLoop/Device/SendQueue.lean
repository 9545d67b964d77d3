/-
# The transmit path of the updater

`AimyUpdater::on_write`, `sendNormalData` and `sendUpdateData`
(`imp/device-update/device_updater.cpp`).  Normal frames wait in `sendDataList`; the frame of
the update is written when the list is empty and the resend timer does not run.

A call of `on_write` may write several times, so a step is one call of `write`, and the state
tells where in `on_write` the updater is.  The loop goes on until the list is empty, whatever
`write` returns: a result that says that the write would block does not end it, and a write of
a part of a frame takes the whole frame from the list.
-/
import SignalEventLoop.Lib.Run

namespace SignalEventLoop.Device

open Lib

/-- What `write` returns.  The results 0 and the other errors end the connection. -/
inductive WriteResult where
  | wrote (n : ℕ)
  /-- `EAGAIN`. -/
  | again
  /-- `EINTR`. -/
  | interrupted
deriving DecidableEq

/-- Where the updater is in `on_write`. -/
inductive WritePhase where
  | idle
  /-- The loop over `sendDataList`. -/
  | loop
  /-- The write of `lastUpdateFrame`. -/
  | resend
deriving DecidableEq

/-- `writing` is the interest of the channel.  `after` counts the writes of the present or last
call of `on_write` behind the first one that would block.  `sent` is what was written from the
list and `accepted` every frame that was ever put into it. -/
structure Transmitter where
  sendDataList : List (List UInt8)
  lastUpdateFrame : Option (List UInt8)
  resendWorking : Bool
  writing : Bool
  phase : WritePhase
  after : Option ℕ
  sent : List UInt8
  updates : List UInt8
  accepted : List (List UInt8)
deriving DecidableEq

namespace Transmitter

/-- The transmit path after `init`. -/
def initial : Transmitter := ⟨[], none, false, false, .idle, none, [], [], []⟩

variable (s : Transmitter)

/-- The frame of `sendNormalData`. -/
def sendNormalData (frame : List UInt8) : Transmitter :=
  { s with
    sendDataList := s.sendDataList ++ [frame]
    accepted := s.accepted ++ [frame]
    writing := true }

/-- The frame of `sendUpdateData`. -/
def sendUpdateData (frame : List UInt8) : Transmitter :=
  { s with resendWorking := false, lastUpdateFrame := some frame, writing := true }

/-- `on_send_timeout`. -/
def onSendTimeout : Transmitter := { s with resendWorking := false, writing := true }

/-- The end of `on_write`. -/
def finish : Transmitter :=
  if (s.resendWorking = true ∨ s.lastUpdateFrame = none) ∧ s.sendDataList = [] then
    { s with phase := .idle, writing := false }
  else { s with phase := .idle }

/-- The beginning of `on_write`. -/
def onWrite : Transmitter :=
  if s.sendDataList ≠ [] then { s with after := none, phase := .loop }
  else if s.lastUpdateFrame ≠ none ∧ s.resendWorking = false then
    { s with after := none, phase := .resend }
  else finish { s with after := none }

/-- `write` was called. -/
def count (r : WriteResult) : Transmitter :=
  { s with
    after := match s.after with
      | some k => some (k + 1)
      | none => if r = .again then some 0 else none }

/-- One turn of the loop. -/
def writeFront (front : List UInt8) (rest : List (List UInt8)) :
    WriteResult → Option Transmitter
  | .wrote n =>
    if 0 < n ∧ n ≤ front.length then
      let s := { s.count (.wrote n) with sent := s.sent ++ front.take n, sendDataList := rest }
      some (if rest = [] then s.finish else s)
    else none
  | r => some (s.count r)

/-- The write of the frame of the update. -/
def writeUpdate (frame : List UInt8) : WriteResult → Option Transmitter
  | .wrote n =>
    if 0 < n ∧ n ≤ frame.length then
      some (finish { s.count (.wrote n) with
        updates := s.updates ++ frame.take n, resendWorking := true })
    else none
  | r => some (s.count r).finish

end Transmitter

inductive TransmitAction where
  | sendNormalData (frame : List UInt8)
  | sendUpdateData (frame : List UInt8)
  | onSendTimeout
  /-- `handleReplyQuitUpgradeWorkMode` stops the timer. -/
  | stopResendTimer
  | onWrite
  | write (r : WriteResult)

/-- A step.  Everything runs in the thread of the scheduler, so nothing but a write happens
within a call of `on_write`. -/
def TransmitAction.step (s : Transmitter) : TransmitAction → Option Transmitter
  | .sendNormalData frame => if s.phase = .idle then some (s.sendNormalData frame) else none
  | .sendUpdateData frame => if s.phase = .idle then some (s.sendUpdateData frame) else none
  | .onSendTimeout => if s.phase = .idle then some s.onSendTimeout else none
  | .stopResendTimer => if s.phase = .idle then some { s with resendWorking := false } else none
  | .onWrite => if s.phase = .idle ∧ s.writing = true then some s.onWrite else none
  | .write r =>
    match s.phase, s.sendDataList, s.lastUpdateFrame with
    | .loop, front :: rest, _ => s.writeFront front rest r
    | .resend, _, some frame => s.writeUpdate frame r
    | _, _, _ => none

/-- At most one write of a call comes behind a write that would block, and what was written are
the frames of the list, one behind the other. -/
structure TransmitsInOrder (s : Transmitter) : Prop where
  after_le : ∀ k, s.after = some k → k ≤ 1
  beginning : s.sent <+: s.accepted.flatten
  complete : s.sendDataList = [] → s.sent = s.accepted.flatten

/-- A write of the loop takes its frame whole, and the last frame of the list when a write before
it would block; it is refused only when none before it would block. -/
def TurnOk (s : Transmitter) (front : List UInt8) (rest : List (List UInt8)) :
    WriteResult → Prop
  | .wrote n => n = front.length ∧ (s.after ≠ none → rest = [])
  | _ => s.after = none

/-- The condition on a step: only the writes of the loop have one. -/
def WriteOk (s : Transmitter) : TransmitAction → Prop
  | .write r => s.phase = .loop → ∀ front rest, s.sendDataList = front :: rest →
      TurnOk s front rest r
  | _ => True

lemma turnOk_refused {s : Transmitter} {front : List UInt8} {rest : List (List UInt8)}
    {r : WriteResult} (h : ∀ n, r ≠ .wrote n) : TurnOk s front rest r ↔ s.after = none := by
  cases r with
  | wrote n => exact absurd rfl (h n)
  | again => rfl
  | interrupted => rfl

namespace Transmitter

variable {s s' t : Transmitter} {a : TransmitAction} {r : WriteResult}

/-! ## What a step changes -/

@[simp] lemma finish_phase : s.finish.phase = .idle := by
  rw [finish]
  split_ifs <;> rfl

@[simp] lemma finish_sendDataList : s.finish.sendDataList = s.sendDataList := by
  rw [finish]
  split_ifs <;> rfl

@[simp] lemma finish_after : s.finish.after = s.after := by
  rw [finish]
  split_ifs <;> rfl

@[simp] lemma finish_sent : s.finish.sent = s.sent := by
  rw [finish]
  split_ifs <;> rfl

@[simp] lemma finish_accepted : s.finish.accepted = s.accepted := by
  rw [finish]
  split_ifs <;> rfl

/-- A step outside of the loop only puts frames into the list, and enters the loop with no write
that would block. -/
structure Quiet (s s' : Transmitter) : Prop where
  bytes : ∃ new, s'.sendDataList = s.sendDataList ++ new ∧ s'.accepted = s.accepted ++ new
  sent : s'.sent = s.sent
  loop : s'.phase = .loop → s'.sendDataList ≠ [] ∧ s'.after = none
  resend : s'.phase = .resend → s'.after = none
  after : (s.phase = .resend → s.after = none) → ∀ k, s'.after = some k → k = 0 ∨ s.after = some k

lemma quiet_of_eq (hphase : s'.phase = .idle) (hafter : s'.after = s.after)
    (hsent : s'.sent = s.sent)
    (hbytes : ∃ new, s'.sendDataList = s.sendDataList ++ new ∧ s'.accepted = s.accepted ++ new) :
    Quiet s s' := by
  refine ⟨hbytes, hsent, ?_, ?_, fun _ k hk => Or.inr (hafter ▸ hk)⟩ <;>
  · rw [hphase]
    intro h
    cases h

lemma quiet_onWrite (s : Transmitter) : Quiet s s.onWrite := by
  have hnone : ∀ k, (none : Option ℕ) = some k → k = 0 ∨ s.after = some k := by
    intro k hk
    cases hk
  rw [onWrite]
  split_ifs with hlist hupdate
  · exact ⟨⟨[], by simp⟩, rfl, fun _ => ⟨hlist, rfl⟩, fun _ => rfl, fun _ => hnone⟩
  · exact ⟨⟨[], by simp⟩, rfl, fun h => (nomatch h), fun _ => rfl, fun _ => hnone⟩
  · refine ⟨⟨[], by simp⟩, by simp, fun h => ?_, fun h => ?_, fun _ k hk => ?_⟩
    · rw [finish_phase] at h
      cases h
    · rw [finish_phase] at h
      cases h
    · rw [finish_after] at hk
      exact hnone k hk

/-- The counter of a first write of a call. -/
lemma count_of_none (h : s.after = none) {k : ℕ} (hk : (s.count r).after = some k) : k = 0 := by
  simp only [count, h] at hk
  split_ifs at hk
  exact (Option.some.inj hk).symm

lemma count_of_some {k : ℕ} (h : s.after = some k) : (s.count r).after = some (k + 1) := by
  simp only [count, h]

lemma quiet_writeUpdate {frame : List UInt8} (hphase : s.phase = .resend)
    (h : s.writeUpdate frame r = some s') : Quiet s s' := by
  have hquiet : ∀ s₁ : Transmitter, s₁.sendDataList = s.sendDataList → s₁.accepted = s.accepted →
      s₁.sent = s.sent → s₁.after = (s.count r).after → Quiet s s₁.finish := by
    intro s₁ hlist haccepted hsent hafter
    refine ⟨⟨[], by simp [hlist, haccepted]⟩, by simp [hsent], ?_, ?_, fun hresend k hk => ?_⟩
    · rw [finish_phase]
      intro h
      cases h
    · rw [finish_phase]
      intro h
      cases h
    · rw [finish_after, hafter] at hk
      exact Or.inl (count_of_none (hresend hphase) hk)
  cases r with
  | wrote n =>
    rw [writeUpdate] at h
    split_ifs at h
    obtain rfl := Option.some.inj h
    exact hquiet _ rfl rfl rfl rfl
  | again =>
    obtain rfl := Option.some.inj h
    exact hquiet _ rfl rfl rfl rfl
  | interrupted =>
    obtain rfl := Option.some.inj h
    exact hquiet _ rfl rfl rfl rfl

/-- **What a step can do**: it is outside of the loop, or one turn of the loop. -/
lemma step_cases (h : a.step s = some s') :
    (s.phase ≠ .loop ∧ Quiet s s') ∨
      ∃ front rest r, a = .write r ∧ s.phase = .loop ∧ s.sendDataList = front :: rest ∧
        s.writeFront front rest r = some s' := by
  have hidle : s.phase = .idle → s.phase ≠ .loop := by
    intro h h'
    rw [h] at h'
    cases h'
  cases a with
  | sendNormalData frame =>
    simp only [TransmitAction.step, Option.ite_none_right_eq_some, Option.some.injEq] at h
    obtain ⟨hphase, rfl⟩ := h
    exact Or.inl ⟨hidle hphase, quiet_of_eq hphase rfl rfl ⟨[frame], rfl, rfl⟩⟩
  | sendUpdateData frame =>
    simp only [TransmitAction.step, Option.ite_none_right_eq_some, Option.some.injEq] at h
    obtain ⟨hphase, rfl⟩ := h
    refine Or.inl ⟨hidle hphase, quiet_of_eq hphase rfl rfl ⟨[], ?_⟩⟩
    simp [Transmitter.sendUpdateData]
  | onSendTimeout =>
    simp only [TransmitAction.step, Option.ite_none_right_eq_some, Option.some.injEq] at h
    obtain ⟨hphase, rfl⟩ := h
    refine Or.inl ⟨hidle hphase, quiet_of_eq hphase rfl rfl ⟨[], ?_⟩⟩
    simp [Transmitter.onSendTimeout]
  | stopResendTimer =>
    simp only [TransmitAction.step, Option.ite_none_right_eq_some, Option.some.injEq] at h
    obtain ⟨hphase, rfl⟩ := h
    exact Or.inl ⟨hidle hphase, quiet_of_eq hphase rfl rfl ⟨[], by simp⟩⟩
  | onWrite =>
    simp only [TransmitAction.step, Option.ite_none_right_eq_some, Option.some.injEq] at h
    obtain ⟨⟨hphase, -⟩, rfl⟩ := h
    exact Or.inl ⟨hidle hphase, quiet_onWrite s⟩
  | write r =>
    rw [TransmitAction.step] at h
    split at h
    · rename_i front rest hphase hlist
      exact Or.inr ⟨front, rest, r, rfl, hphase, hlist, h⟩
    · rename_i frame hphase hframe
      refine Or.inl ⟨?_, quiet_writeUpdate hphase h⟩
      rw [hphase]
      decide
    · cases h

/-- **One turn of the loop**: the frame leaves the list, or nothing was written. -/
lemma writeFront_cases {front : List UInt8} {rest : List (List UInt8)}
    (h : s.writeFront front rest r = some s') :
    (∃ n, r = .wrote n ∧ n ≤ front.length ∧ s'.sendDataList = rest ∧
        s'.sent = s.sent ++ front.take n ∧ s'.accepted = s.accepted ∧
        s'.after = s.after.map (· + 1) ∧ s'.phase = if rest = [] then .idle else s.phase) ∨
      ((∀ n, r ≠ .wrote n) ∧ s' = s.count r) := by
  cases r with
  | wrote n =>
    have hn : 0 < n ∧ n ≤ front.length := by
      by_contra hn
      rw [writeFront, if_neg hn] at h
      cases h
    rw [writeFront, if_pos hn] at h
    refine Or.inl ⟨n, rfl, hn.2, ?_⟩
    have hafter : (s.count (.wrote n)).after = s.after.map (· + 1) := by
      rw [count]
      cases s.after with
      | none => rfl
      | some k => rfl
    obtain rfl := Option.some.inj h
    by_cases hrest : rest = []
    · rw [if_pos hrest, if_pos hrest]
      exact ⟨by simp, by simp, by simp [count], by rw [finish_after]; exact hafter, finish_phase⟩
    · rw [if_neg hrest, if_neg hrest]
      exact ⟨rfl, rfl, rfl, hafter, rfl⟩
  | again =>
    obtain rfl := Option.some.inj h
    exact Or.inr ⟨fun n hn => (nomatch hn), rfl⟩
  | interrupted =>
    obtain rfl := Option.some.inj h
    exact Or.inr ⟨fun n hn => (nomatch hn), rfl⟩

/-! ## Runs without a fault -/

/-- The bytes are in order, and the present call has not gone on behind a write that would
block. -/
structure InOrder (s : Transmitter) : Prop where
  bytes : s.sent ++ s.sendDataList.flatten = s.accepted.flatten
  loop : s.phase = .loop → s.sendDataList ≠ [] ∧ ∀ k, s.after = some k → k = 0
  resend : s.phase = .resend → s.after = none
  after_le : ∀ k, s.after = some k → k ≤ 1

lemma inOrder_initial : InOrder initial :=
  ⟨rfl, fun h => (nomatch h), fun h => (nomatch h), fun _ h => (nomatch h)⟩

lemma InOrder.transmitsInOrder (h : InOrder s) : TransmitsInOrder s := by
  refine ⟨h.after_le, ⟨_, h.bytes⟩, fun hempty => ?_⟩
  have hbytes := h.bytes
  rwa [hempty, List.flatten_nil, List.append_nil] at hbytes

lemma InOrder.quiet (h : InOrder s) (hquiet : Quiet s s') : InOrder s' := by
  obtain ⟨new, hlist, haccepted⟩ := hquiet.bytes
  refine ⟨?_, fun hloop => ?_, hquiet.resend, fun k hk => ?_⟩
  · rw [hquiet.sent, hlist, haccepted, List.flatten_append, List.flatten_append,
      ← List.append_assoc, h.bytes]
  · obtain ⟨hne, hnone⟩ := hquiet.loop hloop
    refine ⟨hne, fun k hk => ?_⟩
    rw [hnone] at hk
    cases hk
  · rcases hquiet.after h.resend k hk with rfl | hold
    · exact Nat.zero_le 1
    · exact h.after_le k hold

lemma InOrder.step (h : InOrder s) (hok : WriteOk s a) (hstep : a.step s = some s') :
    InOrder s' := by
  rcases step_cases hstep with ⟨-, hquiet⟩ | ⟨front, rest, r, rfl, hphase, hlist, hwrite⟩
  · exact h.quiet hquiet
  · have hturn := hok hphase front rest hlist
    obtain ⟨-, hzero⟩ := h.loop hphase
    rcases writeFront_cases hwrite with ⟨n, rfl, -, hrest, hsent, haccepted, hafter, hnext⟩ |
      ⟨hrefused, rfl⟩
    · obtain ⟨rfl, hlast⟩ := hturn
      have hafter_le : ∀ k, s'.after = some k → k ≤ 1 ∧ rest = [] := by
        intro k hk
        rw [hafter, Option.map_eq_some_iff] at hk
        obtain ⟨j, hj, rfl⟩ := hk
        obtain rfl := hzero j hj
        exact ⟨le_rfl, hlast (by rw [hj]; simp)⟩
      refine ⟨?_, fun hloop => ?_, fun hresend => ?_, fun k hk => (hafter_le k hk).1⟩
      · rw [hsent, List.take_length, hrest, haccepted, ← h.bytes, hlist, List.flatten_cons,
          List.append_assoc]
      · rw [hnext] at hloop
        split_ifs at hloop with hempty
        rw [hrest]
        exact ⟨hempty, fun k hk => absurd (hafter_le k hk).2 hempty⟩
      · rw [hnext, hphase] at hresend
        split_ifs at hresend
    · -- a write that was refused, so none before it would block
      have hnone : s.after = none := (turnOk_refused hrefused).mp hturn
      have hafter : ∀ k, (s.count r).after = some k → k = 0 := fun k hk => count_of_none hnone hk
      refine ⟨h.bytes, fun _ => ⟨?_, hafter⟩, fun hresend => ?_, fun k hk => ?_⟩
      · have hsame : (s.count r).sendDataList = front :: rest := hlist
        rw [hsame]
        exact List.cons_ne_nil _ _
      · have hsame : (s.count r).phase = .loop := hphase
        rw [hsame] at hresend
        cases hresend
      · rw [hafter k hk]
        exact Nat.zero_le 1

/-! ## Runs with a fault -/

/-- A byte of a frame is gone, or the call has gone on behind a write that would block. -/
def Doomed (s : Transmitter) : Prop :=
  s.sent.length + s.sendDataList.flatten.length < s.accepted.flatten.length ∨
    s.phase = .loop ∧ ∃ k, s.after = some (k + 1)

/-- A write that does not meet the condition. -/
lemma InOrder.doomed (h : InOrder s) (hok : ¬ WriteOk s a) (hstep : a.step s = some s') :
    Doomed s' := by
  rcases step_cases hstep with ⟨hphase, -⟩ | ⟨front, rest, r, rfl, hphase, hlist, hwrite⟩
  · refine absurd ?_ hok
    cases a with
    | write r => exact fun hloop => absurd hloop hphase
    | _ => trivial
  · have hlength := congrArg List.length h.bytes
    rw [hlist, List.flatten_cons, List.length_append, List.length_append] at hlength
    obtain ⟨-, hzero⟩ := h.loop hphase
    rcases writeFront_cases hwrite with ⟨n, rfl, hn, hrest, hsent, haccepted, hafter, hnext⟩ |
      ⟨hrefused, rfl⟩
    · by_cases hwhole : n = front.length
      · -- the frame was written, but it is not the last one
        right
        have hmore : s.after ≠ none ∧ rest ≠ [] := by
          by_contra hnot
          refine hok fun _ front' rest' hlist' => ?_
          obtain ⟨rfl, rfl⟩ := List.cons.inj (hlist.symm.trans hlist')
          refine ⟨hwhole, fun hne => ?_⟩
          by_contra hempty
          exact hnot ⟨hne, hempty⟩
        obtain ⟨k, hk⟩ := Option.ne_none_iff_exists'.mp hmore.1
        rw [hnext, if_neg hmore.2]
        exact ⟨hphase, k, by rw [hafter, hk, Option.map_some]⟩
      · left
        rw [hsent, hrest, haccepted, List.length_append, List.length_take]
        omega
    · right
      have hsome : s.after ≠ none :=
        fun hnone => hok fun _ front' rest' _ => (turnOk_refused hrefused).mpr hnone
      obtain ⟨k, hk⟩ := Option.ne_none_iff_exists'.mp hsome
      exact ⟨hphase, k, count_of_some hk⟩

/-- The bytes stay away, and the call goes on. -/
lemma Doomed.step (h : Doomed s) (hstep : a.step s = some s') (hok : TransmitsInOrder s') :
    Doomed s' := by
  rcases h with hlost | ⟨hloop, k, hk⟩
  · left
    rcases step_cases hstep with ⟨-, hquiet⟩ | ⟨front, rest, r, rfl, hphase, hlist, hwrite⟩
    · obtain ⟨new, hlist, haccepted⟩ := hquiet.bytes
      rw [hquiet.sent, hlist, haccepted, List.flatten_append, List.flatten_append,
        List.length_append, List.length_append]
      omega
    · rw [hlist, List.flatten_cons, List.length_append] at hlost
      rcases writeFront_cases hwrite with ⟨n, -, hn, hrest, hsent, haccepted, -, -⟩ | ⟨-, rfl⟩
      · rw [hsent, hrest, haccepted, List.length_append, List.length_take]
        omega
      · have hsame : (s.count r).sendDataList = front :: rest := hlist
        rw [hsame, List.flatten_cons, List.length_append]
        exact hlost
  · -- one more write of this call
    exfalso
    rcases step_cases hstep with ⟨hphase, -⟩ | ⟨front, rest, r, rfl, -, -, hwrite⟩
    · exact hphase hloop
    · have hafter : s'.after = some (k + 2) := by
        rcases writeFront_cases hwrite with ⟨n, -, -, -, -, -, hafter, -⟩ | ⟨-, rfl⟩
        · rw [hafter, hk, Option.map_some]
        · exact count_of_some hk
      have := hok.after_le _ hafter
      omega

/-- A run with a fault does not end well. -/
lemma Doomed.not_allStates {actions : List TransmitAction} (h : Doomed s)
    (hrun : run TransmitAction.step s actions = some t) (hidle : t.phase = .idle)
    (hempty : t.sendDataList = []) :
    ¬ AllStates TransmitAction.step TransmitsInOrder s actions := by
  induction actions generalizing s with
  | nil =>
    intro hall
    obtain rfl : s = t := by simpa using hrun
    rcases h with hlost | ⟨hloop, -⟩
    · have hcomplete := congrArg List.length ((hall : TransmitsInOrder s).complete hempty)
      rw [hempty, List.flatten_nil, List.length_nil] at hlost
      omega
    · rw [hidle] at hloop
      cases hloop
  | cons a actions ih =>
    intro hall
    obtain ⟨s', hs', hrun'⟩ := run_cons_eq_some.mp hrun
    have hall' := hall.2 s' hs'
    exact ih (h.step hs' hall'.head) hrun' hall'

/-- **The transmit path is in order when no write is short and none would block**, but the one
before the last of its call: in every run whose steps meet the condition, every state is in
order; and in a run that ends outside of `on_write` with an empty list, all states are in order
only if the steps meet the condition. -/
theorem transmits_in_order (actions : List TransmitAction) :
    (AllSteps TransmitAction.step WriteOk initial actions →
      AllStates TransmitAction.step TransmitsInOrder initial actions) ∧
    ∀ t, run TransmitAction.step initial actions = some t → t.phase = .idle →
      t.sendDataList = [] →
      (AllStates TransmitAction.step TransmitsInOrder initial actions ↔
        AllSteps TransmitAction.step WriteOk initial actions) := by
  have hforward : AllSteps TransmitAction.step WriteOk initial actions →
      AllStates TransmitAction.step TransmitsInOrder initial actions :=
    allStates_of_allSteps (fun s a s' h hok hs' => h.step hok hs')
      (fun s h => h.transmitsInOrder) inOrder_initial
  refine ⟨hforward, fun t hrun hidle hempty => ⟨fun hall => ?_, hforward⟩⟩
  have hback : ∀ s, InOrder s → run TransmitAction.step s actions = some t →
      AllStates TransmitAction.step TransmitsInOrder s actions →
      AllSteps TransmitAction.step WriteOk s actions := by
    clear hrun hall hforward
    induction actions with
    | nil => exact fun _ _ _ _ => trivial
    | cons a actions ih =>
      intro s h hrun hall
      obtain ⟨s', hs', hrun'⟩ := run_cons_eq_some.mp hrun
      have hall' := hall.2 s' hs'
      have hok : WriteOk s a := by
        by_contra hnot
        exact (h.doomed hnot hs').not_allStates hrun' hidle hempty hall'
      exact (allSteps_cons_of_eq_some hs').mpr ⟨hok, ih s' (h.step hok hs') hrun' hall'⟩
  exact hback initial inOrder_initial hrun hall

/-- Two frames are written whole, and the second one would block once. -/
theorem transmits_in_order_two :
    AllStates TransmitAction.step TransmitsInOrder initial
      [.sendNormalData [1, 2], .sendNormalData [3], .onWrite, .write (.wrote 2), .write .again,
        .write (.wrote 1)] := by
  refine (transmits_in_order _).1 ?_
  refine (allSteps_cons_of_eq_some rfl).mpr ⟨trivial, ?_⟩
  refine (allSteps_cons_of_eq_some rfl).mpr ⟨trivial, ?_⟩
  refine (allSteps_cons_of_eq_some rfl).mpr ⟨trivial, ?_⟩
  refine (allSteps_cons_of_eq_some rfl).mpr ⟨fun _ front rest hlist => ?_, ?_⟩
  · obtain ⟨rfl, rfl⟩ := List.cons.inj hlist
    exact ⟨rfl, fun hne => absurd rfl hne⟩
  refine (allSteps_cons_of_eq_some rfl).mpr ⟨fun _ front rest hlist => rfl, ?_⟩
  refine (allSteps_cons_of_eq_some rfl).mpr ⟨fun _ front rest hlist => ?_, trivial⟩
  obtain ⟨rfl, rfl⟩ := List.cons.inj hlist
  exact ⟨rfl, fun _ => rfl⟩

/-- A frame of two bytes of which one is written, and a frame whose write would block three
times in one call. -/
theorem transmit_not_in_order :
    (∃ t, run TransmitAction.step initial [.sendNormalData [1, 2], .onWrite, .write (.wrote 1)] =
        some t ∧ t.phase = .idle ∧ t.sendDataList = [] ∧ t.accepted = [[1, 2]] ∧ t.sent = [1] ∧
        ¬ TransmitsInOrder t) ∧
      ∃ t, run TransmitAction.step initial [.sendNormalData [1, 2], .onWrite, .write .again,
        .write .again, .write .again] = some t ∧ t.after = some 2 ∧ ¬ TransmitsInOrder t := by
  refine ⟨⟨_, rfl, rfl, rfl, rfl, rfl, fun h => ?_⟩, ⟨_, rfl, rfl, fun h => ?_⟩⟩
  · exact absurd (h.complete rfl) (by decide)
  · exact absurd (h.after_le 2 rfl) (by decide)

end Transmitter

end SignalEventLoop.Device

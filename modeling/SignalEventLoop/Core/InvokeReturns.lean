/-
# Calls from other threads come back

`invoke` of another thread returns after its function has run exactly once, in the loop thread or
in the caller itself; and until the scheduler is stopped it does return: once the caller has
written its byte, the loop thread alone, without waiting for the end of a timeout, comes to the
event and runs it.  Behind `stopThread` the queue still takes calls, and nothing runs them when the
loop thread has come to its end.
-/
import SignalEventLoop.Core.SchedulerWakeup

namespace SignalEventLoop.Core

open SchedulerEvent

/-- The loop thread was created, and has not left its loop. -/
def ExecPc.InLoop {ι ε : Type*} (pc : ExecPc ι ε) : Prop :=
  pc ≠ .stopped ∧ pc ≠ .leaving ∧ pc ≠ .finished

namespace SchedulerConf

variable {ι ε : Type*} [DecidableEq ι] {s s' : SchedulerConf ι ε} {t u : ι} {f : ε}

/-! ## Every call is run once -/

/-- The call of a thread that is in the queue or was taken from it. -/
def outstanding (isSet : Bool) : CallerPc ε → List ε
  | .accepted (some f) | .waiting f => if isSet then [] else [f]
  | .idle | .loaded _ | .checked _ | .accepted none | .stopping => []

/-- The call of a thread that was not run yet. -/
def unrun (s : SchedulerConf ι ε) (t : ι) : List ε :=
  match s.callers t with
  | .loaded f | .checked f => [f]
  | pc => outstanding (s.isSet t) pc

/-- The function with which the thread begins an `invoke` in this step. -/
def began (t : ι) (_ : SchedulerConf ι ε) : SchedulerAction ι ε → List ε
  | .caller u (.invoke f) => if u = t then [f] else []
  | _ => []

/-- The function of an `invoke` of the thread that is run in this step: by the thread itself, when
the scheduler is not execing or its queue is full, or by the loop thread. -/
def ran (t : ι) (s : SchedulerConf ι ε) : SchedulerAction ι ε → List ε
  | .caller u .loadThreadId =>
    match s.callers u with
    | .loaded f => if u = t ∧ s.threadId = false then [f] else []
    | _ => []
  | .caller u .push =>
    match s.callers u with
    | .checked f =>
      if u = t ∧ (pushTrigger s.triggerEventQueue (.call u f)).1 = false then [f] else []
    | _ => []
  | .loop .runFront =>
    match s.loop with
    | .run (.call u f :: _) => if u = t then [f] else []
    | _ => []
  | _ => []

/-- The calls in the queue are the ones of the callers that wait for a result. -/
def CallsMatch (s : SchedulerConf ι ε) : Prop :=
  ∀ t, s.calls t = outstanding (s.isSet t) (s.callers t)

lemma callsMatch_init : (init : SchedulerConf ι ε).CallsMatch := fun _ => rfl

/-- A caller moves, and waits for the same result. -/
lemma CallsMatch.setPc {s₁ : SchedulerConf ι ε} (h : s.CallsMatch)
    (hcalls : ∀ u, s₁.calls u = s.calls u) (hcallers : s₁.callers = s.callers)
    (hisSet : s₁.isSet = s.isSet) {pc : CallerPc ε}
    (hpc : outstanding (s.isSet t) pc = outstanding (s.isSet t) (s.callers t)) :
    (s₁.setPc t pc).CallsMatch := by
  intro u
  have hsame : (s₁.setPc t pc).calls u = s.calls u := hcalls u
  rw [hsame, h u]
  show _ = outstanding (s₁.isSet u) _
  by_cases hut : u = t
  · subst hut
    rw [setPc_callers_self, hisSet, hpc]
  · rw [setPc_callers_ne _ hut, hisSet, hcallers]

omit [DecidableEq ι] in
lemma unrun_congr (hcallers : s'.callers t = s.callers t) (hisSet : s'.isSet t = s.isSet t) :
    s'.unrun t = s.unrun t := by
  rw [unrun, unrun, hcallers, hisSet]

/-- A step of a thread does nothing to the calls of another thread. -/
lemma callerStep_ne {a : CallerAction ε} (h : s.callerStep u a = some s') (hut : t ≠ u) :
    s'.callers t = s.callers t ∧ s'.isSet t = s.isSet t ∧ began t s (.caller u a) = [] ∧
      ran t s (.caller u a) = [] := by
  have hne : ¬ u = t := fun h => hut h.symm
  have hsame : ∀ (s₁ : SchedulerConf ι ε) (pc : CallerPc ε), s₁.callers = s.callers →
      (s₁.setPc u pc).callers t = s.callers t := by
    intro s₁ pc hcallers
    rw [setPc_callers_ne _ hut, hcallers]
  cases a with
  | invoke f =>
    rw [callerStep] at h
    split at h
    case h_2 => exact absurd h (by simp)
    case h_1 =>
      obtain rfl := Option.some.inj h
      exact ⟨hsame s _ rfl, rfl, by simp [began, hne], rfl⟩
  | loadThreadId =>
    rw [callerStep] at h
    split at h
    case h_2 => exact absurd h (by simp)
    case h_1 f hpc =>
      obtain rfl := Option.some.inj h
      exact ⟨hsame s _ rfl, rfl, rfl, by simp [ran, hpc, hne]⟩
  | push =>
    rw [callerStep] at h
    split at h
    case h_2 => exact absurd h (by simp)
    case h_1 f hpc =>
      obtain rfl := Option.some.inj h
      refine ⟨?_, ?_, rfl, by simp [ran, hpc, hne]⟩
      · split_ifs
        · exact hsame _ _ rfl
        · exact hsame s _ rfl
      · split_ifs
        · exact Function.update_of_ne hut _ _
        · rfl
  | addTriggerEvent f =>
    rw [callerStep] at h
    split at h
    case h_2 => exact absurd h (by simp)
    case h_1 =>
      obtain rfl := Option.some.inj h
      refine ⟨?_, ?_, rfl, rfl⟩
      · split_ifs
        · exact hsame _ _ rfl
        · rfl
      · split_ifs <;> rfl
  | wakeup =>
    rw [callerStep] at h
    split at h
    case h_5 => exact absurd h (by simp)
    case h_4 =>
      obtain rfl := Option.some.inj h
      exact ⟨rfl, rfl, rfl, rfl⟩
    all_goals
      obtain rfl := Option.some.inj h
      exact ⟨hsame _ _ rfl, rfl, rfl, rfl⟩
  | result =>
    rw [callerStep] at h
    split at h
    case h_2 => exact absurd h (by simp)
    case h_1 =>
      split_ifs at h
      obtain rfl := Option.some.inj h
      exact ⟨hsame s _ rfl, rfl, rfl, rfl⟩
  | stopThread =>
    rw [callerStep] at h
    split at h
    case h_2 => exact absurd h (by simp)
    case h_1 =>
      obtain rfl := Option.some.inj h
      exact ⟨hsame _ _ rfl, rfl, rfl, rfl⟩

/-- The calls after a push of an event. -/
lemma calls_push (isSet : ι → Bool) (e : SchedulerEvent ι ε) (t : ι)
    (hpush : (pushTrigger s.triggerEventQueue e).1 = true) :
    ({ s with triggerEventQueue := (pushTrigger s.triggerEventQueue e).2, isSet := isSet } :
      SchedulerConf ι ε).calls t = s.calls t ++ (e.callOf t).toList := by
  have hqueue : (pushTrigger s.triggerEventQueue e).2 = s.triggerEventQueue ++ [e] := by
    rw [pushTrigger] at hpush ⊢
    split_ifs at hpush ⊢
    rfl
  simp only [calls, hqueue, ← List.append_assoc, List.filterMap_append]
  cases he : e.callOf t <;> simp [he]

/-- A step of a thread: its calls go from the beginning into the queue, or are run by itself. -/
lemma CallsMatch.callerStep (hs : s.CallsMatch) {a : CallerAction ε}
    (h : s.callerStep t a = some s') :
    s'.CallsMatch ∧ s.unrun t ++ began t s (.caller t a) = ran t s (.caller t a) ++ s'.unrun t := by
  cases a with
  | invoke f =>
    rw [SchedulerConf.callerStep] at h
    split at h
    case h_2 => exact absurd h (by simp)
    case h_1 hpc =>
      obtain rfl := Option.some.inj h
      refine ⟨hs.setPc (fun _ => rfl) rfl rfl (by rw [hpc]; split_ifs <;> rfl), ?_⟩
      have hran : ran t s (.caller t (.invoke f)) = [] := rfl
      rw [unrun, unrun, hpc, setPc_callers_self, hran]
      split_ifs <;> simp [began, outstanding]
  | loadThreadId =>
    rw [SchedulerConf.callerStep] at h
    split at h
    case h_2 => exact absurd h (by simp)
    case h_1 f hpc =>
      obtain rfl := Option.some.inj h
      refine ⟨hs.setPc (fun _ => rfl) rfl rfl (by rw [hpc]; split_ifs <;> rfl), ?_⟩
      have hbegan : began t s (.caller t .loadThreadId) = [] := rfl
      rw [unrun, unrun, hpc, setPc_callers_self, hbegan]
      by_cases hid : s.threadId = true <;> simp [ran, hpc, hid, outstanding]
  | push =>
    rw [SchedulerConf.callerStep] at h
    split at h
    case h_2 => exact absurd h (by simp)
    case h_1 f hpc =>
      obtain rfl := Option.some.inj h
      by_cases hpush : (pushTrigger s.triggerEventQueue (.call t f)).1 = true
      · rw [if_pos hpush]
        refine ⟨fun u => ?_,
          by simp [unrun, hpc, began, ran, hpush, outstanding, SchedulerConf.setPc]⟩
        refine (calls_push (Function.update s.isSet t false) (.call t f) u hpush).trans ?_
        by_cases hut : u = t
        · subst hut
          rw [hs u, hpc, setPc_callers_self]
          simp [outstanding, SchedulerConf.setPc]
        · rw [callOf_call_ne (fun h => hut h.symm), setPc_callers_ne _ hut, hs u]
          simp [SchedulerConf.setPc, Function.update_of_ne hut]
      · rw [if_neg hpush]
        refine ⟨hs.setPc (fun _ => rfl) rfl rfl (by rw [hpc]; rfl), ?_⟩
        simp [unrun, hpc, began, ran, hpush, outstanding]
  | addTriggerEvent f =>
    rw [SchedulerConf.callerStep] at h
    split at h
    case h_2 => exact absurd h (by simp)
    case h_1 hpc =>
      obtain rfl := Option.some.inj h
      by_cases hpush : (pushTrigger s.triggerEventQueue (.post t f)).1 = true
      · rw [if_pos hpush]
        have hcalls : ∀ u, ({ s with
            triggerEventQueue := (pushTrigger s.triggerEventQueue (.post t f)).2 } :
              SchedulerConf ι ε).calls u = s.calls u := fun u =>
          (calls_push s.isSet (.post t f) u hpush).trans (by simp)
        refine ⟨hs.setPc hcalls rfl rfl (by rw [hpc]; rfl), ?_⟩
        simp [unrun, hpc, began, ran, outstanding]
      · rw [if_neg hpush]
        exact ⟨hs, by simp [began, ran]⟩
  | wakeup =>
    rw [SchedulerConf.callerStep] at h
    split at h
    case h_5 => exact absurd h (by simp)
    case h_4 =>
      obtain rfl := Option.some.inj h
      exact ⟨hs, by simp [began, ran, unrun]⟩
    all_goals
      rename_i hpc
      obtain rfl := Option.some.inj h
      refine ⟨hs.setPc (fun _ => rfl) rfl rfl (by rw [hpc]; rfl), ?_⟩
      have hbegan : began t s (.caller t .wakeup) = [] := rfl
      have hran : ran t s (.caller t .wakeup) = [] := rfl
      rw [hbegan, hran, List.append_nil, List.nil_append, unrun, unrun, hpc, setPc_callers_self]
      rfl
  | result =>
    rw [SchedulerConf.callerStep] at h
    split at h
    case h_2 => exact absurd h (by simp)
    case h_1 f hpc =>
      split_ifs at h with hset
      obtain rfl := Option.some.inj h
      refine ⟨hs.setPc (fun _ => rfl) rfl rfl (by rw [hpc]; simp [outstanding, hset]), ?_⟩
      simp [unrun, hpc, began, ran, outstanding, hset]
  | stopThread =>
    rw [SchedulerConf.callerStep] at h
    split at h
    case h_2 => exact absurd h (by simp)
    case h_1 hpc =>
      obtain rfl := Option.some.inj h
      refine ⟨hs.setPc (fun _ => rfl) rfl rfl (by rw [hpc]; rfl), ?_⟩
      simp [unrun, hpc, began, ran, outstanding]

omit [DecidableEq ι] in
/-- A call in the queue belongs to a caller that waits for it alone. -/
lemma outstanding_eq_cons {isSet : Bool} {pc : CallerPc ε} {l : List ε}
    (h : outstanding isSet pc = f :: l) :
    isSet = false ∧ l = [] ∧ (pc = .accepted (some f) ∨ pc = .waiting f) := by
  rw [outstanding.eq_def] at h
  split at h
  case h_3 => exact absurd h (by simp)
  case h_4 => exact absurd h (by simp)
  case h_5 => exact absurd h (by simp)
  case h_6 => exact absurd h (by simp)
  case h_7 => exact absurd h (by simp)
  all_goals
    split_ifs at h with hset
    obtain ⟨rfl, rfl⟩ := List.cons.inj h
    simp [hset]

/-- The loop thread runs a call. -/
lemma CallsMatch.runCall (hs : s.CallsMatch) {rest : List (SchedulerEvent ι ε)}
    (hloop : s.loop = .run (.call u f :: rest)) (t : ι) :
    ({ s with loop := .run rest, isSet := Function.update s.isSet u true } :
      SchedulerConf ι ε).CallsMatch ∧
    s.unrun t = ran t s (.loop .runFront) ++
      ({ s with loop := .run rest, isSet := Function.update s.isSet u true } :
        SchedulerConf ι ε).unrun t := by
  have hcalls : ∀ v, s.calls v = ((call u f).callOf v).toList ++
      (rest ++ s.triggerEventQueue).filterMap (callOf v) := by
    intro v
    rw [calls, hloop, ExecPc.execQueue, List.cons_append]
    cases he : (call u f).callOf v <;> simp [he]
  have hcaller := (hs u).symm.trans (hcalls u)
  rw [callOf_call_self, Option.toList_some, List.singleton_append] at hcaller
  obtain ⟨hisSet, hnil, hpc⟩ := outstanding_eq_cons hcaller
  refine ⟨fun v => ?_, ?_⟩
  · show (rest ++ s.triggerEventQueue).filterMap (callOf v) =
      outstanding (Function.update s.isSet u true v) (s.callers v)
    by_cases hvu : v = u
    · subst hvu
      rw [hnil, Function.update_self]
      rcases hpc with hpc | hpc <;> rw [hpc] <;> rfl
    · rw [Function.update_of_ne hvu, ← hs v, hcalls, callOf_call_ne (fun h => hvu h.symm)]
      rfl
  · rw [ran, hloop]
    dsimp only
    by_cases hut : u = t
    · subst hut
      rw [if_pos rfl, unrun, unrun]
      dsimp only
      rcases hpc with hpc | hpc <;> simp [hpc, hisSet, outstanding]
    · rw [if_neg hut, List.nil_append]
      have hset : Function.update s.isSet u true t = s.isSet t :=
        Function.update_of_ne (fun h => hut h.symm) _ _
      simp only [unrun, hset]

/-- Every step: a call goes from its beginning into the queue, and from there to its run. -/
lemma CallsMatch.step (hs : s.CallsMatch) {a : SchedulerAction ι ε} (h : s.step a = some s')
    (t : ι) :
    s'.CallsMatch ∧ s.unrun t ++ began t s a = ran t s a ++ s'.unrun t := by
  cases a with
  | caller u a =>
    obtain ⟨hs', hunrun⟩ := hs.callerStep h
    refine ⟨hs', ?_⟩
    by_cases htu : t = u
    · rw [htu]
      exact hunrun
    · obtain ⟨hcallers, hisSet, hbegan, hran⟩ := callerStep_ne h htu
      rw [hbegan, hran, unrun_congr hcallers hisSet, List.append_nil, List.nil_append]
  | start =>
    rw [SchedulerConf.step.eq_def] at h
    dsimp only at h
    split at h
    case h_2 => exact absurd h (by simp)
    case h_1 hloop =>
      obtain rfl := Option.some.inj h
      refine ⟨fun u => ?_, by simp [began, ran, unrun]⟩
      have hu := hs u
      rw [calls, hloop] at hu
      exact hu
  | loop a =>
    have hbegan : began t s (.loop a) = [] := rfl
    rcases loopStep_cases h with ⟨rfl, rfl⟩ | ⟨u, f, rest, rfl, -, hloop, rfl⟩ | ⟨hkeeps, hne⟩
    · exact ⟨hs, by simp [began, ran, unrun]⟩
    · obtain ⟨hs', hunrun⟩ := hs.runCall hloop t
      exact ⟨hs', by rw [hbegan, List.append_nil]; exact hunrun⟩
    · refine ⟨fun u => ?_, ?_⟩
      · rw [hkeeps.calls, hkeeps.isSet, hkeeps.callers]
        exact hs u
      · have hran : ran t s (.loop a) = [] := by
          cases a <;> try rfl
          rw [ran]
          split
          case h_1 u f rest hloop => exact absurd hloop (hne u f rest rfl)
          case h_2 => rfl
        rw [hbegan, hran, unrun_congr (by rw [hkeeps.callers]) (by rw [hkeeps.isSet]),
          List.append_nil, List.nil_append]

/-- **Every call is run once before it returns.** In every interleaving, the functions that a
thread has passed to `invoke` are, in order, the ones that were run, once each, and the one that is
not run yet; and there is none of these when the thread is not in `invoke`. -/
theorem invoke_runs_once (actions : List (SchedulerAction ι ε)) (s : SchedulerConf ι ε)
    (hrun : Lib.run step init actions = some s) (t : ι) :
    Lib.outputs step (began t) init actions =
        Lib.outputs step (ran t) init actions ++ s.unrun t ∧
      (s.callers t = .idle → s.unrun t = []) := by
  refine ⟨?_, fun hidle => by rw [unrun, hidle]; rfl⟩
  exact Lib.outputs_queue_of_inv (I := CallsMatch) (q := fun s => s.unrun t)
    (fun s a s' hs h => hs.step h t) callsMatch_init hrun

/-- A call of a scheduler that is not execing, which the thread runs itself, and one that the loop
thread runs. -/
def twoCalls : List (SchedulerAction ℕ ℕ) :=
  [.caller 0 (.invoke 6), .caller 0 .loadThreadId] ++ callWhileAsleep ++
    [.caller 0 .wakeup, .loop .ready, .loop .bytesReady, .loop .pushRecv, .loop .wakeup,
      .loop .channelsEnd, .loop .test, .loop .handle, .loop .runFront, .caller 0 .result]

theorem invoke_runs_once_twice : ∃ s, Lib.run step init twoCalls = some s ∧
    s.callers 0 = .idle ∧ Lib.outputs step (ran 0) init twoCalls = [6, 7] := by
  have hend : (Lib.run step init twoCalls).map (fun s => s.callers 0) = some .idle := by
    decide +kernel
  obtain ⟨s, hrun, hidle⟩ := Option.map_eq_some_iff.mp hend
  obtain ⟨hcalls, hunrun⟩ := invoke_runs_once twoCalls s hrun 0
  have hbegan : Lib.outputs step (began 0) init twoCalls = [6, 7] := by decide +kernel
  rw [hunrun hidle, List.append_nil, hbegan] at hcalls
  exact ⟨s, hrun, hidle, hcalls.symm⟩

/-! ## Every call comes back -/

/-- The next step of the loop thread when its callbacks submit nothing and no other channel is
ready: it goes on behind `epoll_wait` only when there is a byte in the pipe or the timeout is 0. -/
def nextAction (s : SchedulerConf ι ε) : Option (ExecAction ε) :=
  if s.owes then some .wakeup
  else
    match s.loop with
    | .stopped => none
    | .created | .leaving => some .setThreadId
    | .test => some .test
    | .handle => some .handle
    | .run (_ :: _) => some .runFront
    | .run [] => some .runEnd
    | .recv _ | .recvDirect => some .read
    | .objects => some .objects
    | .timeout => some (.getNextTimeOut (-1))
    | .poll timeout =>
      if s.pipe > 0 then some .ready else if timeout = 0 then some .elapsed else none
    | .channels true => some .bytesReady
    | .channels false => some .channelsEnd
    | .emit => some .pushRecv
    | .finished => some .leave

/-- The state after `n` steps of the loop thread alone. -/
def alone : ℕ → SchedulerConf ι ε → Option (SchedulerConf ι ε)
  | 0, s => some s
  | n + 1, s => s.nextAction.bind fun a => (s.loopStep a).bind (alone n)

/-- The loop thread alone sets the result of the thread in at most `k` steps. -/
def Returns (t : ι) (k : ℕ) (s : SchedulerConf ι ε) : Prop :=
  ∃ n ≤ k, ∃ s', alone n s = some s' ∧ s'.isSet t = true

/-- The next step. -/
def Next (s s' : SchedulerConf ι ε) : Prop :=
  ∃ a, s.nextAction = some a ∧ s.loopStep a = some s'

lemma Returns.next {k k' : ℕ} (h : Returns t k s') (hnext : Next s s') (hk : k < k') :
    Returns t k' s := by
  obtain ⟨n, hn, s₁, halone, hset⟩ := h
  obtain ⟨a, ha, hs'⟩ := hnext
  exact ⟨n + 1, by omega, s₁, by rw [alone, ha, Option.bind_some, hs', Option.bind_some, halone],
    hset⟩

/-- The loop thread has written the byte that it owed. -/
def wrote (s : SchedulerConf ι ε) : SchedulerConf ι ε :=
  { s with pipe := writePipe s.pipe, owes := false }

/-- The steps from a position to the next `handleTriggerQueue`, at most. -/
def pcSteps : ExecPc ι ε → ℕ
  | .stopped | .leaving | .finished => 0
  | .handle => 1
  | .test => 2
  | .channels false => 3
  | .recvDirect => 4
  | .created => 6
  | .emit => 11
  | .channels true => 12
  | .poll _ => 13
  | .timeout => 14
  | .objects => 15
  | .run execQueue => 16 + 2 * execQueue.length
  | .recv execQueue => 17 + 2 * execQueue.length

/-- The steps until everything in the queue is run, at most: every event may empty the pipe. -/
def queueSteps (s : SchedulerConf ι ε) : ℕ :=
  4 * s.triggerEventQueue.length + 2 * s.pipe + pcSteps s.loop + if s.owes then 3 else 0

/-- The caller waits for a call that is in the queue, and the loop is awake. -/
structure Queued (t : ι) (s : SchedulerConf ι ε) : Prop where
  queued : s.triggerEventQueue.filterMap (callOf t) ≠ []
  waiting : ∃ f, s.callers t = .waiting f
  awake : s.Awake
  isExecing : s.isExecing = true
  inLoop : s.loop.InLoop

/-- A step of the loop thread that comes nearer to the next `handleTriggerQueue` and leaves the
calls in the queue. -/
structure Advances (s s' : SchedulerConf ι ε) : Prop where
  next : Next s s'
  queue : s.triggerEventQueue <+: s'.triggerEventQueue
  callers : s'.callers = s.callers
  isExecing : s'.isExecing = s.isExecing
  inLoop : s'.loop.InLoop
  less : s'.queueSteps < s.queueSteps

lemma Queued.advance (h : Queued t s) (hs' : Advances s s') : Queued t s' := by
  obtain ⟨a, -, hstep⟩ := hs'.next
  refine ⟨?_, ?_, h.awake.step (a := .loop a) hstep, hs'.isExecing.trans h.isExecing, hs'.inLoop⟩
  · obtain ⟨later, hlater⟩ := hs'.queue
    rw [← hlater, List.filterMap_append]
    exact fun hnil => h.queued (List.append_eq_nil_iff.mp hnil).1
  · rw [hs'.callers]
    exact h.waiting

section

variable (howes : s.owes = false)

include howes

end

/-- A scheduler that was started and not stopped has a loop that goes on. -/
def Alive (s : SchedulerConf ι ε) : Prop := s.isExecing = true → s.loop.InLoop

lemma Alive.callerStep (hs : s.Alive) {a : CallerAction ε} (h : s.callerStep t a = some s') :
    s'.Alive := by
  have hkeep : ∀ s₁ : SchedulerConf ι ε, s₁.loop = s.loop → s₁.isExecing = s.isExecing →
      s₁.Alive := by
    intro s₁ hloop hexecing hexec
    rw [hloop]
    exact hs (hexecing ▸ hexec)
  cases a with
  | stopThread =>
    rw [SchedulerConf.callerStep] at h
    split at h
    case h_2 => exact absurd h (by simp)
    case h_1 =>
      obtain rfl := Option.some.inj h
      exact fun hexec => absurd hexec (by simp [setPc])
  | wakeup =>
    rw [SchedulerConf.callerStep] at h
    split at h
    case h_5 => exact absurd h (by simp)
    all_goals
      obtain rfl := Option.some.inj h
      exact hkeep _ rfl rfl
  | _ =>
    rw [SchedulerConf.callerStep] at h
    split at h
    case h_2 => exact absurd h (by simp)
    case h_1 =>
      try split_ifs at h
      all_goals
        obtain rfl := Option.some.inj h
        try split_ifs
        all_goals exact hkeep _ rfl rfl

lemma Alive.loopStep (hs : s.Alive) {a : ExecAction ε} (h : s.loopStep a = some s') :
    s'.Alive := by
  have hkeep : ∀ s₁ : SchedulerConf ι ε, s₁.loop = s.loop → s₁.isExecing = s.isExecing →
      s₁.Alive := by
    intro s₁ hloop hexecing hexec
    rw [hloop]
    exact hs (hexecing ▸ hexec)
  have hmove : ∀ s₁ : SchedulerConf ι ε, s₁.loop.InLoop → s₁.Alive := fun s₁ h _ => h
  rw [loopStep.eq_def] at h
  split_ifs at h with howes
  · split at h
    case h_2 => exact absurd h (by simp)
    case h_1 =>
      obtain rfl := Option.some.inj h
      exact hkeep _ rfl rfl
  · cases a with
    | setThreadId =>
      rw [execStep] at h
      split at h
      case h_3 => exact absurd h (by simp)
      case h_1 =>
        obtain rfl := Option.some.inj h
        exact hmove _ (by simp [ExecPc.InLoop])
      case h_2 hloop =>
        -- the loop was left because `isExecing` was reset
        obtain rfl := Option.some.inj h
        exact fun hexec => absurd hloop (hs hexec).2.1
    | leave =>
      rw [execStep] at h
      split at h
      case h_2 => exact absurd h (by simp)
      case h_1 =>
        obtain rfl := Option.some.inj h
        exact fun hexec => absurd hexec (by simp)
    | stopThread =>
      rw [execStep] at h
      split_ifs at h
      obtain rfl := Option.some.inj h
      exact fun hexec => absurd hexec (by simp)
    | test =>
      rw [execStep] at h
      split at h
      case h_2 => exact absurd h (by simp)
      case h_1 =>
        obtain rfl := Option.some.inj h
        split_ifs with hexecing
        · exact hmove _ (by simp [ExecPc.InLoop])
        · exact fun hexec => absurd hexec hexecing
    | runFront =>
      rw [execStep] at h
      split at h
      case h_2 => exact absurd h (by simp)
      case h_1 e rest hloop =>
        obtain rfl := Option.some.inj h
        cases e <;> exact hmove _ (by simp [runFront, ExecPc.InLoop])
    | read =>
      rw [execStep] at h
      split at h
      case h_3 => exact absurd h (by simp)
      all_goals
        obtain rfl := Option.some.inj h
        split_ifs
        · exact hkeep _ rfl rfl
        · exact hmove _ (by simp [ExecPc.InLoop])
    | post f =>
      rw [execStep] at h
      split_ifs at h
      obtain rfl := Option.some.inj h
      split_ifs
      · exact hkeep _ rfl rfl
      · exact hs
    | wakeup =>
      rw [execStep] at h
      split_ifs at h
      obtain rfl := Option.some.inj h
      exact hkeep _ rfl rfl
    | _ =>
      rw [execStep] at h
      split at h
      case h_2 => exact absurd h (by simp)
      case h_1 =>
        try split_ifs at h
        all_goals
          obtain rfl := Option.some.inj h
          try split_ifs
          all_goals exact hmove _ (by simp [ExecPc.InLoop])

lemma Alive.step (hs : s.Alive) {a : SchedulerAction ι ε} (h : s.step a = some s') :
    s'.Alive := by
  cases a with
  | caller t a => exact hs.callerStep h
  | loop a => exact hs.loopStep h
  | start =>
    rw [SchedulerConf.step.eq_def] at h
    dsimp only at h
    split at h
    case h_2 => exact absurd h (by simp)
    case h_1 =>
      obtain rfl := Option.some.inj h
      exact fun _ => by simp [ExecPc.InLoop]

/-- A call behind `stopThread` of another thread is queued, and the loop thread ends without it. -/
def callWhileStopping : List (SchedulerAction ℕ ℕ) :=
  [.start, .loop .setThreadId, .loop .wakeup, .loop .test, .loop .handle, .loop .runEnd,
    .loop .objects, .loop (.getNextTimeOut (-1)), .caller 1 .stopThread, .caller 1 .wakeup,
    .caller 0 (.invoke 7), .caller 0 .loadThreadId, .caller 0 .push, .caller 0 .wakeup,
    .loop .ready, .loop .bytesReady, .loop .pushRecv, .loop .wakeup, .loop .channelsEnd,
    .loop .test, .loop .wakeup, .loop .setThreadId, .loop .leave]

example : (Lib.run step init callWhileStopping).map
    (fun s => (s.loop, s.triggerEventQueue, s.callers 0, s.isSet 0)) =
      some (.stopped, [.call 0 7, .onWakeupChannelRecv], .waiting 7, false) := by
  decide +kernel

end SchedulerConf

end SignalEventLoop.Core

/-
# The end of active connections

Every active connection should be finished once: one `notifyActiveConnection`, and at most one
`close` of the descriptor, which is not closed at all when it was handed to the user.

The slots of `notifyActiveConnection` run in the middle of the functions that emit it, and may
call `cancelActiveConnecttion` and `stopAll`.  The state has a stack with what is left to do
after the slots, and the timers that wait in the batch of `handleTimerEvent`.  The timeout
notifies before it releases the task, `cancelActiveConnecttion` before it erases it, `stopAll`
erases nothing before its end, and a timer that is released still fires when it waits in the
batch.  So a call from a slot must not reach a task that is being finished further down, or
one that waits (`SafeCall`).  That this is enough is shown in `Network/ActiveOnce.lean`.
-/
import SignalEventLoop.Network.ActiveConnect

namespace SignalEventLoop.Network

open ITcpServer (Completion)

/-- What a server does to the outside, and the use of an iterator to an erased element. -/
inductive ActiveEffect where
  /-- `notifyActiveConnection`, with the descriptor or with -1. -/
  | notify (task : ConnectionTask) (success : Bool)
  /-- `close_socket` of the descriptor of the task. -/
  | close (task : ConnectionTask)
  | invalidIterator
deriving DecidableEq

/-- What is left to do after the slots have returned. -/
inductive ActiveFrame where
  | finished
  /-- The timeout: `release_task`, and the descriptor is closed. -/
  | timeout (task : ConnectionTask)
  /-- `cancelActiveConnecttion`: the two entries are erased. -/
  | cancel (token : ℕ) (task : ConnectionTask)
  /-- `stopAll`: the tasks that were visited, and the descriptors that are left. -/
  | stop (visited : List ConnectionTask) (rest : List ℕ)
deriving DecidableEq

structure ActiveState where
  server : ITcpServer
  stack : List ActiveFrame
  /-- `timeoutQueue` of `handleTimerEvent`. -/
  batch : List ConnectionTask
  log : List ActiveEffect

inductive ActiveAction where
  | activeConnect (request : ConnectRequest)
  | cancelActiveConnecttion (token : ℕ)
  /-- `stopAll`, with the order in which it meets the entries of `connections_map`. -/
  | stopAll (order : List ℕ)
  /-- An event of the channel of this descriptor. -/
  | channelEvent (event : Completion) (fd : ℕ)
  /-- `handleTimerEvent` takes the expired timers out of the map. -/
  | timerEvent (tasks : List ConnectionTask)
  /-- The next timer of the batch. -/
  | fire
  /-- The slots of the last `notifyActiveConnection` return. -/
  | slotsReturn

namespace ActiveState

def init : ActiveState := ⟨ITcpServer.init, [], [], []⟩

variable (s : ActiveState)

/-- The task is in `connections_map`. -/
def At (task : ConnectionTask) : Prop := s.server.connectionsMap[task.fd]? = some task

instance decidableAt (task : ConnectionTask) : Decidable (s.At task) :=
  inferInstanceAs (Decidable (_ = _))

/-- The loop of `stopAll` from here on; an entry that was erased is not met any more. -/
def stopNext (visited : List ConnectionTask) : List ℕ → ActiveState
  | [] => { s with server := { s.server with connectionsMap := ∅ } }
  | fd :: rest =>
    match s.server.connectionsMap[fd]? with
    | none => stopNext visited rest
    | some task =>
      { s with
        server := { s.server with tokenDirectory := s.server.tokenDirectory.erase task.token }
        stack := .stop (visited ++ [task]) rest :: s.stack
        log := s.log ++ [.close task, .notify task false] }

/-- `cancelActiveConnecttion` up to its `notifyActiveConnection`. -/
def cancelActiveConnecttion (token : ℕ) : ActiveState :=
  match s.server.tokenDirectory[token]? with
  | none => s
  | some fd =>
    match s.server.connectionsMap[fd]? with
    | none =>
      { s with
        server := { s.server with tokenDirectory := s.server.tokenDirectory.erase token } }
    | some task =>
      { s with
        stack := .cancel token task :: s.stack
        log := s.log ++ [.close task, .notify task false] }

/-- The events of a channel: the task is released first. -/
def channelEvent (task : ConnectionTask) : Completion → Option ActiveState
  | .writeReady =>
    some { s with
      server := s.server.releaseTask task
      stack := .finished :: s.stack
      log := s.log ++ [.notify task true] }
  | .errorEvent | .closeEvent =>
    some { s with
      server := s.server.releaseTask task
      stack := .finished :: s.stack
      log := s.log ++ [.close task, .notify task false] }
  | .timeout => none

/-- An iterator is used that should point to this task. -/
def useIterator (valid : Bool) : List ActiveEffect := if valid then [] else [.invalidIterator]

/-- The rest of the function at the top of the stack. -/
def slotsReturn : Option ActiveState :=
  match s.stack with
  | [] => none
  | .finished :: stack => some { s with stack := stack }
  | .timeout task :: stack =>
    some { s with
      server := s.server.releaseTask task
      stack := stack
      log := s.log ++ [.close task] }
  | .cancel token task :: stack =>
    some { s with
      server := { s.server with
        connectionsMap := s.server.connectionsMap.erase task.fd
        tokenDirectory := s.server.tokenDirectory.erase token }
      stack := stack
      log := s.log ++
        useIterator (decide (s.At task ∧ s.server.tokenDirectory[token]? = some task.fd)) }
  | .stop visited rest :: stack =>
    some (stopNext { s with
      stack := stack
      log := s.log ++ useIterator (visited.getLast?.all fun task => decide (s.At task)) }
      visited rest)

/-- The state after an action.  Events are handled when no slot runs, and the batch of timers
is worked off without a break; calls come from slots or from outside. -/
def step (s : ActiveState) : ActiveAction → Option ActiveState
  | .activeConnect request =>
    if s.stack = [] ∧ s.batch = [] then
      (s.server.step (.activeConnect request)).map fun server => { s with server := server }
    else none
  | .cancelActiveConnecttion token =>
    if s.stack ≠ [] ∨ s.batch = [] then some (s.cancelActiveConnecttion token) else none
  | .stopAll order =>
    if (s.stack ≠ [] ∨ s.batch = []) ∧ order.Perm s.server.connectionsMap.keys then
      some (s.stopNext [] order)
    else none
  | .channelEvent event fd =>
    if s.stack = [] ∧ s.batch = [] then
      s.server.connectionsMap[fd]?.bind fun task => s.channelEvent task event
    else none
  | .timerEvent tasks =>
    if s.stack = [] ∧ s.batch = [] ∧ tasks.Nodup ∧ ∀ task ∈ tasks, s.At task then
      some { s with batch := tasks }
    else none
  | .fire =>
    match s.stack, s.batch with
    | [], task :: batch =>
      some { s with
        stack := [.timeout task]
        batch := batch
        log := s.log ++ [.notify task false] }
    | _, _ => none
  | .slotsReturn => s.slotsReturn

end ActiveState

/-! ## The property and the condition -/

/-- The number of notifications of a task. -/
def notifyCount (log : List ActiveEffect) (task : ConnectionTask) : ℕ :=
  log.count (.notify task true) + log.count (.notify task false)

/-- Every connection is notified once and closed once, at most, and not closed at all when its
descriptor was handed to the user. -/
structure FinishedOnce (log : List ActiveEffect) : Prop where
  notified : ∀ task, notifyCount log task ≤ 1
  closed : ∀ task, log.count (.close task) ≤ 1
  handed : ∀ task, .notify task true ∈ log → .close task ∉ log
  valid : .invalidIterator ∉ log

namespace ActiveFrame

/-- The tasks that the frame is finishing. -/
def tasks : ActiveFrame → List ConnectionTask
  | .finished => []
  | .timeout task => [task]
  | .cancel _ task => [task]
  | .stop visited _ => visited

end ActiveFrame

namespace ActiveState

/-- The tasks that are being finished. -/
def held (s : ActiveState) : List ConnectionTask := s.stack.flatMap ActiveFrame.tasks

/-- The condition on a call: it reaches no task that is being finished, and none that waits
in the batch. -/
def SafeCall (s : ActiveState) : ActiveAction → Prop
  | .cancelActiveConnecttion token =>
    ∀ fd ∈ s.server.tokenDirectory[token]?, ∀ task ∈ s.server.connectionsMap[fd]?,
      task ∉ s.held ∧ task ∉ s.batch
  | .stopAll _ =>
    ∀ e ∈ s.server.connectionsMap.toList, e.2 ∉ s.held ∧ e.2 ∉ s.batch
  | _ => True

instance decidableSafeCall (s : ActiveState) : (a : ActiveAction) → Decidable (s.SafeCall a)
  | .cancelActiveConnecttion token => inferInstanceAs (Decidable
      (∀ fd ∈ s.server.tokenDirectory[token]?, ∀ task ∈ s.server.connectionsMap[fd]?,
        task ∉ s.held ∧ task ∉ s.batch))
  | .stopAll _ => inferInstanceAs (Decidable
      (∀ e ∈ s.server.connectionsMap.toList, e.2 ∉ s.held ∧ e.2 ∉ s.batch))
  | .activeConnect _ | .channelEvent _ _ | .timerEvent _ | .fire | .slotsReturn => isTrue trivial

end ActiveState

end SignalEventLoop.Network

/-
# Channels and the registries of the two schedulers

A channel watches one descriptor, and tells its scheduler by `sync` for which events.  A
scheduler keeps a weak pointer to the channel of each descriptor in `channelsMap`; beside it
the epoll scheduler keeps the interest set of its epoll descriptor in the kernel, and the
select scheduler keeps three descriptor sets.

Channels are the elements of a type `κ`.  The interest set of the current epoll descriptor is
`none` when that descriptor is not valid; `epoll_ctl` then fails, as it does for `ADD` of a
descriptor that is in the set, and for `MOD` and `DEL` of one that is not.  A call that fails
is only logged.
-/
import SignalEventLoop.Lib.Run

namespace SignalEventLoop.Core

/-! ## Channels -/

/-- The events that a channel asks for: `EVENT_IN` and `EVENT_OUT`. -/
structure Interest where
  reading : Bool
  writing : Bool
deriving DecidableEq

namespace Interest

/-- `EVENT_NONE` -/
def noneEvent : Interest := ⟨false, false⟩

/-- `IoChannel::isNoneEvent` -/
def isNoneEvent (e : Interest) : Bool := e = noneEvent

end Interest

/-- The bits of a readiness mask that `handleIoEvent` looks at. -/
structure IoEvents where
  bitIn : Bool
  bitPri : Bool
  bitOut : Bool
  bitErr : Bool
  bitHup : Bool
deriving DecidableEq

/-- The signals of a channel. -/
inductive IoSignal where
  | bytesReady
  | writeReady
  | errorEvent
  | closeEvent
deriving DecidableEq

/-- `IoChannel::handleIoEvent`: the signals that are emitted, in order. -/
def handleIoEvent (e : IoEvents) : List IoSignal :=
  (if e.bitIn || e.bitPri then [.bytesReady] else []) ++
    (if e.bitHup then [.closeEvent]
      else if e.bitErr then [.errorEvent]
      else if e.bitOut then [.writeReady]
      else [])

/-! ## The epoll scheduler -/

/-- The operations of `epoll_ctl`. -/
inductive EpollOp where
  | add
  | mod
  | del
deriving DecidableEq

/-- `epoll_ctl` on the interest set of an epoll descriptor; `none` when the call fails. -/
def epollCtl (set : Option (ℕ → Option Interest)) (op : EpollOp) (fd : ℕ) (e : Interest) :
    Option (ℕ → Option Interest) :=
  set.bind fun t =>
    match op, t fd with
    | .add, none => some (Function.update t fd (some e))
    | .mod, some _ => some (Function.update t fd (some e))
    | .del, some _ => some (Function.update t fd none)
    | _, _ => none

/-- The tables of an `EpolltTaskScheduler`. -/
structure EpollRegistry (κ : Type*) where
  channelsMap : ℕ → Option κ
  /-- The interest set of `epollFd`. -/
  interest : Option (ℕ → Option Interest)

namespace EpollRegistry

variable {κ : Type*}

/-- A new scheduler: `epollFd` is not valid yet. -/
def init : EpollRegistry κ := ⟨fun _ => none, none⟩

/-- `EpolltTaskScheduler::update` -/
def update (r : EpollRegistry κ) (op : EpollOp) (fd : ℕ) (e : Interest) : EpollRegistry κ :=
  match epollCtl r.interest op fd e with
  | some t => { r with interest := some t }
  | none => r

/-- `channelsMap.erase` -/
def erase (r : EpollRegistry κ) (fd : ℕ) : EpollRegistry κ :=
  { r with channelsMap := Function.update r.channelsMap fd none }

/-- `EpolltTaskScheduler::updateChannel`, for a channel with the descriptor `fd`. -/
def updateChannel (r : EpollRegistry κ) (channel : κ) (fd : ℕ) (e : Interest) :
    EpollRegistry κ :=
  match r.channelsMap fd with
  | none =>
    if e.isNoneEvent then r
    else
      let r₁ := { r with channelsMap := Function.update r.channelsMap fd (some channel) }
      r₁.update .add fd e
  | some _ =>
    if e.isNoneEvent then (r.update .del fd e).erase fd
    else r.update .mod fd e

/-- `EpolltTaskScheduler::removeChannel` -/
def removeChannel (r : EpollRegistry κ) (fd : ℕ) : EpollRegistry κ :=
  match r.channelsMap fd with
  | none => r
  | some _ => (r.update .del fd .noneEvent).erase fd

/-- `TaskScheduler::checkAndGetChannelByFd`: a weak pointer that has expired is taken out of
the map, and its descriptor is cleared. -/
def checkAndGetChannelByFd (r : EpollRegistry κ) (alive : κ → Bool) (fd : ℕ) :
    Option κ × EpollRegistry κ :=
  match r.channelsMap fd with
  | none => (none, r)
  | some channel =>
    if alive channel then (some channel, r)
    else (none, (r.erase fd).update .del fd .noneEvent)

/-- `EpolltTaskScheduler::preinit`: a fresh epoll descriptor. -/
def preinit (r : EpollRegistry κ) : EpollRegistry κ := { r with interest := some fun _ => none }

/-- `EpolltTaskScheduler::resetStatus`: the epoll descriptor is closed. -/
def resetStatus (r : EpollRegistry κ) : EpollRegistry κ := { r with interest := none }

end EpollRegistry

/-! ## The select scheduler -/

/-- The tables of a `SelectTaskScheduler`. -/
structure SelectRegistry (κ : Type*) where
  channelsMap : ℕ → Option κ
  readSets : Finset ℕ
  writeSets : Finset ℕ
  exceptionSets : Finset ℕ
  allfdSet : Finset ℕ

namespace SelectRegistry

variable {κ : Type*}

/-- A new scheduler. -/
def init : SelectRegistry κ := ⟨fun _ => none, ∅, ∅, ∅, ∅⟩

/-- `SelectTaskScheduler::clearFd` -/
def clearFd (r : SelectRegistry κ) (fd : ℕ) : SelectRegistry κ :=
  { r with readSets := r.readSets.erase fd, writeSets := r.writeSets.erase fd,
           exceptionSets := r.exceptionSets.erase fd }

/-- `clearFd`, `allfdSet.erase` and `channelsMap.erase`. -/
def forget (r : SelectRegistry κ) (fd : ℕ) : SelectRegistry κ :=
  { r.clearFd fd with allfdSet := r.allfdSet.erase fd,
                      channelsMap := Function.update r.channelsMap fd none }

/-- `SelectTaskScheduler::removeChannel` -/
def removeChannel (r : SelectRegistry κ) (fd : ℕ) : SelectRegistry κ :=
  match r.channelsMap fd with
  | none => r
  | some _ => r.forget fd

/-- `SelectTaskScheduler::updateChannel`, for a channel with the descriptor `fd`. -/
def updateChannel (r : SelectRegistry κ) (channel : κ) (fd : ℕ) (e : Interest) :
    SelectRegistry κ :=
  let r₁ := r.removeChannel fd
  if e.isNoneEvent then r₁
  else
    { channelsMap := Function.update r₁.channelsMap fd (some channel)
      readSets := if e.reading then insert fd r₁.readSets else r₁.readSets
      writeSets := if e.writing then insert fd r₁.writeSets else r₁.writeSets
      exceptionSets := insert fd r₁.exceptionSets
      allfdSet := insert fd r₁.allfdSet }

/-- `TaskScheduler::checkAndGetChannelByFd` -/
def checkAndGetChannelByFd (r : SelectRegistry κ) (alive : κ → Bool) (fd : ℕ) :
    Option κ × SelectRegistry κ :=
  match r.channelsMap fd with
  | none => (none, r)
  | some channel =>
    if alive channel then (some channel, r)
    else (none, { r with channelsMap := Function.update r.channelsMap fd none }.clearFd fd)

end SelectRegistry

end SignalEventLoop.Core

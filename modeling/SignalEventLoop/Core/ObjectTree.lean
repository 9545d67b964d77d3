/-
# The loop thread on a tree of objects

`Object::handleEvent` for a whole tree under one scheduler.  An object runs its trigger
queue, then `handleEvent` of the children in its `execSubObjectSet`, then its expired
timers, and at the end it enters itself into the set of its parent again when work is left.
User code runs inside the events and the timeout slots; there, and between two passes of
the root, it may call `addTriggerEvent` and the timer operations of any object.

The recursion of `handleEvent` is a stack of frames.  `std::set<Object *>` is ordered by the
addresses, so the objects carry a linear order.
-/
import SignalEventLoop.Core.TimerPass
import SignalEventLoop.Core.TriggerQueue

namespace SignalEventLoop.Core

/-- The order of the addresses is one for `std::set`. -/
instance transCmp_compare {O : Type*} [LinearOrder O] :
    Std.TransCmp (compare : O → O → Ordering) :=
  inferInstance

/-- A tree of objects.  The depth, which is no part of the objects, shows that the parents
lead to the root; it is bounded in a finite tree. -/
structure ObjectTree (O : Type*) where
  root : O
  parent : O → Option O
  depth : O → ℕ
  height : ℕ
  parent_root : parent root = none
  eq_root : ∀ o, parent o = none → o = root
  depth_parent : ∀ o p, parent o = some p → depth o = depth p + 1
  depth_lt : ∀ o, depth o < height

/-- The part of an `Object` that its loop thread works on. -/
structure ObjectState (O ε : Type*) [LinearOrder O] where
  triggerEventQueue : List ε
  execSubObjectSet : Std.ExtTreeSet O
  isTriggering : Bool
  tables : TimerTables

namespace ObjectState

variable {O ε : Type*} [LinearOrder O]

/-- A new object. -/
def empty : ObjectState O ε := ⟨[], ∅, false, .empty⟩

/-- The test at the end of `handleEvent`. -/
def hasWork (x : ObjectState O ε) : Bool :=
  !x.triggerEventQueue.isEmpty || !x.tables.timerEventsMap.isEmpty || !x.execSubObjectSet.isEmpty

end ObjectState

/-- The position of the loop thread in one activation of `Object::handleEvent`. -/
inductive Phase (O ε : Type*) where
  /-- The events that were swapped out of the trigger queue are run; `running` tells
  whether the first of them has begun. -/
  | trigger (execQueue : List ε) (running : Bool)
  /-- The objects that `handleChildEvent` has still to visit. -/
  | children (execSet : List O)
  | timers (pass : Pass)

/-- An activation of `Object::handleEvent`. -/
structure Frame (O ε : Type*) where
  obj : O
  phase : Phase O ε

/-- A configuration of the loop thread. -/
structure TreeConf (O ε : Type*) [LinearOrder O] where
  clock : ℤ
  objs : O → ObjectState O ε
  /-- The activations of `handleEvent`, innermost first. -/
  stack : List (Frame O ε)

/-- The actions of the loop thread. -/
inductive TreeAction (O ε : Type*) where
  | tick (ms : ℕ)
  | addTriggerEvent (o : O) (event : ε)
  /-- An operation of the timers of `o`. -/
  | timer (o : O) (op : TimerOp)
  /-- The scheduler begins a pass. -/
  | handleEvent
  | runEvent
  | eventReturn
  /-- `execSubObjectSet` is swapped out. -/
  | handleChildEvent
  /-- `handleEvent` of the next child is called. -/
  | childEvent
  /-- The expired timers are taken out. -/
  | handleTimerEvent
  | emitTimeout
  | slotsReturn
  /-- The cyclic timers are queued again, and `handleEvent` returns. -/
  | finish
deriving DecidableEq

namespace ObjectTree

variable {O ε : Type*} [LinearOrder O]

/-- `Object::pushExec` of `p`, up to `fuel` levels of the tree. -/
def pushExecFrom (T : ObjectTree O) :
    ℕ → (O → ObjectState O ε) → O → O → O → ObjectState O ε
  | 0, objs, _, _ => objs
  | fuel + 1, objs, p, execObj =>
    let x := { objs p with execSubObjectSet := (objs p).execSubObjectSet.insert execObj }
    match T.parent p with
    | none => Function.update objs p x
    | some g =>
      if x.isTriggering then Function.update objs p x
      else pushExecFrom T fuel (Function.update objs p { x with isTriggering := true }) g p

/-- `Object::pushExec` of `p`. -/
def pushExec (T : ObjectTree O) (objs : O → ObjectState O ε) (p execObj : O) :
    O → ObjectState O ε :=
  T.pushExecFrom (T.depth p + 1) objs p execObj

/-- `Object::addTriggerEvent` of `o`. -/
def addTriggerEvent (T : ObjectTree O) (objs : O → ObjectState O ε) (o : O) (event : ε) :
    O → ObjectState O ε :=
  let (ret, queue) := pushTrigger (objs o).triggerEventQueue event
  let x := { objs o with triggerEventQueue := queue }
  match ret, T.parent o with
  | true, some p =>
    if x.isTriggering then Function.update objs o x
    else T.pushExec (Function.update objs o { x with isTriggering := true }) p o
  | _, _ => Function.update objs o x

/-- The end of `Object::handleEvent` of `o`. -/
def leave (T : ObjectTree O) (objs : O → ObjectState O ε) (o : O) : O → ObjectState O ε :=
  match T.parent o with
  | some p =>
    if (objs o).hasWork then T.pushExec objs p o
    else Function.update objs o { objs o with isTriggering := false }
  | none => Function.update objs o { objs o with isTriggering := false }

/-- The loop of `getNextTimeOut` over the children, with the timeouts that they return. -/
def scanTimeOut (timeoutOf : O → ℤ) : List O → ℤ → ℤ
  | [], min_time_out => min_time_out
  | i :: rest, min_time_out =>
    let timeout := timeoutOf i
    if timeout = 0 then 0
    else if timeout > 0 then
      scanTimeOut timeoutOf rest (if min_time_out < timeout then min_time_out else timeout)
    else scanTimeOut timeoutOf rest min_time_out

/-- `Object::getNextTimeOut` of `o`, down to `fuel` levels; `now o` is the clock that is
read at `o`. -/
def nextTimeOutFrom (objs : O → ObjectState O ε) (now : O → ℤ) : ℕ → O → ℤ
  | 0, _ => -1
  | fuel + 1, o =>
    if !(objs o).triggerEventQueue.isEmpty then 0
    else if (objs o).tables.timerEventsMap.isEmpty && (objs o).execSubObjectSet.isEmpty then -1
    else
      let min_time_out := match (objs o).tables.timerEventsMap.toList.head? with
        | none => 2 ^ 63 - 1
        | some e => wrap64 (e.1.1 - now o)
      if min_time_out ≤ 0 then 0
      else scanTimeOut (nextTimeOutFrom objs now fuel) (objs o).execSubObjectSet.toList min_time_out

/-- `Object::getNextTimeOut` of `o`. -/
def getNextTimeOut (T : ObjectTree O) (objs : O → ObjectState O ε) (now : O → ℤ) (o : O) : ℤ :=
  nextTimeOutFrom objs now (T.height - T.depth o) o

end ObjectTree

namespace TreeConf

variable {O ε : Type*} [LinearOrder O]

/-- New objects, when the clock reads `clock`. -/
def init (clock : ℤ) : TreeConf O ε := ⟨clock, fun _ => .empty, []⟩

/-- User code is running: between two passes, in an event or in a slot. -/
def userTurn (c : TreeConf O ε) : Bool :=
  match c.stack with
  | [] => true
  | ⟨_, .trigger _ running⟩ :: _ => running
  | ⟨_, .children _⟩ :: _ => false
  | ⟨_, .timers p⟩ :: _ => p.inSlots

/-- Replace an object. -/
def setObj (c : TreeConf O ε) (o : O) (x : ObjectState O ε) : TreeConf O ε :=
  { c with objs := Function.update c.objs o x }

/-- `handleEvent` of `o` begins: the trigger queue is swapped out. -/
def enter (c : TreeConf O ε) (o : O) (stack : List (Frame O ε)) : TreeConf O ε :=
  { c.setObj o { c.objs o with triggerEventQueue := [] } with
    stack := ⟨o, .trigger (c.objs o).triggerEventQueue false⟩ :: stack }

/-- One step of the loop thread. -/
def step (T : ObjectTree O) (c : TreeConf O ε) : TreeAction O ε → Option (TreeConf O ε)
  | .tick ms => if c.clock + ms < 2 ^ 63 then some { c with clock := c.clock + ms } else none
  | .addTriggerEvent o event =>
    if c.userTurn then some { c with objs := T.addTriggerEvent c.objs o event } else none
  | .timer o op =>
    if c.userTurn && op.known (c.objs o).tables then
      some (c.setObj o { c.objs o with tables := (c.objs o).tables.apply c.clock op })
    else none
  | .handleEvent =>
    match c.stack with
    | [] => some (c.enter T.root [])
    | _ => none
  | .runEvent =>
    match c.stack with
    | ⟨o, .trigger (e :: q) false⟩ :: fs =>
      some { c with stack := ⟨o, .trigger (e :: q) true⟩ :: fs }
    | _ => none
  | .eventReturn =>
    match c.stack with
    | ⟨o, .trigger (_ :: q) true⟩ :: fs => some { c with stack := ⟨o, .trigger q false⟩ :: fs }
    | _ => none
  | .handleChildEvent =>
    match c.stack with
    | ⟨o, .trigger [] false⟩ :: fs =>
      some { c.setObj o { c.objs o with execSubObjectSet := ∅ } with
        stack := ⟨o, .children (c.objs o).execSubObjectSet.toList⟩ :: fs }
    | _ => none
  | .childEvent =>
    match c.stack with
    | ⟨o, .children (i :: rest)⟩ :: fs => some (c.enter i (⟨o, .children rest⟩ :: fs))
    | _ => none
  | .handleTimerEvent =>
    match c.stack with
    | ⟨o, .children []⟩ :: fs =>
      let (p, tables) := Pass.start (c.objs o).tables c.clock
      some { c.setObj o { c.objs o with tables := tables } with stack := ⟨o, .timers p⟩ :: fs }
    | _ => none
  | .emitTimeout =>
    match c.stack with
    | ⟨o, .timers p⟩ :: fs =>
      p.emitTimeout.map fun e => { c with stack := ⟨o, .timers e.2⟩ :: fs }
    | _ => none
  | .slotsReturn =>
    match c.stack with
    | ⟨o, .timers p⟩ :: fs =>
      (p.slotsReturn (c.objs o).tables).map fun e =>
        { c.setObj o { c.objs o with tables := e.2 } with stack := ⟨o, .timers e.1⟩ :: fs }
    | _ => none
  | .finish =>
    match c.stack with
    | ⟨o, .timers p⟩ :: fs =>
      (p.finish (c.objs o).tables c.clock).map fun tables =>
        { c with
          objs := T.leave (Function.update c.objs o { c.objs o with tables := tables }) o
          stack := fs }
    | _ => none

/-- The object whose `handleEvent` the action calls, if it calls one. -/
def visits (c : TreeConf O ε) : TreeAction O ε → List O
  | .childEvent =>
    match c.stack with
    | ⟨_, .children (i :: _)⟩ :: _ => [i]
    | _ => []
  | _ => []

end TreeConf

end SignalEventLoop.Core

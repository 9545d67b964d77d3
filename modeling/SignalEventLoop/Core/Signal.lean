/-
# Signals, receivers and their connections

A connection is held on two sides: by its sender, a `Signal`, in `connectionList`, and by its
receiver, an `Object`, in `connectionMap`.  Its status has one bit for each side.  The three
`disconnect` functions call one another: each of them sets a bit of the connection before it
calls the next one, and removes the connection from its own table afterwards.

On one thread `invoke` runs its function at once, so that an operation is a function of the
tables.  Connections are numbered in the order in which they are made.  The recursion of
`Connection::disconnect` is bounded by a depth, and three levels are always enough.
-/
import SignalEventLoop.Lib.Run

namespace SignalEventLoop.Core

/-- The two bits of `SignalConnectionStatus`. -/
structure SignalConnectionStatus where
  signalDisconnected : Bool
  signalSlotDisConnected : Bool
deriving DecidableEq

namespace SignalConnectionStatus

/-- `SignalNormal` -/
def normal : SignalConnectionStatus := ⟨false, false⟩

/-- `SignalDisconnected` -/
def disconnected : SignalConnectionStatus := ⟨true, false⟩

/-- `SignalSlotDisConnected` -/
def slotDisConnected : SignalConnectionStatus := ⟨false, true⟩

/-- `SignalAllDisconneted` -/
def allDisconneted : SignalConnectionStatus := ⟨true, true⟩

/-- The bitwise or. -/
def or (a b : SignalConnectionStatus) : SignalConnectionStatus :=
  ⟨a.signalDisconnected || b.signalDisconnected,
    a.signalSlotDisConnected || b.signalSlotDisConnected⟩

@[simp] lemma or_normal (a : SignalConnectionStatus) : a.or normal = a := by
  simp [or, normal]

@[simp] lemma or_allDisconneted (a : SignalConnectionStatus) :
    a.or allDisconneted = allDisconneted := by
  simp [or, allDisconneted]

end SignalConnectionStatus

/-- A `Connection` of a signal in `S` and, unless it was made by `connectFunc`, a receiver
in `O`. -/
structure Connection (S O : Type*) where
  status : SignalConnectionStatus
  sender : S
  receiver : Option O
deriving DecidableEq

/-- The connections that were made, and the tables of the signals and the receivers. -/
@[ext]
structure SignalState (S O : Type*) where
  connections : List (Connection S O)
  connectionList : S → List ℕ
  /-- The keys of the map, in increasing order. -/
  connectionMap : O → List ℕ

namespace SignalState

variable {S O : Type*} [DecidableEq S] [DecidableEq O]

/-- No connection was made yet. -/
def init : SignalState S O := ⟨[], fun _ => [], fun _ => []⟩

/-- `status.exchange(status.load()|flag)` -/
def orStatus (s : SignalState S O) (conn : ℕ) (flag : SignalConnectionStatus) :
    SignalState S O :=
  { s with connections := s.connections.modify conn fun k => { k with status := k.status.or flag } }

/-- `connectionList.erase(iter)` of a signal. -/
def eraseList (s : SignalState S O) (g : S) (conn : ℕ) : SignalState S O :=
  { s with connectionList :=
      Function.update s.connectionList g ((s.connectionList g).erase conn) }

/-- `connectionMap.erase(iter)` of a receiver. -/
def eraseMap (s : SignalState S O) (r : O) (conn : ℕ) : SignalState S O :=
  { s with connectionMap :=
      Function.update s.connectionMap r ((s.connectionMap r).filter (· ≠ conn)) }

/-- The list of one signal replaced. -/
def setList (s : SignalState S O) (g : S) (l : List ℕ) : SignalState S O :=
  { s with connectionList := Function.update s.connectionList g l }

/-- The map of one receiver replaced. -/
def setMap (s : SignalState S O) (r : O) (l : List ℕ) : SignalState S O :=
  { s with connectionMap := Function.update s.connectionMap r l }

/-- `Signal::disconnect`; the parameter is `Connection::disconnect`. -/
def signalDisconnectWith
    (disconnect : SignalState S O → ℕ → SignalConnectionStatus → Option (SignalState S O))
    (s : SignalState S O) (g : S) (conn : ℕ) : Option (SignalState S O) :=
  if conn ∈ s.connectionList g then
    (disconnect s conn .disconnected).map fun s => s.eraseList g conn
  else some s

/-- `Object::disconnect`; the parameter is `Connection::disconnect`. -/
def objectDisconnectWith
    (disconnect : SignalState S O → ℕ → SignalConnectionStatus → Option (SignalState S O))
    (s : SignalState S O) (r : O) (conn : ℕ) : Option (SignalState S O) :=
  if conn ∈ s.connectionMap r then
    (disconnect s conn .slotDisConnected).map fun s => s.eraseMap r conn
  else some s

/-- `Connection::disconnect`, to a given depth of nested calls. -/
def connectionDisconnect :
    ℕ → SignalState S O → ℕ → SignalConnectionStatus → Option (SignalState S O)
  | 0, _, _, _ => none
  | depth + 1, s, conn, flag =>
    (s.connections[conn]?).bind fun k =>
      let s₁ := s.orStatus conn flag
      let state := k.status.or flag
      (if state.signalDisconnected then some s₁
        else signalDisconnectWith (connectionDisconnect depth)
          (s₁.orStatus conn .disconnected) k.sender conn).bind fun s₂ =>
      if state.signalSlotDisConnected then some s₂
      else
        let s₃ := s₂.orStatus conn .slotDisConnected
        match k.receiver with
        | none => some s₃
        | some r => objectDisconnectWith (connectionDisconnect depth) s₃ r conn

/-- Three levels: the connection, its sender's call of it, and its receiver's. -/
def disconnect (s : SignalState S O) (conn : ℕ) (flag : SignalConnectionStatus) :
    Option (SignalState S O) :=
  connectionDisconnect 3 s conn flag

/-- `Signal::connect`; `Signal::connectFunc` is the case without a receiver. -/
def connect (s : SignalState S O) (g : S) (recvObject : Option O) : SignalState S O where
  connections := s.connections ++ [⟨.normal, g, recvObject⟩]
  connectionList := Function.update s.connectionList g
    (s.connectionList g ++ [s.connections.length])
  connectionMap :=
    match recvObject with
    | none => s.connectionMap
    | some r => Function.update s.connectionMap r (s.connectionMap r ++ [s.connections.length])

/-- The connection has a receiver. -/
def hasReceiver (s : SignalState S O) (conn : ℕ) : Bool :=
  (s.connections[conn]?).any fun k => k.receiver.isSome

/-- The loop of `Signal::disconnectAll` over `operationList`. -/
def signalDisconnectEach : SignalState S O → List ℕ → Option (SignalState S O)
  | s, [] => some s
  | s, i :: operationList =>
    (if s.hasReceiver i then s.disconnect i .disconnected else some s).bind fun s =>
      signalDisconnectEach s operationList

/-- `Signal::disconnectAll` -/
def signalDisconnectAll (s : SignalState S O) (g : S) : Option (SignalState S O) :=
  (signalDisconnectEach s (s.connectionList g)).map fun s => s.setList g []

/-- The loop of `Object::disconnectAll` over its copy of the map. -/
def objectDisconnectEach : SignalState S O → List ℕ → Option (SignalState S O)
  | s, [] => some s
  | s, i :: connection_map =>
    (s.disconnect i .slotDisConnected).bind fun s => objectDisconnectEach s connection_map

/-- `Object::disconnectAll` -/
def objectDisconnectAll (s : SignalState S O) (r : O) : Option (SignalState S O) :=
  (objectDisconnectEach s (s.connectionMap r)).map fun s => s.setMap r []

end SignalState

/-- The operations of the signal layer. -/
inductive SignalAction (S O : Type*) where
  | connect (g : S) (recvObject : Option O)
  /-- `Connection::disconnect`; without an argument the flag is `SignalNormal`. -/
  | disconnect (conn : ℕ) (flag : SignalConnectionStatus)
  | signalDisconnect (g : S) (conn : ℕ)
  | signalDisconnectAll (g : S)
  | objectDisconnectAll (r : O)
deriving DecidableEq

namespace SignalState

variable {S O : Type*} [DecidableEq S] [DecidableEq O]

/-- One operation; it is not possible on a connection that was never made. -/
def step (s : SignalState S O) : SignalAction S O → Option (SignalState S O)
  | .connect g recvObject => some (s.connect g recvObject)
  | .disconnect conn flag => s.disconnect conn flag
  | .signalDisconnect g conn => signalDisconnectWith disconnect s g conn
  | .signalDisconnectAll g => s.signalDisconnectAll g
  | .objectDisconnectAll r => s.objectDisconnectAll r

end SignalState

/-! ## Reading the state after an update -/

namespace SignalState

section

variable {S O : Type*} {s : SignalState S O} {c d : ℕ} {k : Connection S O}
  {flag : SignalConnectionStatus}

@[simp] lemma orStatus_connectionList (s : SignalState S O) (c : ℕ)
    (flag : SignalConnectionStatus) :
    (s.orStatus c flag).connectionList = s.connectionList := rfl

@[simp] lemma orStatus_connectionMap (s : SignalState S O) (c : ℕ)
    (flag : SignalConnectionStatus) :
    (s.orStatus c flag).connectionMap = s.connectionMap := rfl

lemma orStatus_get_self (h : s.connections[c]? = some k) (flag : SignalConnectionStatus) :
    (s.orStatus c flag).connections[c]? = some { k with status := k.status.or flag } := by
  simp [orStatus, h]

lemma orStatus_get_ne (s : SignalState S O) (flag : SignalConnectionStatus) (h : d ≠ c) :
    (s.orStatus c flag).connections[d]? = s.connections[d]? := by
  simp [orStatus, h.symm]

/-- Two flags that set the same bits of the connection have the same effect. -/
lemma orStatus_congr (h : s.connections[c]? = some k) {a b : SignalConnectionStatus}
    (hab : k.status.or a = k.status.or b) : s.orStatus c a = s.orStatus c b := by
  have hlist : (s.orStatus c a).connections = (s.orStatus c b).connections := by
    apply List.ext_getElem?
    intro d
    by_cases hd : d = c
    · rw [hd, orStatus_get_self h, orStatus_get_self h, hab]
    · rw [orStatus_get_ne s a hd, orStatus_get_ne s b hd]
  exact SignalState.ext hlist rfl rfl

lemma orStatus_normal (s : SignalState S O) (c : ℕ) : s.orStatus c .normal = s := by
  have hid : (fun k : Connection S O => { k with status := k.status.or .normal }) = id := by
    funext k
    simp
  rw [orStatus, hid, List.modify_id]

lemma orStatus_eq_self (h : s.connections[c]? = some k) (hk : k.status.or flag = k.status) :
    s.orStatus c flag = s := by
  have hnormal : k.status.or flag = k.status.or .normal := by simp [hk]
  rw [orStatus_congr h hnormal, orStatus_normal]

lemma orStatus_orStatus (s : SignalState S O) (c : ℕ) (a b : SignalConnectionStatus) :
    (s.orStatus c a).orStatus c b = s.orStatus c (a.or b) := by
  simp [orStatus, List.modify_modify_eq, Function.comp_def, SignalConnectionStatus.or,
    Bool.or_assoc]

end

/-! ## The effect of `Connection::disconnect` -/

variable {S O : Type*} [DecidableEq S] [DecidableEq O] {s s' : SignalState S O} {c d : ℕ}
  {k : Connection S O} {flag : SignalConnectionStatus}

/-- The receiver's side of a disconnection. -/
def eraseSlot (s : SignalState S O) (receiver : Option O) (conn : ℕ) : SignalState S O :=
  match receiver with
  | none => s
  | some r => s.eraseMap r conn

/-- `Connection::disconnect` without the nested calls: it sets both bits, and takes the
connection out of the tables of those sides whose bit was clear. -/
def disconnected (s : SignalState S O) (conn : ℕ) (k : Connection S O)
    (flag : SignalConnectionStatus) : SignalState S O :=
  let state := k.status.or flag
  let s₁ := s.orStatus conn .allDisconneted
  let s₂ := if state.signalSlotDisConnected then s₁ else s₁.eraseSlot k.receiver conn
  if state.signalDisconnected then s₂ else s₂.eraseList k.sender conn

omit [DecidableEq S] in
lemma eraseMap_of_notMem {r : O} (h : c ∉ s.connectionMap r) : s.eraseMap r c = s := by
  have hfilter : (s.connectionMap r).filter (· ≠ c) = s.connectionMap r := by
    rw [List.filter_eq_self]
    intro d hd
    have hne : d ≠ c := by
      rintro rfl
      exact h hd
    simpa using hne
  rw [eraseMap, hfilter, Function.update_eq_self]

omit [DecidableEq O] in
lemma eraseList_of_notMem {g : S} (h : c ∉ s.connectionList g) : s.eraseList g c = s := by
  rw [eraseList, List.erase_of_not_mem h, Function.update_eq_self]

omit [DecidableEq S] in
lemma eraseMap_eraseMap (s : SignalState S O) (r : O) (c : ℕ) :
    (s.eraseMap r c).eraseMap r c = s.eraseMap r c := by
  apply eraseMap_of_notMem
  simp [eraseMap]

/-- The innermost level: with both bits set no other table is touched. -/
lemma connectionDisconnect_of_all (n : ℕ) (h : s.connections[c]? = some k)
    (hk : k.status.or flag = .allDisconneted) :
    connectionDisconnect (n + 1) s c flag = some (s.orStatus c flag) := by
  simp [connectionDisconnect, h, hk, SignalConnectionStatus.allDisconneted]

lemma objectDisconnectWith_of_all (n : ℕ) (r : O) (h : s.connections[c]? = some k)
    (hk : k.status = .allDisconneted) :
    objectDisconnectWith (connectionDisconnect (n + 1)) s r c = some (s.eraseMap r c) := by
  unfold objectDisconnectWith
  split_ifs with hc
  · have hor : k.status.or .slotDisConnected = k.status := by rw [hk]; rfl
    rw [connectionDisconnect_of_all n h (hor.trans hk), orStatus_eq_self h hor, Option.map_some]
  · rw [eraseMap_of_notMem hc]

/-- The receiver's side, from a state in which the sender's bit is set. -/
lemma slotSide_eq (n : ℕ) (h : s.connections[c]? = some k)
    (hk : k.status.signalDisconnected = true) :
    (match k.receiver with
      | none => some (s.orStatus c .slotDisConnected)
      | some r => objectDisconnectWith (connectionDisconnect (n + 1))
          (s.orStatus c .slotDisConnected) r c) =
      some ((s.orStatus c .allDisconneted).eraseSlot k.receiver c) := by
  have hor : k.status.or .slotDisConnected = .allDisconneted := by
    simp [SignalConnectionStatus.or, SignalConnectionStatus.slotDisConnected,
      SignalConnectionStatus.allDisconneted, hk]
  have hall : s.orStatus c .slotDisConnected = s.orStatus c .allDisconneted :=
    orStatus_congr h (by simp [hor])
  rw [hall]
  cases hr : k.receiver with
  | none => rfl
  | some r => exact objectDisconnectWith_of_all n r (orStatus_get_self h _) (by simp)

/-- The middle level: the sender's bit is set, so that only the receiver is called. -/
lemma connectionDisconnect_of_signal (n : ℕ) (h : s.connections[c]? = some k)
    (hk : (k.status.or flag).signalDisconnected = true) :
    connectionDisconnect (n + 2) s c flag = some (s.disconnected c k flag) := by
  rw [connectionDisconnect, h, Option.bind_some]
  simp only [hk, if_true, Option.bind_some, disconnected]
  split_ifs with hslot
  · have hall : k.status.or flag = k.status.or .allDisconneted := by
      rw [SignalConnectionStatus.or_allDisconneted]
      cases hor : k.status.or flag
      simp_all [SignalConnectionStatus.allDisconneted]
    rw [orStatus_congr h hall]
  · rw [slotSide_eq n (orStatus_get_self h flag) hk, orStatus_orStatus,
      SignalConnectionStatus.or_allDisconneted]

omit [DecidableEq S] in
@[simp] lemma eraseSlot_connections (s : SignalState S O) (receiver : Option O) (c : ℕ) :
    (s.eraseSlot receiver c).connections = s.connections := by
  cases receiver <;> rfl

omit [DecidableEq S] in
@[simp] lemma eraseSlot_connectionList (s : SignalState S O) (receiver : Option O) (c : ℕ) :
    (s.eraseSlot receiver c).connectionList = s.connectionList := by
  cases receiver <;> rfl

/-- A second removal on the receiver's side finds nothing. -/
lemma eraseSlot_eraseList_eraseSlot (s : SignalState S O) (receiver : Option O) (g : S) (c : ℕ) :
    ((s.eraseSlot receiver c).eraseList g c).eraseSlot receiver c =
      (s.eraseSlot receiver c).eraseList g c := by
  cases receiver with
  | none => rfl
  | some r =>
    have hcomm : ((s.eraseMap r c).eraseList g c).eraseMap r c =
        ((s.eraseMap r c).eraseMap r c).eraseList g c := rfl
    rw [eraseMap_eraseMap] at hcomm
    exact hcomm

/-- The sender's side, called with the sender's bit just set. -/
lemma signalSide_eq (n : ℕ) (h : s.connections[c]? = some k) :
    signalDisconnectWith (connectionDisconnect (n + 2)) (s.orStatus c .disconnected) k.sender c =
      some (if c ∈ s.connectionList k.sender then
        (if k.status.signalSlotDisConnected then s.orStatus c .allDisconneted
          else (s.orStatus c .allDisconneted).eraseSlot k.receiver c).eraseList k.sender c
      else s.orStatus c .disconnected) := by
  unfold signalDisconnectWith
  rw [orStatus_connectionList]
  split_ifs with hc hslot
  · rw [connectionDisconnect_of_signal n (orStatus_get_self h _)
      (by simp [SignalConnectionStatus.or, SignalConnectionStatus.disconnected])]
    simp [disconnected, SignalConnectionStatus.or, SignalConnectionStatus.disconnected, hslot,
      orStatus_orStatus, SignalConnectionStatus.allDisconneted]
  · rw [connectionDisconnect_of_signal n (orStatus_get_self h _)
      (by simp [SignalConnectionStatus.or, SignalConnectionStatus.disconnected])]
    simp [disconnected, SignalConnectionStatus.or, SignalConnectionStatus.disconnected, hslot,
      orStatus_orStatus, SignalConnectionStatus.allDisconneted]
  · rfl

/-- **`Connection::disconnect`.** Three levels of calls are enough for every state of the
tables, and more levels do the same. -/
theorem connectionDisconnect_eq (n : ℕ) (h : s.connections[c]? = some k) :
    connectionDisconnect (n + 3) s c flag = some (s.disconnected c k flag) := by
  cases hsig : (k.status.or flag).signalDisconnected with
  | true => exact connectionDisconnect_of_signal (n + 1) h hsig
  | false =>
    rw [connectionDisconnect, h, Option.bind_some]
    simp only [hsig, Bool.false_eq_true, if_false, disconnected]
    rw [signalSide_eq n (orStatus_get_self h flag), Option.bind_some, orStatus_orStatus,
      orStatus_orStatus, SignalConnectionStatus.or_allDisconneted]
    rw [orStatus_connectionList]
    split_ifs with hslot hc hc
    · rfl
    · -- the connection is in neither table, and only the bits are left to set
      have hall : k.status.or (flag.or .disconnected) = k.status.or .allDisconneted := by
        simp_all [SignalConnectionStatus.or, SignalConnectionStatus.disconnected,
          SignalConnectionStatus.allDisconneted]
      rw [orStatus_congr h hall, eraseList_of_notMem (by exact hc)]
    · -- the sender has called the receiver already
      have hget : (((s.orStatus c .allDisconneted).eraseSlot k.receiver c).eraseList
          k.sender c).connections[c]? = some { k with status := .allDisconneted } := by
        simpa [eraseList] using orStatus_get_self h .allDisconneted
      refine (slotSide_eq (n + 1) hget rfl).trans ?_
      rw [orStatus_eq_self hget (by simp)]
      exact congrArg some (eraseSlot_eraseList_eraseSlot _ k.receiver k.sender c)
    · refine (slotSide_eq (n + 1) (orStatus_get_self h (flag.or .disconnected))
        (by simp [SignalConnectionStatus.or, SignalConnectionStatus.disconnected])).trans ?_
      rw [orStatus_orStatus, SignalConnectionStatus.or_allDisconneted,
        eraseList_of_notMem (by simpa using hc)]

lemma disconnect_eq (h : s.connections[c]? = some k) :
    s.disconnect c flag = some (s.disconnected c k flag) :=
  connectionDisconnect_eq 0 h

end SignalState

end SignalEventLoop.Core

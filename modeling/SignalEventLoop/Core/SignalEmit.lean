/-
# The two emissions of a signal

`Signal::emit` and `Signal::operator()` both walk over a copy of the list and run the slot of
every entry; `operator()` first looks at the status of the entry.  While a slot runs it may
connect new slots to the signal and disconnect any connection of it.  All connections of the
signal are made by `connectFunc`, so that a slot is run at once.

What a slot does may depend on everything that happened before: on a world `W` that the slots
share and on the tables of the signal.

`operator()` runs the connections that were there at the start and are still connected at
their turn.  `emit` also runs those that an earlier slot of the same emission has
disconnected.
-/
import SignalEventLoop.Core.SignalTables

namespace SignalEventLoop.Core

/-- What a slot does to the signal that runs it. -/
inductive SlotOp where
  | connectFunc
  /-- `Connection::disconnect` without a flag. -/
  | disconnect (conn : ℕ)
  /-- `Signal::disconnect` -/
  | signalDisconnect (conn : ℕ)
deriving DecidableEq

namespace SlotOp

variable {S O : Type*}

/-- The operation of the signal layer. -/
def action (g : S) : SlotOp → SignalAction S O
  | .connectFunc => .connect g none
  | .disconnect conn => .disconnect conn .normal
  | .signalDisconnect conn => .signalDisconnect g conn

/-- The operation disconnects the connection. -/
def Disconnects (op : SlotOp) (conn : ℕ) : Prop :=
  op = .disconnect conn ∨ op = .signalDisconnect conn

end SlotOp

/-- The slot of every connection, as a function of the world and the tables. -/
def Slots (W S O : Type*) : Type _ := ℕ → W × SignalState S O → W × List SlotOp

namespace SignalState

variable {W S O : Type*} [DecidableEq S] [DecidableEq O]

/-- One operation of a slot; a slot has no pointer to a connection that was never made. -/
def applyOp (g : S) (s : SignalState S O) (op : SlotOp) : SignalState S O :=
  (s.step (op.action g)).getD s

/-- `bound()`: run the slot of the connection `i`. -/
def runSlot (slots : Slots W S O) (g : S) (i : ℕ) (x : W × SignalState S O) :
    W × SignalState S O :=
  ((slots i x).1, (slots i x).2.foldl (applyOp g) x.2)

/-- The loop over `execList`: the slots of those entries are run that pass the test at their
turn.  It returns the entries that were run, in order, and the state after them. -/
def deliver (passes : SignalState S O → ℕ → Bool) (slots : Slots W S O) (g : S) :
    List ℕ → W × SignalState S O → List ℕ × (W × SignalState S O)
  | [], x => ([], x)
  | i :: execList, x =>
    if passes x.2 i then
      let r := deliver passes slots g execList (runSlot slots g i x)
      (i :: r.1, r.2)
    else deliver passes slots g execList x

/-- The status of the connection is `SignalNormal`. -/
def statusNormal (s : SignalState S O) (i : ℕ) : Bool :=
  (s.connections[i]?).any fun k => k.status = .normal

/-- `Signal::emit` -/
def emit (slots : Slots W S O) (g : S) (x : W × SignalState S O) :
    List ℕ × (W × SignalState S O) :=
  deliver (fun _ _ => true) slots g (x.2.connectionList g) x

/-- `Signal::operator()` -/
def callOperator (slots : Slots W S O) (g : S) (x : W × SignalState S O) :
    List ℕ × (W × SignalState S O) :=
  deliver statusNormal slots g (x.2.connectionList g) x

/-- What an emission is for: the connections present at the start are run in their order,
unless they have been disconnected before their turn. -/
def deliverConnected (slots : Slots W S O) (g : S) (x : W × SignalState S O) :
    List ℕ × (W × SignalState S O) :=
  deliver (fun s i => i ∈ s.connectionList g) slots g (x.2.connectionList g) x

/-- Both emissions run the slots that they are to run. -/
structure SameCalls (slots : Slots W S O) (g : S) (x : W × SignalState S O) : Prop where
  emit_eq_callOperator : (emit slots g x).1 = (callOperator slots g x).1
  callOperator_eq : (callOperator slots g x).1 = (deliverConnected slots g x).1

/-- No slot of the emission disconnects a connection whose turn is still to come. -/
def NoLaterDisconnect (slots : Slots W S O) (g : S) : List ℕ → W × SignalState S O → Prop
  | [], _ => True
  | i :: execList, x =>
    (∀ op ∈ (slots i x).2, ∀ d ∈ execList, ¬ op.Disconnects d) ∧
      NoLaterDisconnect slots g execList (runSlot slots g i x)

/-- The tables are in order, and the connections of the signal were made by `connectFunc`. -/
structure FuncSignal (g : S) (s : SignalState S O) : Prop where
  sound : s.Sound
  symmetric : s.Symmetric
  plain : ∀ {c : ℕ} {k : Connection S O}, s.connections[c]? = some k → k.sender = g →
    k.receiver = none ∧ (k.status = .normal ∨ k.status = .allDisconneted)

/-! ## What the operations of a slot do to the list -/

variable {g : S} {s : SignalState S O} {c d : ℕ} {k : Connection S O}

lemma FuncSignal.release (hs : s.FuncSignal g) (h : s.connections[c]? = some k) :
    (s.release c k).FuncSignal g where
  sound := hs.sound.release h
  symmetric := hs.symmetric.release hs.sound h
  plain := by
    intro d k' hk' hg
    by_cases hd : d = c
    · subst hd
      rw [release_get_self h, Option.some.injEq] at hk'
      subst hk'
      exact ⟨(hs.plain h hg).1, Or.inr rfl⟩
    · rw [release_get_ne s k hd] at hk'
      exact hs.plain hk' hg

lemma FuncSignal.connectFunc (hs : s.FuncSignal g) : (s.connect g none).FuncSignal g where
  sound := hs.sound.connect g none
  symmetric := hs.symmetric.connect g none
  plain := by
    intro d k' hk' hg
    rcases connect_get_cases hk' with ⟨-, hold⟩ | ⟨-, rfl⟩
    · exact hs.plain hold hg
    · exact ⟨rfl, Or.inl rfl⟩

/-- An operation of a slot makes a connection, disconnects one, or finds nothing to do. -/
lemma applyOp_cases (hs : s.FuncSignal g) (op : SlotOp) :
    (op = .connectFunc ∧ applyOp g s op = s.connect g none) ∨
    (∃ c k, op.Disconnects c ∧ s.connections[c]? = some k ∧ applyOp g s op = s.release c k) ∨
    (applyOp g s op = s ∧ ∀ c ∈ s.connectionList g, ¬ op.Disconnects c) := by
  cases op with
  | connectFunc => exact Or.inl ⟨rfl, rfl⟩
  | disconnect conn =>
    cases hk : s.connections[conn]? with
    | none =>
      refine Or.inr (Or.inr ⟨?_, ?_⟩)
      · simp [applyOp, SlotOp.action, step, SignalState.disconnect, connectionDisconnect, hk]
      · rintro c hc (h | h)
        · obtain rfl : conn = c := by simpa using h
          obtain ⟨k, hk', -⟩ := hs.sound.list_sender hc
          exact absurd hk' (by simp [hk])
        · exact absurd h (by simp)
    | some k =>
      refine Or.inr (Or.inl ⟨conn, k, Or.inl rfl, hk, ?_⟩)
      have hflag : FlagSet k .normal :=
        ⟨fun h => absurd h (by decide), fun h => absurd h (by decide)⟩
      rw [applyOp, SlotOp.action, step, disconnect_eq hk,
        disconnected_eq_release hs.symmetric hk hflag, Option.getD_some]
  | signalDisconnect conn =>
    by_cases hc : conn ∈ s.connectionList g
    · obtain ⟨k, hk, heq⟩ := signalDisconnect_of_mem hs.sound hs.symmetric hc
      exact Or.inr (Or.inl ⟨conn, k, Or.inr rfl, hk, by
        rw [applyOp, SlotOp.action, step, heq, Option.getD_some]⟩)
    · refine Or.inr (Or.inr ⟨?_, ?_⟩)
      · rw [applyOp, SlotOp.action, step, signalDisconnectWith, if_neg hc, Option.getD_some]
      · rintro c hc' (h | h)
        · exact absurd h (by simp)
        · obtain rfl : conn = c := by simpa using h
          exact hc hc'

lemma FuncSignal.applyOp (hs : s.FuncSignal g) (op : SlotOp) : (applyOp g s op).FuncSignal g := by
  obtain ⟨-, heq⟩ | ⟨c, k, -, hk, heq⟩ | ⟨heq, -⟩ := applyOp_cases hs op
  · rw [heq]
    exact hs.connectFunc
  · rw [heq]
    exact hs.release hk
  · rw [heq]
    exact hs

lemma Disconnects.unique {op : SlotOp} (hc : op.Disconnects c) (hd : op.Disconnects d) : c = d := by
  rcases hc with rfl | rfl <;> rcases hd with h | h <;> simp_all

/-- An old connection of the signal stays in the list unless the operation disconnects it. -/
lemma mem_applyOp (hs : s.FuncSignal g) (op : SlotOp) (hd : d < s.connections.length) :
    d ∈ (SignalState.applyOp g s op).connectionList g ↔
      d ∈ s.connectionList g ∧ ¬ op.Disconnects d := by
  obtain ⟨rfl, heq⟩ | ⟨c, k, hop, hk, heq⟩ | ⟨heq, hnot⟩ := applyOp_cases hs op
  · rw [heq, mem_connect_list]
    simp [hd.ne, SlotOp.Disconnects]
  · rw [heq, mem_release_list hs.sound hk, and_comm]
    refine and_congr_right fun _ => not_congr ⟨?_, fun h => Disconnects.unique h hop⟩
    rintro rfl
    exact hop
  · rw [heq, iff_self_and]
    exact hnot d

lemma length_applyOp (hs : s.FuncSignal g) (op : SlotOp) :
    s.connections.length ≤ (applyOp g s op).connections.length := by
  obtain ⟨rfl, heq⟩ | ⟨c, k, hop, hk, heq⟩ | ⟨heq, hnot⟩ := applyOp_cases hs op
  · simp [heq, connect]
  · simp [heq, release_connections, orStatus]
  · rw [heq]

/-- The operations of one slot together. -/
lemma applyOps_spec (ops : List SlotOp) (hs : s.FuncSignal g) :
    (ops.foldl (applyOp g) s).FuncSignal g ∧
    s.connections.length ≤ (ops.foldl (applyOp g) s).connections.length ∧
    ∀ d < s.connections.length, (d ∈ (ops.foldl (applyOp g) s).connectionList g ↔
      d ∈ s.connectionList g ∧ ∀ op ∈ ops, ¬ op.Disconnects d) := by
  induction ops generalizing s with
  | nil => exact ⟨hs, le_rfl, fun d _ => by simp⟩
  | cons op ops ih =>
    have hlen := length_applyOp hs op
    obtain ⟨hfunc, hlen', hmem⟩ := ih (hs.applyOp op)
    refine ⟨hfunc, hlen.trans hlen', fun d hd => ?_⟩
    rw [List.foldl_cons, hmem d (hd.trans_le hlen), mem_applyOp hs op hd, and_assoc,
      List.forall_mem_cons]

/-- The connection was made by the signal. -/
def MadeBy (s : SignalState S O) (g : S) (c : ℕ) : Prop :=
  ∃ k, s.connections[c]? = some k ∧ k.sender = g

lemma MadeBy.applyOp (hs : s.FuncSignal g) (h : s.MadeBy g d) (op : SlotOp) :
    (SignalState.applyOp g s op).MadeBy g d := by
  obtain ⟨k', hk', hg⟩ := h
  obtain ⟨rfl, heq⟩ | ⟨c, k, hop, hk, heq⟩ | ⟨heq, hnot⟩ := applyOp_cases hs op
  · rw [heq]
    exact ⟨k', by rw [connect_get_lt s g none (List.getElem?_eq_some_iff.mp hk').1, hk'], hg⟩
  · rw [heq]
    by_cases hd : d = c
    · subst hd
      obtain rfl : k = k' := Option.some.inj (hk.symm.trans hk')
      exact ⟨_, release_get_self hk, hg⟩
    · exact ⟨k', by rw [release_get_ne s k hd, hk'], hg⟩
  · rw [heq]
    exact ⟨k', hk', hg⟩

lemma MadeBy.applyOps (ops : List SlotOp) (hs : s.FuncSignal g) (h : s.MadeBy g d) :
    (ops.foldl (SignalState.applyOp g) s).MadeBy g d := by
  induction ops generalizing s with
  | nil => exact h
  | cons op ops ih => exact ih (hs.applyOp op) (h.applyOp hs op)

/-! ## The walk over the copy of the list -/

variable {slots : Slots W S O} {x : W × SignalState S O}

/-- Without a test everything is run. -/
lemma deliver_true (slots : Slots W S O) (g : S) (l : List ℕ) (x : W × SignalState S O) :
    (deliver (fun _ _ => true) slots g l x).1 = l := by
  induction l generalizing x with
  | nil => rfl
  | cons i l ih => simp [deliver, ih]

omit [DecidableEq S] [DecidableEq O] in
/-- For a connection of the signal, the status and the list say the same. -/
lemma FuncSignal.statusNormal_iff (hs : s.FuncSignal g) (h : s.connections[c]? = some k)
    (hg : k.sender = g) : s.statusNormal c = true ↔ c ∈ s.connectionList g := by
  subst hg
  rw [hs.symmetric.inList_iff h]
  rcases (hs.plain h rfl).2 with hk | hk
  · simp [statusNormal, h, hk, SignalConnectionStatus.normal]
  · simp [statusNormal, h, hk, SignalConnectionStatus.normal,
      SignalConnectionStatus.allDisconneted]

/-- The test of `operator()` lets through what is still in the list. -/
lemma deliver_statusNormal (l : List ℕ) (hs : x.2.FuncSignal g) (hl : ∀ i ∈ l, x.2.MadeBy g i) :
    deliver statusNormal slots g l x =
      deliver (fun s i => i ∈ s.connectionList g) slots g l x := by
  induction l generalizing x with
  | nil => rfl
  | cons i l ih =>
    obtain ⟨k, hk, hg⟩ := hl i List.mem_cons_self
    have htest : x.2.statusNormal i = decide (i ∈ x.2.connectionList g) := by
      rw [Bool.eq_iff_iff, decide_eq_true_iff]
      exact hs.statusNormal_iff hk hg
    have hrest := ih (x := runSlot slots g i x) (applyOps_spec _ hs).1
      fun j hj => (hl j (List.mem_cons_of_mem _ hj)).applyOps _ hs
    rw [deliver, deliver, htest, hrest, ih hs fun j hj => hl j (List.mem_cons_of_mem _ hj)]

/-- A connection that has left the list is not run afterwards. -/
lemma not_run_of_notMem (slots : Slots W S O) (l : List ℕ) (hs : x.2.FuncSignal g)
    (hd : d < x.2.connections.length) (hmem : d ∉ x.2.connectionList g) :
    d ∉ (deliver (fun s i => i ∈ s.connectionList g) slots g l x).1 := by
  induction l generalizing x with
  | nil => simp [deliver]
  | cons i l ih =>
    rw [deliver]
    split_ifs with hi
    · have hne : d ≠ i := by
        rintro rfl
        exact hmem (by simpa using hi)
      obtain ⟨hfunc, hlen, hiff⟩ := applyOps_spec (slots i x).2 hs
      have hrest := ih (x := runSlot slots g i x) hfunc (hd.trans_le hlen)
        fun h => hmem ((hiff d hd).mp h).1
      exact fun h => (List.mem_cons.mp h).elim hne hrest
    · exact ih hs hd hmem

/-- All of the copy is run exactly when no slot disconnects a later entry. -/
lemma deliver_eq_self_iff (l : List ℕ) (hs : x.2.FuncSignal g)
    (hl : ∀ i ∈ l, i ∈ x.2.connectionList g) :
    (deliver (fun s i => i ∈ s.connectionList g) slots g l x).1 = l ↔
      NoLaterDisconnect slots g l x := by
  induction l generalizing x with
  | nil => simp [deliver, NoLaterDisconnect]
  | cons i l ih =>
    obtain ⟨hfunc, hlen, hiff⟩ := applyOps_spec (slots i x).2 hs
    have hlt : ∀ d ∈ l, d < x.2.connections.length := fun d hd =>
      hs.sound.lt_of_mem_list (hl d (List.mem_cons_of_mem _ hd))
    rw [deliver, if_pos (by simpa using hl i List.mem_cons_self), NoLaterDisconnect,
      List.cons.injEq, and_iff_right rfl]
    by_cases hstay : ∀ d ∈ l, d ∈ (runSlot slots g i x).2.connectionList g
    · rw [ih hfunc hstay, iff_and_self]
      intro _ op hop d hd
      exact ((hiff d (hlt d hd)).mp (hstay d hd)).2 op hop
    · -- an entry that the slot has disconnected is not run, and the condition fails
      push Not at hstay
      obtain ⟨d, hd, hgone⟩ := hstay
      constructor
      · intro heq
        have hnot := not_run_of_notMem slots l hfunc ((hlt d hd).trans_le hlen) hgone
        exact absurd (heq.symm ▸ hd) hnot
      · rintro ⟨hops, -⟩
        have hin := (hiff d (hlt d hd)).mpr
          ⟨hl d (List.mem_cons_of_mem _ hd), fun op hop => hops op hop d hd⟩
        exact absurd hin hgone

/-- `operator()` always runs what it is to run. -/
theorem callOperator_eq_deliverConnected (hs : x.2.FuncSignal g) :
    callOperator slots g x = deliverConnected slots g x :=
  deliver_statusNormal _ hs fun _ hi => hs.sound.list_sender hi

/-- **The two emissions.** `emit` and `operator()` run the same slots in the same order,
namely the connections present at the start that are still connected at their turn, exactly
when no slot of the emission disconnects a connection whose turn is still to come. -/
theorem sameCalls_iff (slots : Slots W S O) (g : S) (w : W) (s : SignalState S O)
    (hs : s.FuncSignal g) :
    SameCalls slots g (w, s) ↔ NoLaterDisconnect slots g (s.connectionList g) (w, s) := by
  have hcall : callOperator slots g (w, s) = deliverConnected slots g (w, s) :=
    callOperator_eq_deliverConnected hs
  have hemit : (emit slots g (w, s)).1 = s.connectionList g := deliver_true slots g _ _
  rw [← deliver_eq_self_iff (x := (w, s)) _ hs fun _ hi => hi]
  constructor
  · intro h
    calc (deliverConnected slots g (w, s)).1 = (callOperator slots g (w, s)).1 := by rw [hcall]
      _ = (emit slots g (w, s)).1 := h.emit_eq_callOperator.symm
      _ = s.connectionList g := hemit
  · intro h
    have heq : (deliverConnected slots g (w, s)).1 = s.connectionList g := h
    exact ⟨by rw [hemit, hcall, heq], by rw [hcall]⟩

omit [DecidableEq S] [DecidableEq O] in
lemma init_funcSignal (g : S) : (init : SignalState S O).FuncSignal g where
  sound := init_sound
  symmetric := init_symmetric
  plain h := absurd h (by simp [init])

/-- A signal with two connections. -/
def twoFuncs : SignalState Unit Unit := (init.connect () none).connect () none

lemma twoFuncs_funcSignal : twoFuncs.FuncSignal () :=
  (init_funcSignal ()).connectFunc.connectFunc

/-- The first slot connects a third one, and the second slot disconnects the first: both
emissions run the two slots. -/
theorem disconnect_earlier_sameCalls :
    let slots : Slots Unit Unit Unit := fun i x =>
      (x.1, if i = 0 then [.connectFunc] else [.disconnect 0])
    (emit slots () ((), twoFuncs)).1 = [0, 1] ∧ SameCalls slots () ((), twoFuncs) := by
  intro slots
  refine ⟨deliver_true slots () _ _,
    (sameCalls_iff slots () () twoFuncs twoFuncs_funcSignal).mpr ?_⟩
  have hlist : twoFuncs.connectionList () = [0, 1] := rfl
  rw [hlist]
  simp [NoLaterDisconnect, slots, SlotOp.Disconnects]

/-- The first slot disconnects the second connection: `emit` runs it nevertheless. -/
theorem disconnect_later_run_by_emit :
    ∃ slots : Slots Unit Unit Unit, (emit slots () ((), twoFuncs)).1 = [0, 1] ∧
      (callOperator slots () ((), twoFuncs)).1 = [0] ∧ ¬ SameCalls slots () ((), twoFuncs) := by
  let slots : Slots Unit Unit Unit := fun i x =>
    (x.1, if i = 0 then [.disconnect 1] else [])
  have hemit : (emit slots () ((), twoFuncs)).1 = [0, 1] := by decide +kernel
  have hcall : (callOperator slots () ((), twoFuncs)).1 = [0] := by decide +kernel
  refine ⟨slots, hemit, hcall, fun h => ?_⟩
  have heq := h.emit_eq_callOperator
  rw [hemit, hcall] at heq
  exact absurd heq (by decide)

end SignalState

end SignalEventLoop.Core

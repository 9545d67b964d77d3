/-
# The two tables of a connection

Between two operations a connection is in the list of its sender exactly when its sender's
bit is clear, and in the map of its receiver exactly when its receiver's bit is clear.  Every
operation either makes a connection, or takes connections out of the tables of both sides
with both bits set.

There are two exceptions.  A receiver-less connection is skipped by `Signal::disconnectAll`:
it is dropped from the list, and its status stays `SignalNormal`.  And a caller of
`Connection::disconnect` who passes a flag only sets the bit, as if he were the one who
takes the connection out of the table.
-/
import SignalEventLoop.Core.Signal

namespace SignalEventLoop.Core

namespace SignalState

variable {S O : Type*} [DecidableEq S] [DecidableEq O] {s s' : SignalState S O} {c d : ℕ}
  {k : Connection S O} {flag : SignalConnectionStatus}

/-- The tables of both sides agree with the status of every connection. -/
structure Symmetric (s : SignalState S O) : Prop where
  inList_iff : ∀ {c k}, s.connections[c]? = some k →
    (c ∈ s.connectionList k.sender ↔ k.status.signalDisconnected = false)
  inMap_iff : ∀ {c k r}, s.connections[c]? = some k → k.receiver = some r →
    (c ∈ s.connectionMap r ↔ k.status.signalSlotDisConnected = false)

/-! ## Taking a connection out of all tables -/

/-- Every connection that a table holds belongs there, and is held once. -/
structure Sound (s : SignalState S O) : Prop where
  list_sender : ∀ {c g}, c ∈ s.connectionList g →
    ∃ k, s.connections[c]? = some k ∧ k.sender = g
  map_receiver : ∀ {c r}, c ∈ s.connectionMap r →
    ∃ k, s.connections[c]? = some k ∧ k.receiver = some r
  list_nodup : ∀ g, (s.connectionList g).Nodup
  map_nodup : ∀ r, (s.connectionMap r).Nodup

/-- The connection is disconnected on both sides, and in no table. -/
def release (s : SignalState S O) (conn : ℕ) (k : Connection S O) : SignalState S O :=
  ((s.orStatus conn .allDisconneted).eraseSlot k.receiver conn).eraseList k.sender conn

lemma release_connections (s : SignalState S O) (c : ℕ) (k : Connection S O) :
    (s.release c k).connections = (s.orStatus c .allDisconneted).connections := by
  simp [release, eraseList]

lemma release_get_self (h : s.connections[c]? = some k) :
    (s.release c k).connections[c]? = some { k with status := .allDisconneted } := by
  rw [release_connections, orStatus_get_self h, SignalConnectionStatus.or_allDisconneted]

lemma release_get_ne (s : SignalState S O) (k : Connection S O) (hd : d ≠ c) :
    (s.release c k).connections[d]? = s.connections[d]? := by
  rw [release_connections, orStatus_get_ne s _ hd]

lemma mem_release_list (hs : s.Sound) (h : s.connections[c]? = some k) {g : S} :
    d ∈ (s.release c k).connectionList g ↔ d ≠ c ∧ d ∈ s.connectionList g := by
  by_cases hg : g = k.sender
  · subst hg
    simp [release, eraseList, (hs.list_nodup k.sender).mem_erase_iff]
  · -- the connection is in no other list
    have hc : c ∉ s.connectionList g := by
      intro hc
      obtain ⟨k', hk', hg'⟩ := hs.list_sender hc
      rw [h, Option.some.injEq] at hk'
      exact hg (by rw [hk', hg'])
    simp only [release, eraseList, Function.update_of_ne hg, eraseSlot_connectionList,
      orStatus_connectionList, iff_and_self]
    rintro hd rfl
    exact hc hd

lemma mem_release_map (hs : s.Sound) (h : s.connections[c]? = some k) {r : O} :
    d ∈ (s.release c k).connectionMap r ↔ d ≠ c ∧ d ∈ s.connectionMap r := by
  by_cases hr : k.receiver = some r
  · simp [release, eraseList, hr, eraseSlot, eraseMap, and_comm]
  · have hc : c ∉ s.connectionMap r := by
      intro hc
      obtain ⟨k', hk', hr'⟩ := hs.map_receiver hc
      rw [h, Option.some.injEq] at hk'
      exact hr (by rw [hk', hr'])
    have hmap : (s.release c k).connectionMap r = s.connectionMap r := by
      cases hk : k.receiver with
      | none => simp [release, eraseList, hk, eraseSlot]
      | some r' =>
        have hne : r ≠ r' := by
          rintro rfl
          exact hr hk
        simp [release, eraseList, hk, eraseSlot, eraseMap, Function.update_of_ne hne]
    rw [hmap, iff_and_self]
    rintro hd rfl
    exact hc hd

lemma Sound.release (hs : s.Sound) (h : s.connections[c]? = some k) : (s.release c k).Sound where
  list_sender hd := by
    obtain ⟨hne, hd⟩ := (mem_release_list hs h).mp hd
    rw [release_get_ne s k hne]
    exact hs.list_sender hd
  map_receiver hd := by
    obtain ⟨hne, hd⟩ := (mem_release_map hs h).mp hd
    rw [release_get_ne s k hne]
    exact hs.map_receiver hd
  list_nodup g := by
    by_cases hg : g = k.sender
    · subst hg
      simpa [SignalState.release, eraseList] using (hs.list_nodup k.sender).erase c
    · simpa [SignalState.release, eraseList, Function.update_of_ne hg] using hs.list_nodup g
  map_nodup r := by
    cases hk : k.receiver with
    | none => simpa [SignalState.release, eraseList, hk, eraseSlot] using hs.map_nodup r
    | some r' =>
      by_cases hr : r = r'
      · subst hr
        simpa [SignalState.release, eraseList, hk, eraseSlot, eraseMap] using
          (hs.map_nodup r).filter _
      · simpa [SignalState.release, eraseList, hk, eraseSlot, eraseMap,
          Function.update_of_ne hr] using hs.map_nodup r

lemma Symmetric.release (hsym : s.Symmetric) (hs : s.Sound) (h : s.connections[c]? = some k) :
    (s.release c k).Symmetric where
  inList_iff := by
    intro d k' hk'
    rw [mem_release_list hs h]
    by_cases hd : d = c
    · subst hd
      rw [release_get_self h, Option.some.injEq] at hk'
      simp [← hk', SignalConnectionStatus.allDisconneted]
    · rw [release_get_ne s k hd] at hk'
      simp [hd, hsym.inList_iff hk']
  inMap_iff := by
    intro d k' r hk' hr
    rw [mem_release_map hs h]
    by_cases hd : d = c
    · subst hd
      rw [release_get_self h, Option.some.injEq] at hk'
      simp [← hk', SignalConnectionStatus.allDisconneted]
    · rw [release_get_ne s k hd] at hk'
      simp [hd, hsym.inMap_iff hk' hr]

/-! ## The operations -/

omit [DecidableEq S] in
/-- A side whose bit is set has no entry that could be removed. -/
lemma eraseSlot_eq_self (hsym : s.Symmetric) (h : s.connections[c]? = some k)
    (hk : k.receiver = none ∨ k.status.signalSlotDisConnected = true) {t : SignalState S O}
    (ht : t.connectionMap = s.connectionMap) : t.eraseSlot k.receiver c = t := by
  cases hr : k.receiver with
  | none => rfl
  | some r =>
    have hbit : k.status.signalSlotDisConnected = true := hk.resolve_left (by simp [hr])
    have hc : c ∉ s.connectionMap r := by
      rw [hsym.inMap_iff h hr]
      simp [hbit]
    exact eraseMap_of_notMem (by rw [ht]; exact hc)

omit [DecidableEq O] in
lemma eraseList_eq_self (hsym : s.Symmetric) (h : s.connections[c]? = some k)
    (hk : k.status.signalDisconnected = true) {t : SignalState S O}
    (ht : t.connectionList = s.connectionList) : t.eraseList k.sender c = t := by
  have hc : c ∉ s.connectionList k.sender := by
    rw [hsym.inList_iff h]
    simp [hk]
  exact eraseList_of_notMem (by rw [ht]; exact hc)

/-- The bits of the flag are set already; the bit of the receiver's side does not matter
where there is no receiver. -/
def FlagSet (k : Connection S O) (flag : SignalConnectionStatus) : Prop :=
  (flag.signalDisconnected = true → k.status.signalDisconnected = true) ∧
  (flag.signalSlotDisConnected = true →
    k.receiver = none ∨ k.status.signalSlotDisConnected = true)

lemma disconnected_eq_release (hsym : s.Symmetric) (h : s.connections[c]? = some k)
    (hflag : FlagSet k flag) : s.disconnected c k flag = s.release c k := by
  have hslot : (k.status.or flag).signalSlotDisConnected = true →
      k.receiver = none ∨ k.status.signalSlotDisConnected = true := by
    intro hor
    rcases Bool.or_eq_true_iff.mp hor with hk | hf
    · exact Or.inr hk
    · exact hflag.2 hf
  have hsignal : (k.status.or flag).signalDisconnected = true →
      k.status.signalDisconnected = true := by
    intro hor
    rcases Bool.or_eq_true_iff.mp hor with hk | hf
    · exact hk
    · exact hflag.1 hf
  simp only [disconnected, release]
  split_ifs with h₁ h₂ h₂
  · have hmap : (s.orStatus c .allDisconneted).connectionMap = s.connectionMap := rfl
    have hlist : (s.orStatus c .allDisconneted).connectionList = s.connectionList := rfl
    rw [eraseSlot_eq_self hsym h (hslot h₂) hmap, eraseList_eq_self hsym h (hsignal h₁) hlist]
  · rw [eraseList_eq_self hsym h (hsignal h₁) (by simp)]
  · rw [eraseSlot_eq_self hsym h (hslot h₂) (orStatus_connectionMap s c _)]
  · rfl

/-- Called by the sender, the connection only touches the receiver's side. -/
lemma disconnected_by_sender {t : SignalState S O} (hsym : t.Symmetric)
    (h : t.connections[c]? = some k) (hmap : s.connectionMap = t.connectionMap) :
    s.disconnected c k .disconnected =
      (s.orStatus c .allDisconneted).eraseSlot k.receiver c := by
  simp only [disconnected, SignalConnectionStatus.or, SignalConnectionStatus.disconnected,
    Bool.or_true, Bool.or_false, if_true]
  split_ifs with hbit
  · exact (eraseSlot_eq_self hsym h (Or.inr hbit) (by simpa using hmap)).symm
  · rfl

/-- Called by the receiver, the connection only touches the sender's side. -/
lemma disconnected_by_receiver {t : SignalState S O} (hsym : t.Symmetric)
    (h : t.connections[c]? = some k) (hlist : s.connectionList = t.connectionList) :
    s.disconnected c k .slotDisConnected =
      (s.orStatus c .allDisconneted).eraseList k.sender c := by
  simp only [disconnected, SignalConnectionStatus.or, SignalConnectionStatus.slotDisConnected,
    Bool.or_true, Bool.or_false, if_true]
  split_ifs with hbit
  · exact (eraseList_eq_self hsym h hbit (by simpa using hlist)).symm
  · rfl

/-- In `Signal::disconnectAll` the entry leaves the list only at the end; with the entry
taken out at once, the call is a `release`. -/
lemma setList_disconnected {g : S} {l : List ℕ} (hsym : (s.setList g (c :: l)).Symmetric)
    (h : s.connections[c]? = some k) (hg : k.sender = g) :
    (s.disconnected c k .disconnected).setList g l = (s.setList g (c :: l)).release c k := by
  rw [disconnected_by_sender (s := s) hsym h rfl]
  cases hr : k.receiver with
  | none => simp [release, eraseSlot, eraseList, setList, orStatus, hr, hg]
  | some r => simp [release, eraseSlot, eraseList, setList, orStatus, eraseMap, hr, hg]

/-- The same in `Object::disconnectAll`. -/
lemma setMap_disconnected {r : O} {l : List ℕ} (hsym : (s.setMap r (c :: l)).Symmetric)
    (hl : c ∉ l) (h : s.connections[c]? = some k) (hr : k.receiver = some r) :
    (s.disconnected c k .slotDisConnected).setMap r l = (s.setMap r (c :: l)).release c k := by
  have hfilter : (c :: l).filter (· ≠ c) = l := by
    rw [List.filter_cons_of_neg (by simp), List.filter_eq_self]
    intro d hd
    have hne : d ≠ c := by
      rintro rfl
      exact hl hd
    simpa using hne
  rw [disconnected_by_receiver (s := s) hsym h rfl]
  simp only [release, eraseSlot, eraseList, setMap, orStatus, eraseMap, hr,
    Function.update_self, Function.update_idem, hfilter]

lemma disconnected_connections (s : SignalState S O) (c : ℕ) (k : Connection S O)
    (flag : SignalConnectionStatus) :
    (s.disconnected c k flag).connections = (s.orStatus c .allDisconneted).connections := by
  simp only [disconnected]
  split_ifs <;> simp [eraseList]

lemma hasReceiver_disconnected (s : SignalState S O) (c d : ℕ) (k : Connection S O)
    (flag : SignalConnectionStatus) :
    (s.disconnected c k flag).hasReceiver d = s.hasReceiver d := by
  rw [hasReceiver, disconnected_connections]
  by_cases hd : d = c
  · subst hd
    cases h : s.connections[d]? with
    | none => simp [hasReceiver, orStatus, h]
    | some k' => simp [hasReceiver, orStatus, h]
  · rw [orStatus_get_ne s _ hd, hasReceiver]

/-- The loop of `Signal::disconnectAll`, when every connection of the list has a receiver. -/
lemma signalDisconnectEach_spec (g : S) (l : List ℕ) (hs : (s.setList g l).Sound)
    (hsym : (s.setList g l).Symmetric) (hrecv : ∀ i ∈ l, s.hasReceiver i = true) :
    ∃ s', s.signalDisconnectEach l = some s' ∧ (s'.setList g []).Sound ∧
      (s'.setList g []).Symmetric := by
  induction l generalizing s with
  | nil => exact ⟨s, rfl, hs, hsym⟩
  | cons i l ih =>
    obtain ⟨k, hk, hg⟩ := hs.list_sender (c := i) (g := g) (by simp [setList])
    have hrel := setList_disconnected hsym hk hg
    obtain ⟨s', hs', hsound, hsym'⟩ := ih (s := s.disconnected i k .disconnected)
      (by rw [hrel]; exact hs.release hk) (by rw [hrel]; exact hsym.release hs hk)
      (fun j hj => by
        rw [hasReceiver_disconnected]
        exact hrecv j (List.mem_cons_of_mem _ hj))
    refine ⟨s', ?_, hsound, hsym'⟩
    have hi : s.hasReceiver i = true := hrecv i List.mem_cons_self
    rw [signalDisconnectEach, if_pos hi, disconnect_eq (by exact hk), Option.bind_some, hs']

/-- The loop of `Object::disconnectAll`. -/
lemma objectDisconnectEach_spec (r : O) (l : List ℕ) (hs : (s.setMap r l).Sound)
    (hsym : (s.setMap r l).Symmetric) :
    ∃ s', s.objectDisconnectEach l = some s' ∧ (s'.setMap r []).Sound ∧
      (s'.setMap r []).Symmetric := by
  induction l generalizing s with
  | nil => exact ⟨s, rfl, hs, hsym⟩
  | cons i l ih =>
    obtain ⟨k, hk, hr⟩ := hs.map_receiver (c := i) (r := r) (by simp [setMap])
    have hnodup : (i :: l).Nodup := by
      simpa [setMap] using hs.map_nodup r
    have hrel := setMap_disconnected hsym (List.nodup_cons.mp hnodup).1 hk hr
    obtain ⟨s', hs', hsound, hsym'⟩ := ih (s := s.disconnected i k .slotDisConnected)
      (by rw [hrel]; exact hs.release hk) (by rw [hrel]; exact hsym.release hs hk)
    refine ⟨s', ?_, hsound, hsym'⟩
    rw [objectDisconnectEach, disconnect_eq (by exact hk), Option.bind_some, hs']

lemma connect_get_lt (s : SignalState S O) (g : S) (recvObject : Option O)
    (hc : c < s.connections.length) :
    (s.connect g recvObject).connections[c]? = s.connections[c]? := by
  simp [connect, List.getElem?_append_left hc]

lemma connect_get_new (s : SignalState S O) (g : S) (recvObject : Option O) :
    (s.connect g recvObject).connections[s.connections.length]? =
      some ⟨.normal, g, recvObject⟩ := by
  simp [connect]

/-- A connection after `connect` is an old one or the new one. -/
lemma connect_get_cases {g : S} {recvObject : Option O}
    (h : (s.connect g recvObject).connections[c]? = some k) :
    (c < s.connections.length ∧ s.connections[c]? = some k) ∨
      (c = s.connections.length ∧ k = ⟨.normal, g, recvObject⟩) := by
  rcases Nat.lt_trichotomy c s.connections.length with hc | hc | hc
  · exact Or.inl ⟨hc, by rw [← connect_get_lt s g recvObject hc, h]⟩
  · subst hc
    rw [connect_get_new, Option.some.injEq] at h
    exact Or.inr ⟨rfl, h.symm⟩
  · have hlen : c < (s.connect g recvObject).connections.length :=
      (List.getElem?_eq_some_iff.mp h).1
    simp only [connect, List.length_append, List.length_cons, List.length_nil] at hlen
    omega

lemma mem_connect_list {g g' : S} {recvObject : Option O} :
    c ∈ (s.connect g recvObject).connectionList g' ↔
      c ∈ s.connectionList g' ∨ (g' = g ∧ c = s.connections.length) := by
  by_cases hg : g' = g
  · subst hg
    simp [connect]
  · simp [connect, hg]

lemma mem_connect_map {g : S} {r : O} {recvObject : Option O} :
    c ∈ (s.connect g recvObject).connectionMap r ↔
      c ∈ s.connectionMap r ∨ (recvObject = some r ∧ c = s.connections.length) := by
  cases recvObject with
  | none => simp [connect]
  | some r' =>
    by_cases hr : r = r'
    · subst hr
      simp [connect]
    · simp [connect, Function.update_of_ne hr, Ne.symm hr]

omit [DecidableEq S] [DecidableEq O] in
lemma Sound.lt_of_mem_list (hs : s.Sound) {g : S} (h : c ∈ s.connectionList g) :
    c < s.connections.length := by
  obtain ⟨k, hk, -⟩ := hs.list_sender h
  exact (List.getElem?_eq_some_iff.mp hk).1

omit [DecidableEq S] [DecidableEq O] in
lemma Sound.lt_of_mem_map (hs : s.Sound) {r : O} (h : c ∈ s.connectionMap r) :
    c < s.connections.length := by
  obtain ⟨k, hk, -⟩ := hs.map_receiver h
  exact (List.getElem?_eq_some_iff.mp hk).1

lemma Sound.connect (hs : s.Sound) (g : S) (recvObject : Option O) :
    (s.connect g recvObject).Sound where
  list_sender hc := by
    rcases mem_connect_list.mp hc with hc | ⟨rfl, rfl⟩
    · rw [connect_get_lt s g recvObject (hs.lt_of_mem_list hc)]
      exact hs.list_sender hc
    · exact ⟨_, connect_get_new s _ recvObject, rfl⟩
  map_receiver hc := by
    rcases mem_connect_map.mp hc with hc | ⟨rfl, rfl⟩
    · rw [connect_get_lt s g recvObject (hs.lt_of_mem_map hc)]
      exact hs.map_receiver hc
    · exact ⟨_, connect_get_new s g _, rfl⟩
  list_nodup g' := by
    by_cases hg : g' = g
    · subst hg
      have hnew : s.connections.length ∉ s.connectionList g' :=
        fun h => absurd (hs.lt_of_mem_list h) (lt_irrefl _)
      simpa [SignalState.connect] using (List.nodup_concat _ _).mpr ⟨hnew, hs.list_nodup g'⟩
    · simpa [SignalState.connect, Function.update_of_ne hg] using hs.list_nodup g'
  map_nodup r := by
    cases recvObject with
    | none => exact hs.map_nodup r
    | some r' =>
      by_cases hr : r = r'
      · subst hr
        have hnew : s.connections.length ∉ s.connectionMap r :=
          fun h => absurd (hs.lt_of_mem_map h) (lt_irrefl _)
        simpa [SignalState.connect] using (List.nodup_concat _ _).mpr ⟨hnew, hs.map_nodup r⟩
      · simpa [SignalState.connect, Function.update_of_ne hr] using hs.map_nodup r

lemma Symmetric.connect (hsym : s.Symmetric) (g : S) (recvObject : Option O) :
    (s.connect g recvObject).Symmetric where
  inList_iff := by
    intro c k hk
    rw [mem_connect_list]
    rcases connect_get_cases hk with ⟨hlt, hold⟩ | ⟨rfl, rfl⟩
    · rw [hsym.inList_iff hold]
      simp [hlt.ne]
    · simp [SignalConnectionStatus.normal]
  inMap_iff := by
    intro c k r hk hr
    rw [mem_connect_map]
    rcases connect_get_cases hk with ⟨hlt, hold⟩ | ⟨rfl, rfl⟩
    · rw [hsym.inMap_iff hold hr]
      simp [hlt.ne]
    · simp_all [SignalConnectionStatus.normal]

/-! ## Runs -/

/-- The condition on an operation: a flag that is passed to `Connection::disconnect` is set
already, and `Signal::disconnectAll` finds no connection without a receiver. -/
def KeepsBits (s : SignalState S O) : SignalAction S O → Prop
  | .disconnect conn flag => ∀ k ∈ s.connections[conn]?, FlagSet k flag
  | .signalDisconnectAll g => ∀ c ∈ s.connectionList g, s.hasReceiver c = true
  | _ => True

/-- `Signal::disconnect` of a connection that it holds. -/
lemma signalDisconnect_of_mem (hs : s.Sound) (hsym : s.Symmetric) {g : S}
    (hc : c ∈ s.connectionList g) : ∃ k, s.connections[c]? = some k ∧
      signalDisconnectWith disconnect s g c = some (s.release c k) := by
  obtain ⟨k, hk, rfl⟩ := hs.list_sender hc
  refine ⟨k, hk, ?_⟩
  rw [signalDisconnectWith, if_pos hc, disconnect_eq hk, disconnected_by_sender hsym hk rfl]
  rfl

/-- After `disconnectAll` no connection of that side has the status `SignalNormal`. -/
def Cleared (s : SignalState S O) : SignalAction S O → Prop
  | .signalDisconnectAll g =>
    ∀ (c : ℕ) (k : Connection S O), s.connections[c]? = some k → k.sender = g →
      k.status ≠ .normal
  | .objectDisconnectAll r =>
    ∀ (c : ℕ) (k : Connection S O), s.connections[c]? = some k → k.receiver = some r →
      k.status ≠ .normal
  | _ => True

/-- What one operation keeps. -/
lemma step_symmetric {a : SignalAction S O} (hs : s.Sound) (hsym : s.Symmetric)
    (hok : s.KeepsBits a) (h : s.step a = some s') :
    s'.Sound ∧ s'.Symmetric ∧ s'.Cleared a := by
  cases a with
  | connect g recvObject =>
    obtain rfl := Option.some.inj h
    exact ⟨hs.connect g recvObject, hsym.connect g recvObject, trivial⟩
  | disconnect conn flag =>
    cases hk : s.connections[conn]? with
    | none => simp [step, disconnect, connectionDisconnect, hk] at h
    | some k =>
      rw [step, disconnect_eq hk, disconnected_eq_release hsym hk (hok k hk)] at h
      obtain rfl := Option.some.inj h
      exact ⟨hs.release hk, hsym.release hs hk, trivial⟩
  | signalDisconnect g conn =>
    by_cases hc : conn ∈ s.connectionList g
    · obtain ⟨k, hk, heq⟩ := signalDisconnect_of_mem hs hsym hc
      rw [step, heq] at h
      obtain rfl := Option.some.inj h
      exact ⟨hs.release hk, hsym.release hs hk, trivial⟩
    · rw [step, signalDisconnectWith, if_neg hc] at h
      obtain rfl := Option.some.inj h
      exact ⟨hs, hsym, trivial⟩
  | signalDisconnectAll g =>
    have hset : s.setList g (s.connectionList g) = s := by simp [setList]
    obtain ⟨t, ht, hsound, hsym'⟩ := signalDisconnectEach_spec g (s.connectionList g)
      (by rw [hset]; exact hs) (by rw [hset]; exact hsym) hok
    rw [step, signalDisconnectAll, ht] at h
    obtain rfl := Option.some.inj h
    refine ⟨hsound, hsym', ?_⟩
    rintro c k hk rfl hnormal
    have hmem := (hsym'.inList_iff hk).mpr (by rw [hnormal]; rfl)
    simp [setList] at hmem
  | objectDisconnectAll r =>
    have hset : s.setMap r (s.connectionMap r) = s := by simp [setMap]
    obtain ⟨t, ht, hsound, hsym'⟩ := objectDisconnectEach_spec r (s.connectionMap r)
      (by rw [hset]; exact hs) (by rw [hset]; exact hsym)
    rw [step, objectDisconnectAll, ht] at h
    obtain rfl := Option.some.inj h
    refine ⟨hsound, hsym', ?_⟩
    intro c k hk hr hnormal
    have hmem := (hsym'.inMap_iff hk hr).mpr (by rw [hnormal]; rfl)
    simp [setMap] at hmem

lemma signalDisconnectEach_total (l : List ℕ) (hl : ∀ i ∈ l, i < s.connections.length) :
    ∃ s', s.signalDisconnectEach l = some s' := by
  induction l generalizing s with
  | nil => exact ⟨s, rfl⟩
  | cons i l ih =>
    rw [signalDisconnectEach]
    have hk : s.connections[i]? = some _ := List.getElem?_eq_getElem (hl i List.mem_cons_self)
    split_ifs
    · rw [disconnect_eq hk, Option.bind_some]
      exact ih fun j hj => by
        simpa [disconnected_connections, orStatus] using hl j (List.mem_cons_of_mem _ hj)
    · exact ih fun j hj => hl j (List.mem_cons_of_mem _ hj)

lemma objectDisconnectEach_total (l : List ℕ) (hl : ∀ i ∈ l, i < s.connections.length) :
    ∃ s', s.objectDisconnectEach l = some s' := by
  induction l generalizing s with
  | nil => exact ⟨s, rfl⟩
  | cons i l ih =>
    have hk : s.connections[i]? = some _ := List.getElem?_eq_getElem (hl i List.mem_cons_self)
    rw [objectDisconnectEach, disconnect_eq hk, Option.bind_some]
    exact ih fun j hj => by
      simpa [disconnected_connections, orStatus] using hl j (List.mem_cons_of_mem _ hj)

/-- The connection on which the operation is called was made. -/
def Names (s : SignalState S O) : SignalAction S O → Prop
  | .disconnect conn _ => conn < s.connections.length
  | _ => True

/-- No operation gets stuck. -/
lemma step_total (hs : s.Sound) (hsym : s.Symmetric) {a : SignalAction S O} (ha : s.Names a) :
    ∃ s', s.step a = some s' := by
  cases a with
  | connect g recvObject => exact ⟨_, rfl⟩
  | disconnect conn flag =>
    have hk : s.connections[conn]? = some _ := List.getElem?_eq_getElem ha
    exact ⟨_, disconnect_eq hk⟩
  | signalDisconnect g conn =>
    by_cases hc : conn ∈ s.connectionList g
    · obtain ⟨k, -, heq⟩ := signalDisconnect_of_mem hs hsym hc
      exact ⟨_, heq⟩
    · exact ⟨s, by rw [step, signalDisconnectWith, if_neg hc]⟩
  | signalDisconnectAll g =>
    obtain ⟨t, ht⟩ := signalDisconnectEach_total (s.connectionList g)
      fun i hi => hs.lt_of_mem_list hi
    exact ⟨t.setList g [], by rw [step, signalDisconnectAll, ht, Option.map_some]⟩
  | objectDisconnectAll r =>
    obtain ⟨t, ht⟩ := objectDisconnectEach_total (s.connectionMap r)
      fun i hi => hs.lt_of_mem_map hi
    exact ⟨t.setMap r [], by rw [step, objectDisconnectAll, ht, Option.map_some]⟩

omit [DecidableEq S] [DecidableEq O] in
lemma init_sound : (init : SignalState S O).Sound where
  list_sender h := absurd h (by simp [init])
  map_receiver h := absurd h (by simp [init])
  list_nodup _ := List.nodup_nil
  map_nodup _ := List.nodup_nil

omit [DecidableEq S] [DecidableEq O] in
lemma init_symmetric : (init : SignalState S O).Symmetric where
  inList_iff h := absurd h (by simp [init])
  inMap_iff h := absurd h (by simp [init])

lemma run_symmetric {as : List (SignalAction S O)}
    (hok : Lib.AllSteps step KeepsBits init as) (hrun : Lib.run step init as = some s) :
    s.Sound ∧ s.Symmetric :=
  Lib.run_inv_of_allSteps (I := fun s => s.Sound ∧ s.Symmetric)
    (fun _ _ _ hs hok h =>
      have hstep := step_symmetric hs.1 hs.2 hok h
      ⟨hstep.1, hstep.2.1⟩)
    ⟨init_sound, init_symmetric⟩ hok hrun

/-- **Signals and receivers agree.** In every run that calls `Signal::disconnectAll` only on
signals whose connections all have a receiver, and passes to `Connection::disconnect` no bit
that is clear, the tables of both sides agree with the status of every connection between
two operations; after `disconnectAll` no connection of that side is left with the status
`SignalNormal`; and the next operation always returns. -/
theorem connections_symmetric (as : List (SignalAction S O)) (s : SignalState S O)
    (hok : Lib.AllSteps step KeepsBits init as) (hrun : Lib.run step init as = some s) :
    s.Symmetric ∧ (∀ a ∈ as.getLast?, s.Cleared a) ∧ ∀ a, s.Names a → ∃ s', s.step a = some s' := by
  obtain ⟨hsound, hsym⟩ := run_symmetric hok hrun
  refine ⟨hsym, ?_, fun a ha => step_total hsound hsym ha⟩
  intro a ha
  obtain ⟨bs, rfl⟩ := List.getLast?_eq_some_iff.mp ha
  obtain ⟨hbs, hlast⟩ := Lib.allSteps_append.mp hok
  obtain ⟨s₁, hs₁, hstep⟩ := Lib.run_concat_eq_some.mp hrun
  obtain ⟨hsound₁, hsym₁⟩ := run_symmetric hbs hs₁
  exact (step_symmetric hsound₁ hsym₁ (hlast s₁ hs₁).1 hstep).2.2

instance decidableKeepsBits (s : SignalState S O) (a : SignalAction S O) :
    Decidable (s.KeepsBits a) :=
  match a with
  | .disconnect conn flag =>
    have : DecidablePred fun k : Connection S O => FlagSet k flag := fun _ =>
      inferInstanceAs (Decidable (_ ∧ _))
    inferInstanceAs (Decidable (∀ k ∈ s.connections[conn]?, FlagSet k flag))
  | .signalDisconnectAll g =>
    inferInstanceAs (Decidable (∀ c ∈ s.connectionList g, s.hasReceiver c = true))
  | .connect _ _ | .signalDisconnect _ _ | .objectDisconnectAll _ => isTrue trivial

/-- Two connections with a receiver and one without: the last is disconnected by itself, the
first by its signal, and the second by `disconnectAll` of the signal. -/
theorem disconnectAll_with_receivers : ∃ s : SignalState Bool Unit,
    Lib.run step init [.connect true (some ()), .connect true (some ()), .connect true none,
      .disconnect 2 .normal, .signalDisconnect true 0, .signalDisconnectAll true] = some s ∧
    s.connections.map Connection.status =
      [.allDisconneted, .allDisconneted, .allDisconneted] ∧
    s.Symmetric := by
  let as : List (SignalAction Bool Unit) := [.connect true (some ()), .connect true (some ()),
    .connect true none, .disconnect 2 .normal, .signalDisconnect true 0,
    .signalDisconnectAll true]
  have hok : Lib.AllSteps step KeepsBits init as := by decide +kernel
  have hrun : (Lib.run step init as).map (fun s => s.connections.map Connection.status) =
      some [.allDisconneted, .allDisconneted, .allDisconneted] := by decide +kernel
  obtain ⟨s, hs, hstatus⟩ := Option.map_eq_some_iff.mp hrun
  exact ⟨s, hs, hstatus, (connections_symmetric as s hok hs).1⟩

/-- A connection made by `connectFunc` is dropped by `Signal::disconnectAll` with its bits
clear. -/
theorem disconnectAll_without_receiver : ∃ s : SignalState Unit Unit,
    Lib.run step init [.connect () none, .signalDisconnectAll ()] = some s ∧
    ¬ s.Symmetric ∧ ¬ s.Cleared (.signalDisconnectAll ()) := by
  let as : List (SignalAction Unit Unit) := [.connect () none, .signalDisconnectAll ()]
  have hrun : (Lib.run step init as).map (fun s => (s.connections, s.connectionList ())) =
      some ([⟨.normal, (), none⟩], []) := by decide +kernel
  obtain ⟨s, hs, hobs⟩ := Option.map_eq_some_iff.mp hrun
  rw [Prod.mk.injEq] at hobs
  have hget : s.connections[0]? = some ⟨.normal, (), none⟩ := by rw [hobs.1]; rfl
  refine ⟨s, hs, fun hsym => ?_, fun hclear => hclear 0 _ hget rfl rfl⟩
  have hmem : 0 ∈ s.connectionList () := (hsym.inList_iff hget).mpr rfl
  rw [hobs.2] at hmem
  exact absurd hmem (by simp)

end SignalState

end SignalEventLoop.Core

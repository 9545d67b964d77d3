/-
# Tokens and descriptors of active connections

`token_directory` and `connections_map` should be inverse to each other, and `activeConnect`
should return a token that was not in use.  The search for a token has 1000 tries and then
compares `max_try_times` with 0, but the test of its loop has taken one more off: when all
tries have met an occupied token, `max_try_times` is 0xffffffff, and the token after the last
try is used, whatever it is.  The two maps stay inverse if and only if this token is never an
occupied one (`FreeToken`).  Tokens are given out one after the other, so it takes 2^32
connections before there are occupied tokens ahead.
-/
import SignalEventLoop.Network.ITcpServer

namespace SignalEventLoop.Network

namespace ITcpServer

/-- The events that finish a connection, each of which runs `release_task`. -/
inductive Completion where
  | writeReady
  | errorEvent
  | closeEvent
  | timeout
deriving DecidableEq

/-- The operations of a server whose slots do not call back. -/
inductive ServerOp where
  | activeConnect (request : ConnectRequest)
  | cancelActiveConnecttion (token : ℕ)
  | stopAll
  /-- An event of the task of this descriptor. -/
  | complete (event : Completion) (fd : ℕ)

/-- The state after an operation.  `socket` does not return a descriptor that is open, as those
of `connections_map` are, and only the tasks of this map have a channel and a timer. -/
def step (s : ITcpServer) : ServerOp → Option ITcpServer
  | .activeConnect request =>
    if (request.socket.bind fun fd => s.connectionsMap[fd]?) = none then
      some (s.activeConnect request).2
    else none
  | .cancelActiveConnecttion token => some (s.cancelActiveConnecttion token)
  | .stopAll => some s.stopAll
  | .complete _ fd => s.connectionsMap[fd]?.map s.releaseTask

/-- A token belongs to a descriptor if and only if the task of the descriptor has this
token. -/
def Inverse (s : ITcpServer) : Prop :=
  ∀ token fd, s.tokenDirectory[token]? = some fd ↔
    ∃ task : ConnectionTask, s.connectionsMap[fd]? = some task ∧ task.token = token

/-- `activeConnect` returns 0 or a token that is not in use. -/
def FreshReturn (s : ITcpServer) : ServerOp → Prop
  | .activeConnect request =>
    (s.activeConnect request).1 = 0 ∨ s.tokenDirectory[(s.activeConnect request).1]? = none
  | _ => True

/-- All tries meet occupied tokens, and the token after the last one is occupied too. -/
def Exhausted (directory : Std.ExtTreeMap ℕ ℕ) (random : ℕ → ℕ) : ℕ → ℕ → Prop
  | 0, token => token ≠ 0 ∧ directory[token]? ≠ none
  | max_try_times + 1, token => directory[skipZero token]? ≠ none ∧
    Exhausted directory random max_try_times
      (add32 (skipZero token) (stride max_try_times (random max_try_times)))

/-- The condition on an operation: an `activeConnect` that gets addresses and a descriptor
does not exhaust its tries before an occupied token. -/
def FreeToken (s : ITcpServer) : ServerOp → Prop
  | .activeConnect request => request.resolved = true → request.socket ≠ none →
    ¬ Exhausted s.tokenDirectory request.random 1000 s.nextToken
  | _ => True

variable {s s' : ITcpServer} {directory : Std.ExtTreeMap ℕ ℕ} {random : ℕ → ℕ}

/-! ## The search for a token -/

lemma findToken_of_exhausted {n token : ℕ} (h : Exhausted directory random n token) :
    ∃ t, findToken directory random n token = (2 ^ 32 - 1, t) ∧ t ≠ 0 ∧ directory[t]? ≠ none := by
  induction n generalizing token with
  | zero => exact ⟨token, rfl, h⟩
  | succ n ih =>
    obtain ⟨hoccupied, hrest⟩ := h
    rw [findToken, if_neg hoccupied]
    exact ih hrest

lemma findToken_of_not_exhausted {n token : ℕ} (h : ¬ Exhausted directory random n token) :
    (findToken directory random n token).2 = 0 ∨
      directory[(findToken directory random n token).2]? = none := by
  induction n generalizing token with
  | zero =>
    by_contra hno
    exact h ⟨fun hzero => hno (Or.inl hzero), fun hnone => hno (Or.inr hnone)⟩
  | succ n ih =>
    rw [findToken]
    by_cases hoccupied : directory[skipZero token]? = none
    · rw [if_pos hoccupied]
      exact Or.inr hoccupied
    · rw [if_neg hoccupied]
      exact ih fun hrest => h ⟨hoccupied, hrest⟩

/-- The token of `activeConnect` is occupied if and only if the tries are exhausted. -/
lemma chooseToken_occupied_iff (random : ℕ → ℕ) :
    (s.chooseToken random ≠ 0 ∧ s.tokenDirectory[s.chooseToken random]? ≠ none) ↔
      Exhausted s.tokenDirectory random 1000 s.nextToken := by
  constructor
  · rintro ⟨hzero, hoccupied⟩
    by_contra hnot
    rw [chooseToken] at hzero hoccupied
    dsimp only at hzero hoccupied
    by_cases hleft : (findToken s.tokenDirectory random 1000 s.nextToken).1 = 0
    · exact hzero (if_pos hleft)
    · rw [if_neg hleft] at hzero hoccupied
      exact (findToken_of_not_exhausted hnot).elim hzero hoccupied
  · intro h
    obtain ⟨t, hfind, hzero, hoccupied⟩ := findToken_of_exhausted h
    have ht : s.chooseToken random = t := by
      rw [chooseToken, hfind]
      exact if_neg (by norm_num)
    rw [ht]
    exact ⟨hzero, hoccupied⟩

lemma activeConnect_of_token {request : ConnectRequest} {fd : ℕ}
    (hresolved : request.resolved = true) (hsocket : request.socket = some fd)
    (htoken : s.chooseToken request.random ≠ 0) :
    s.activeConnect request =
      (s.chooseToken request.random, s.enter (s.chooseToken request.random) fd) := by
  rw [activeConnect, if_pos hresolved]
  dsimp only
  rw [if_pos (Nat.pos_of_ne_zero htoken), hsocket]

/-- What `activeConnect` does: nothing, or it enters a task with the token. -/
lemma activeConnect_cases (request : ConnectRequest) :
    s.activeConnect request = (0, s) ∨
      (request.resolved = true ∧ s.chooseToken request.random ≠ 0 ∧
        ∃ fd, request.socket = some fd ∧
          s.activeConnect request =
            (s.chooseToken request.random, s.enter (s.chooseToken request.random) fd)) := by
  by_cases hresolved : request.resolved = true
  · by_cases htoken : s.chooseToken request.random = 0
    · refine Or.inl ?_
      rw [activeConnect, if_pos hresolved]
      dsimp only
      rw [if_neg (by omega)]
    · cases hsocket : request.socket with
      | none =>
        refine Or.inl ?_
        rw [activeConnect, if_pos hresolved]
        dsimp only
        rw [if_pos (Nat.pos_of_ne_zero htoken), hsocket]
      | some fd =>
        exact Or.inr ⟨hresolved, htoken, fd, rfl,
          activeConnect_of_token hresolved hsocket htoken⟩
  · exact Or.inl (if_neg hresolved)

/-- The condition says when the returned token is not in use. -/
lemma freshReturn_iff_freeToken (op : ServerOp) : s.FreshReturn op ↔ s.FreeToken op := by
  cases op with
  | cancelActiveConnecttion token => exact Iff.rfl
  | stopAll => exact Iff.rfl
  | complete event fd => exact Iff.rfl
  | activeConnect request =>
    constructor
    · intro hfresh hresolved hsocket hexhausted
      obtain ⟨htoken, hoccupied⟩ := (chooseToken_occupied_iff request.random).mpr hexhausted
      obtain ⟨fd, hfd⟩ := Option.ne_none_iff_exists'.mp hsocket
      rw [FreshReturn, activeConnect_of_token hresolved hfd htoken] at hfresh
      exact hfresh.elim htoken hoccupied
    · intro hfree
      rcases activeConnect_cases (s := s) request with hnone | ⟨hresolved, htoken, fd, hfd, hsome⟩
      · exact Or.inl (by rw [hnone])
      · refine Or.inr ?_
        rw [hsome]
        by_contra hoccupied
        exact hfree hresolved (by rw [hfd]; simp)
          ((chooseToken_occupied_iff request.random).mp ⟨htoken, hoccupied⟩)

/-! ## The two maps -/

/-- The maps are inverse, and the tasks stand under their descriptors. -/
structure Booked (s : ITcpServer) : Prop where
  inverse : s.Inverse
  fd_eq : ∀ (fd : ℕ) (task : ConnectionTask), s.connectionsMap[fd]? = some task → task.fd = fd

lemma booked_init : Booked init where
  inverse := by
    intro token fd
    simp [init]
  fd_eq := by
    intro fd task h
    simp [init] at h

lemma Booked.token_injective (h : Booked s) {fd fd' : ℕ} {task task' : ConnectionTask}
    (hfd : s.connectionsMap[fd]? = some task) (hfd' : s.connectionsMap[fd']? = some task')
    (htoken : task.token = task'.token) : fd = fd' := by
  have h₁ := (h.inverse task.token fd).mpr ⟨task, hfd, rfl⟩
  have h₂ := (h.inverse task.token fd').mpr ⟨task', hfd', htoken.symm⟩
  exact Option.some.inj (h₁.symm.trans h₂)

/-- A task with a new descriptor and a new token. -/
lemma Booked.enter (h : Booked s) {token fd : ℕ} (htoken : s.tokenDirectory[token]? = none)
    (hfd : s.connectionsMap[fd]? = none) : Booked (s.enter token fd) where
  inverse := by
    intro t f
    simp only [ITcpServer.enter, Lib.getElem?_insertIfNew_of_getElem?_eq_none htoken,
      Lib.getElem?_insertIfNew_of_getElem?_eq_none hfd]
    by_cases ht : token = t
    · subst ht
      by_cases hf : fd = f
      · subst hf
        simp
      · simp only [if_true, Option.some.injEq, hf, false_iff]
        rintro ⟨task, htask, htok⟩
        exact absurd ((h.inverse token f).mpr ⟨task, htask, htok⟩) (by rw [htoken]; simp)
    · by_cases hf : fd = f
      · subst hf
        simp only [if_neg ht, if_true, Option.some.injEq]
        constructor
        · intro hdir
          obtain ⟨task, htask, -⟩ := (h.inverse t fd).mp hdir
          exact absurd htask (by rw [hfd]; simp)
        · rintro ⟨task, rfl, htok⟩
          exact absurd htok ht
      · simp only [if_neg ht, if_neg hf]
        exact h.inverse t f
  fd_eq := by
    intro f task htask
    rcases Lib.getElem?_insertIfNew_eq_some htask with htask | ⟨rfl, rfl⟩
    · exact h.fd_eq f task htask
    · rfl

/-- The entries of a task are taken out of both maps. -/
lemma Booked.release (h : Booked s) {fd : ℕ} {task : ConnectionTask}
    (hfd : s.connectionsMap[fd]? = some task) :
    Booked { s with
      connectionsMap := s.connectionsMap.erase fd
      tokenDirectory := s.tokenDirectory.erase task.token } where
  inverse := by
    intro t f
    simp only [Lib.getElem?_erase_eq_some]
    constructor
    · rintro ⟨hne, hdir⟩
      obtain ⟨task', htask', htok'⟩ := (h.inverse t f).mp hdir
      refine ⟨task', ⟨?_, htask'⟩, htok'⟩
      rintro rfl
      rw [hfd] at htask'
      exact hne (by rw [Option.some.inj htask']; exact htok')
    · rintro ⟨task', ⟨hne, htask'⟩, htok'⟩
      refine ⟨?_, (h.inverse t f).mpr ⟨task', htask', htok'⟩⟩
      intro htok
      exact hne (h.token_injective hfd htask' (htok.trans htok'.symm))
  fd_eq := by
    intro f task' htask'
    exact h.fd_eq f task' (Lib.getElem?_erase_eq_some.mp htask').2

/-- No token is left when all tasks are gone. -/
lemma Booked.stopAll (h : Booked s) : Booked s.stopAll where
  inverse := by
    intro t f
    have hfold : s.connectionsMap.toList.foldl (fun m e => m.erase e.2.token) s.tokenDirectory =
        (s.connectionsMap.toList.map fun e => (e.2.token, e.1)).foldl (fun m e => m.erase e.1)
          s.tokenDirectory := by
      rw [List.foldl_map]
    rw [ITcpServer.stopAll]
    dsimp only
    rw [hfold, Lib.getElem?_foldl_erase_eq_some]
    simp only [Std.ExtTreeMap.getElem?_empty, reduceCtorEq, false_and, exists_false, iff_false,
      not_and]
    intro hall hdir
    obtain ⟨task, htask, htok⟩ := (h.inverse t f).mp hdir
    refine hall (task.token, f) (List.mem_map.mpr ⟨(f, task), ?_, rfl⟩) htok
    exact Std.ExtTreeMap.mem_toList_iff_getElem?_eq_some.mpr htask
  fd_eq := by
    intro f task htask
    simp [ITcpServer.stopAll] at htask

lemma Booked.next (h : Booked s) {op : ServerOp} (hfree : s.FreeToken op)
    (hs' : s.step op = some s') : Booked s' := by
  cases op with
  | activeConnect request =>
    rw [step] at hs'
    split_ifs at hs' with hfresh
    obtain rfl := Option.some.inj hs'
    rcases activeConnect_cases (s := s) request with hnone | ⟨hresolved, htoken, fd, hfd, hsome⟩
    · rw [hnone]
      exact h
    · rw [hsome]
      refine h.enter ?_ (by simpa [hfd] using hfresh)
      by_contra hoccupied
      exact hfree hresolved (by rw [hfd]; simp)
        ((chooseToken_occupied_iff request.random).mp ⟨htoken, hoccupied⟩)
  | cancelActiveConnecttion token =>
    obtain rfl := Option.some.inj hs'
    rw [ITcpServer.cancelActiveConnecttion]
    cases hdir : s.tokenDirectory[token]? with
    | none => exact h
    | some fd =>
      obtain ⟨task, htask, rfl⟩ := (h.inverse token fd).mp hdir
      exact h.release htask
  | stopAll =>
    obtain rfl := Option.some.inj hs'
    exact h.stopAll
  | complete event fd =>
    obtain ⟨task, htask, rfl⟩ := Option.map_eq_some_iff.mp hs'
    rw [releaseTask, h.fd_eq fd task htask]
    exact h.release htask

/-- **The bookkeeping of active connections.** In a run of a server whose slots do not call
back, every `activeConnect` returns 0 or a token that was not in use, and the two maps are
inverse between the operations, if and only if no `activeConnect` exhausts its tries before an
occupied token. -/
theorem active_connect_bookkeeping_iff (ops : List ServerOp) :
    (Lib.AllSteps step FreshReturn init ops ∧ Lib.AllStates step Inverse init ops) ↔
      Lib.AllSteps step FreeToken init ops := by
  constructor
  · rintro ⟨hfresh, -⟩
    exact hfresh.imp fun s op => (freshReturn_iff_freeToken op).mp
  · intro hfree
    refine ⟨hfree.imp fun s op => (freshReturn_iff_freeToken op).mpr, ?_⟩
    exact Lib.allStates_of_allSteps (fun _ _ _ h hok hs' => h.next hok hs')
      (fun _ h => h.inverse) booked_init hfree

/-! ## A search that is exhausted -/

/-- A request that gets this descriptor; the random values are 0. -/
def sampleRequest (fd : ℕ) : ConnectRequest := ⟨true, fun _ => 0, some fd⟩

/-- The tokens from 1 to `n` are pending, each with the descriptor of the same number. -/
structure Pending (n : ℕ) (s : ITcpServer) : Prop where
  tokens : ∀ t, s.tokenDirectory[t]? = if 1 ≤ t ∧ t ≤ n then some t else none
  descriptors : ∀ fd : ℕ, s.connectionsMap[fd]? = none ↔ ¬ (1 ≤ fd ∧ fd ≤ n)

lemma pending_init : Pending 0 init where
  tokens := by
    intro t
    rw [if_neg (by omega)]
    simp [init]
  descriptors := by
    intro fd
    simp only [init, Std.ExtTreeMap.getElem?_empty, true_iff]
    omega

/-- The next token is taken when it is free. -/
lemma chooseToken_of_free (hfree : s.tokenDirectory[skipZero s.nextToken]? = none)
    (random : ℕ → ℕ) : s.chooseToken random = skipZero s.nextToken := by
  rw [chooseToken, findToken, if_pos hfree]
  rfl

/-- A connection with the next token. -/
lemma step_activeConnect {m fd : ℕ} (hm : skipZero s.nextToken = m)
    (hfree : s.tokenDirectory[m]? = none) (hfd : s.connectionsMap[fd]? = none) :
    s.step (.activeConnect (sampleRequest fd)) = some (s.enter m fd) := by
  have htoken : s.chooseToken (sampleRequest fd).random = m := by
    rw [chooseToken_of_free (by rw [hm]; exact hfree), hm]
  have hpos : m ≠ 0 := by
    rw [← hm, skipZero]
    split_ifs <;> omega
  rw [step, if_pos (by simpa [sampleRequest] using hfd),
    activeConnect_of_token rfl rfl (by rw [htoken]; exact hpos), htoken]

lemma Pending.enter {n : ℕ} (h : Pending n s) : Pending (n + 1) (s.enter (n + 1) (n + 1)) where
  tokens := by
    intro t
    have hfree : s.tokenDirectory[n + 1]? = none := by
      rw [h.tokens, if_neg (by omega)]
    simp only [ITcpServer.enter, Lib.getElem?_insertIfNew_of_getElem?_eq_none hfree, h.tokens]
    split_ifs <;> first | omega | simp_all
  descriptors := by
    intro fd
    have hfree : s.connectionsMap[n + 1]? = none := (h.descriptors _).mpr (by omega)
    simp only [ITcpServer.enter, Lib.getElem?_insertIfNew_of_getElem?_eq_none hfree]
    split_ifs with hfd
    · simp only [false_iff, not_not]
      omega
    · rw [h.descriptors]
      omega

/-- Any number of connections can be pending. -/
lemma exists_pending (n : ℕ) (hn : n + 1 < 2 ^ 32) :
    ∃ ops s, Lib.run step init ops = some s ∧ Pending n s ∧ skipZero s.nextToken = n + 1 := by
  induction n with
  | zero => exact ⟨[], init, rfl, pending_init, rfl⟩
  | succ n ih =>
    obtain ⟨ops, s, hrun, h, hnext⟩ := ih (by omega)
    have hstep : s.step (.activeConnect (sampleRequest (n + 1))) =
        some (s.enter (n + 1) (n + 1)) :=
      step_activeConnect hnext (by rw [h.tokens, if_neg (by omega)])
        ((h.descriptors _).mpr (by omega))
    refine ⟨ops ++ [.activeConnect (sampleRequest (n + 1))], s.enter (n + 1) (n + 1),
      Lib.run_concat_eq_some.mpr ⟨s, hrun, hstep⟩, h.enter, ?_⟩
    show skipZero (add32 (n + 1) 1) = n + 1 + 1
    rw [add32_eq (by omega), skipZero, if_neg (by omega)]

/-- A connection that is cancelled at once uses up a token. -/
lemma Pending.cycle {n m : ℕ} (h : Pending n s) (hm : skipZero s.nextToken = m) (hlt : n < m) :
    ∃ s', Lib.run step s [.activeConnect (sampleRequest 0), .cancelActiveConnecttion m] = some s' ∧
      Pending n s' ∧ s'.nextToken = add32 m 1 := by
  have hfree : s.tokenDirectory[m]? = none := by
    rw [h.tokens, if_neg (by omega)]
  have hfd : s.connectionsMap[0]? = none := (h.descriptors 0).mpr (by omega)
  have hdir : (s.enter m 0).tokenDirectory[m]? = some 0 := by
    rw [ITcpServer.enter, Lib.getElem?_insertIfNew_of_getElem?_eq_none hfree, if_pos rfl]
  have hcancel : (s.enter m 0).cancelActiveConnecttion m =
      { s with nextToken := add32 m 1, nextId := s.nextId + 1 } := by
    rw [cancelActiveConnecttion, hdir]
    simp only [ITcpServer.enter, Lib.erase_insertIfNew hfree, Lib.erase_insertIfNew hfd]
  refine ⟨{ s with nextToken := add32 m 1, nextId := s.nextId + 1 }, ?_,
    ⟨h.tokens, h.descriptors⟩, rfl⟩
  rw [Lib.run_cons, step_activeConnect hm hfree hfd, Option.bind_some, Lib.run_cons, step,
    Option.bind_some, Lib.run_nil, hcancel]

/-- The tokens wrap around while the first ones stay pending. -/
lemma exists_wrapped (n j : ℕ) (hn : 0 < n) (hlt : n + 1 < 2 ^ 32) (hj : n + 1 + j ≤ 2 ^ 32) :
    ∃ ops s, Lib.run step init ops = some s ∧ Pending n s ∧
      s.nextToken = (n + 1 + j) % 2 ^ 32 := by
  induction j with
  | zero =>
    obtain ⟨ops, s, hrun, h, hnext⟩ := exists_pending n hlt
    refine ⟨ops, s, hrun, h, ?_⟩
    rw [Nat.add_zero, Nat.mod_eq_of_lt hlt]
    rw [skipZero] at hnext
    split_ifs at hnext <;> omega
  | succ j ih =>
    obtain ⟨ops, s, hrun, h, hnext⟩ := ih (by omega)
    rw [Nat.mod_eq_of_lt (by omega)] at hnext
    have hm : skipZero s.nextToken = n + 1 + j := by
      rw [hnext, skipZero, if_neg (by omega)]
    obtain ⟨s', hcycle, h', hnext'⟩ := h.cycle hm (by omega)
    exact ⟨_, s', Lib.run_append_eq_some.mpr ⟨s, hrun, hcycle⟩, h', hnext'⟩

lemma stride_pos_le (n r : ℕ) : 1 ≤ stride n r ∧ stride n r ≤ 200 := by
  have := Nat.mod_lt r (show 100 > 0 by norm_num)
  rw [stride]
  split_ifs <;> omega

/-- The search stays below its start and 200 for every try. -/
lemma exhausted_of_pending {K : ℕ} (h : Pending K s) (hK : K + 200 < 2 ^ 32) (random : ℕ → ℕ)
    (n token : ℕ) (hle : skipZero token + 200 * n ≤ K) (hzero : token ≠ 0 ∨ 0 < n) :
    Exhausted s.tokenDirectory random n token := by
  have hpos : 1 ≤ skipZero token := by
    rw [skipZero]
    split_ifs <;> omega
  have hoccupied : s.tokenDirectory[skipZero token]? ≠ none := by
    rw [h.tokens, if_pos ⟨hpos, by omega⟩]
    simp
  induction n generalizing token with
  | zero =>
    have hne : token ≠ 0 := hzero.resolve_right (by omega)
    rw [skipZero, if_neg hne] at hoccupied
    exact ⟨hne, hoccupied⟩
  | succ n ih =>
    obtain ⟨hone, htwo⟩ := stride_pos_le n (random n)
    have hnext : add32 (skipZero token) (stride n (random n)) =
        skipZero token + stride n (random n) := add32_eq (by omega)
    have hskip : skipZero (skipZero token + stride n (random n)) =
        skipZero token + stride n (random n) := if_neg (by omega)
    refine ⟨hoccupied, ?_⟩
    rw [hnext]
    refine ih _ (by omega) (by omega) (by omega) ?_
    rw [hskip, h.tokens, if_pos ⟨by omega, by omega⟩]
    simp

/-- With the tokens 1 to 200001 pending and the next token wrapped around to 0, `activeConnect`
returns a token that is in use, and the maps are not inverse any more. -/
theorem occupied_token_returned : ∃ (ops : List ServerOp) (s s' : ITcpServer),
    Lib.run step init ops = some s ∧
    s.step (.activeConnect (sampleRequest 0)) = some s' ∧
    (s.activeConnect (sampleRequest 0)).1 ≠ 0 ∧
    s.tokenDirectory[(s.activeConnect (sampleRequest 0)).1]? ≠ none ∧ ¬ s'.Inverse := by
  obtain ⟨ops, s, hrun, h, hnext⟩ := exists_wrapped 200001 (2 ^ 32 - 200002) (by norm_num)
    (by norm_num) (by norm_num)
  have hexhausted : Exhausted s.tokenDirectory (sampleRequest 0).random 1000 s.nextToken := by
    rw [hnext]
    exact exhausted_of_pending h (by norm_num) _ 1000 _ (by decide) (Or.inr (by norm_num))
  obtain ⟨htoken, hoccupied⟩ := (chooseToken_occupied_iff _).mpr hexhausted
  have hfd : s.connectionsMap[0]? = none := (h.descriptors 0).mpr (by omega)
  have hconnect : s.activeConnect (sampleRequest 0) =
      (s.chooseToken (sampleRequest 0).random,
        s.enter (s.chooseToken (sampleRequest 0).random) 0) :=
    activeConnect_of_token rfl rfl htoken
  obtain ⟨t, ht⟩ : ∃ t, s.chooseToken (sampleRequest 0).random = t := ⟨_, rfl⟩
  rw [ht] at hconnect htoken hoccupied
  refine ⟨ops, s, s.enter t 0, hrun, ?_, by rw [hconnect]; exact htoken,
    by rw [hconnect]; exact hoccupied, fun hinverse => ?_⟩
  · rw [step, if_pos (by simpa [sampleRequest] using hfd), hconnect]
  · -- the new task has the token `t`, which stays with the descriptor `t`
    have hold : (s.enter t 0).tokenDirectory[t]? = some t := by
      refine Lib.getElem?_insertIfNew_of_eq_some ?_
      rw [h.tokens] at hoccupied ⊢
      split_ifs at hoccupied ⊢
      · rfl
      · exact absurd rfl hoccupied
    have hnew : (s.enter t 0).connectionsMap[0]? = some ⟨s.nextId, t, 0⟩ := by
      rw [ITcpServer.enter, Lib.getElem?_insertIfNew_of_getElem?_eq_none hfd, if_pos rfl]
    have hzero := (hinverse t 0).mpr ⟨_, hnew, rfl⟩
    rw [hold] at hzero
    exact htoken (Option.some.inj hzero)

end ITcpServer

end SignalEventLoop.Network

/-
# What the logger keeps

Under the lock a text goes to the end of `m_log_buf`, and the thread of the logger takes it from
the front, whatever the order of the steps is.  It appends it to the log file, or rotates the log
files before it does.  So the rotated files and the log, one behind the other, are the accepted
texts as far as they are not in the queue any more, less the lines of whole files that a rotation
removed.  When the thread is stopped, it ends with an empty queue, unless it was stopped before it
tested `m_stop` for the first time.
-/
import SignalEventLoop.Log.AimyLogger

namespace SignalEventLoop.Log

open Lib

namespace LoggerSystem

variable {s s' t : LoggerSystem} {a : Action} {order : List Bytes} {fopen : Bool}

/-! ## The queue -/

lemma step_eq_some : s.step a = some s' ↔
    s.logger.m_thread ≠ some .crashed ∧ ¬ (s.needsLock a ∧ s.Locked) ∧ s.act a = some s' := by
  rw [step]
  split_ifs with hcrashed hlock
  · exact ⟨fun h => absurd h (by simp), fun h => absurd hcrashed h.1⟩
  · exact ⟨fun h => absurd h (by simp), fun h => absurd hlock h.2.1⟩
  · exact ⟨fun h => ⟨hcrashed, hlock, h⟩, fun h => h.2.2⟩

/-- What writing to the file does not change. -/
structure SameQueue (s s' : LoggerSystem) : Prop where
  m_stop : s'.logger.m_stop = s.logger.m_stop
  m_log_buf : s'.logger.m_log_buf = s.logger.m_log_buf

lemma SameQueue.refl (s : LoggerSystem) : SameQueue s s :=
  ⟨rfl, rfl⟩

lemma SameQueue.trans (h : SameQueue s s') (h' : SameQueue s' t) : SameQueue s t :=
  ⟨h'.m_stop.trans h.m_stop, h'.m_log_buf.trans h.m_log_buf⟩

lemma sameQueue_open_file {opened : Bool} (h : s.open_file order fopen = some (s', opened)) :
    SameQueue s s' := by
  have hbefore : SameQueue s (s.beforeOpen order).fopenLog := by
    rw [beforeOpen]
    split_ifs <;> exact ⟨rfl, rfl⟩
  rw [open_file] at h
  split_ifs at h
  all_goals
    obtain ⟨rfl, -⟩ := Prod.ext_iff.mp (Option.some.inj h)
    first
      | exact hbefore
      | exact SameQueue.refl s

lemma sameQueue_writeLog {log_info : Bytes} (h : s.writeLog order fopen log_info = some s') :
    SameQueue s s' := by
  obtain ⟨⟨s₁, opened⟩, hopen, rfl⟩ := Option.map_eq_some_iff.mp h
  refine (sameQueue_open_file hopen).trans ?_
  cases opened <;> exact ⟨rfl, rfl⟩

lemma sameQueue_checkErrors (s : LoggerSystem) : SameQueue s s.checkErrors := by
  rw [checkErrors]
  split_ifs
  · exact ⟨rfl, rfl⟩
  · exact SameQueue.refl s

/-- The inner loop once: the process ends, or the text is taken from the queue. -/
lemma write_cases {text : Bytes} {rest : List Bytes} (h : s.logger.m_log_buf = text :: rest) :
    (s.open_file order fopen = none ∧ s.write order fopen = s.setThread (some .crashed)) ∨
      ∃ s₁, s.writeLog order fopen (text ++ LINE_END) = some s₁ ∧
        (s.open_file order fopen).isSome ∧ s.write order fopen = s₁.checkErrors.pop ∧
        s₁.checkErrors.logger.m_log_buf = text :: rest := by
  simp only [write, h]
  cases hopen : s.open_file order fopen with
  | none =>
    left
    simp [writeLog, hopen]
  | some opened =>
    right
    have hwrite : (s.writeLog order fopen (text ++ LINE_END)).isSome := by simp [writeLog, hopen]
    obtain ⟨s₁, hs₁⟩ := Option.isSome_iff_exists.mp hwrite
    refine ⟨s₁, hs₁, rfl, by rw [hs₁], ?_⟩
    exact ((sameQueue_writeLog hs₁).trans (sameQueue_checkErrors s₁)).m_log_buf.trans h

/-- The queue is empty behind the inner loop, and not empty in it. -/
def Placed (s : LoggerSystem) : Prop :=
  (s.logger.m_thread = some .again → s.logger.m_log_buf = []) ∧
    (s.logger.m_thread = some .writing → s.logger.m_log_buf ≠ [])

lemma placed_queuePc (h : s'.logger.m_thread = some (queuePc s'.logger.m_log_buf)) :
    s'.Placed := by
  rw [Placed, h, queuePc]
  split_ifs with hempty <;> simp [hempty]

/-- What stays, apart from the queue, in a step that does not write. -/
structure Quiet (s s' : LoggerSystem) : Prop where
  disk : s'.disk = s.disk
  m_fp : s'.logger.m_fp = true → s.logger.m_fp = true
  m_save_path : s'.logger.m_save_path = s.logger.m_save_path
  m_pro_name : s'.logger.m_pro_name = s.logger.m_pro_name
  m_env_set : s'.logger.m_env_set = s.logger.m_env_set
  m_clear_flag : s'.logger.m_clear_flag = s.logger.m_clear_flag
  m_write_error_cnt : s'.logger.m_write_error_cnt = s.logger.m_write_error_cnt
  m_log_file_cache_max_cnts :
    s'.logger.m_log_file_cache_max_cnts = s.logger.m_log_file_cache_max_cnts

/-- The directory and the settings that decide about the files are not changed. -/
def Action.Settled : Action → Prop
  | .set_log_path _ _ _ | .set_clear_flag _ | .set_max_log_file_cnts _ => False
  | _ => True

/-- A step of the thread of the logger that does not write. -/
lemma runStep_cases (h : s.runStep order fopen = some s') :
    (s.logger.m_thread = some .writing ∧ s' = s.write order fopen) ∨
      (s.logger.m_thread ≠ some .writing ∧ Quiet s s' ∧ s'.Placed ∧
        s'.logger.m_log_buf = s.logger.m_log_buf) := by
  cases hthread : s.logger.m_thread with
  | none => simp [runStep, hthread] at h
  | some pc =>
    cases pc <;> simp only [runStep, hthread, Option.some.injEq, reduceCtorEq] at h
    case writing => exact Or.inl ⟨rfl, h.symm⟩
    case created =>
      subst h
      exact Or.inr ⟨by simp, ⟨rfl, id, rfl, rfl, rfl, rfl, rfl, rfl⟩,
        by simp [Placed, setThread], rfl⟩
    case waiting =>
      subst h
      exact Or.inr ⟨by simp, ⟨rfl, id, rfl, rfl, rfl, rfl, rfl, rfl⟩, placed_queuePc rfl, rfl⟩
    case body =>
      subst h
      refine Or.inr ⟨by simp, ⟨rfl, id, rfl, rfl, rfl, rfl, rfl, rfl⟩, ?_, rfl⟩
      rw [Placed, setThread]
      split_ifs with hempty <;> simp [hempty]
    all_goals
      refine Or.inr ⟨by simp, ?_⟩
      split_ifs at h
      · subst h
        exact ⟨⟨rfl, fun h => absurd h (by simp [close, setThread]), rfl, rfl, rfl, rfl, rfl, rfl⟩,
          by simp [Placed, setThread], rfl⟩
      · subst h
        exact ⟨⟨rfl, id, rfl, rfl, rfl, rfl, rfl, rfl⟩, by simp [Placed, setThread], rfl⟩

lemma push_cases {thread : ℕ} (h : s.push thread = some s') :
    Quiet s s' ∧ s'.logger.m_thread = s.logger.m_thread ∧
      s'.logger.m_log_buf = s.logger.m_log_buf ++ s.accepted (.push thread) := by
  rw [push] at h
  rw [accepted]
  split at h <;> simp only [Option.some.injEq, reduceCtorEq] at h
  subst h
  dsimp only [enqueue]
  split_ifs
  · exact ⟨⟨rfl, id, rfl, rfl, rfl, rfl, rfl, rfl⟩, rfl, rfl⟩
  · exact ⟨⟨rfl, id, rfl, rfl, rfl, rfl, rfl, rfl⟩, rfl, (List.append_nil _).symm⟩

/-- The calls that change a setting. -/
lemma set_cases (h : s.act a = some s') (hrun : ∀ order fopen, a ≠ .run order fopen)
    (hpush : ∀ thread, a ≠ .push thread) (hcontrol : a ≠ .control) :
    (a.Settled → Quiet s s') ∧ s'.logger.m_thread = s.logger.m_thread ∧
      s'.logger.m_log_buf = s.logger.m_log_buf ++ s.accepted a := by
  cases a with
  | run order fopen => exact absurd rfl (hrun order fopen)
  | push thread => exact absurd rfl (hpush thread)
  | control => exact absurd rfl hcontrol
  | set_clear_flag clear =>
    obtain rfl := Option.some.inj h
    exact ⟨False.elim, rfl, (List.append_nil _).symm⟩
  | set_max_log_file_cnts cnt =>
    obtain rfl := Option.some.inj h
    exact ⟨False.elim, rfl, (List.append_nil _).symm⟩
  | set_log_path path proname access =>
    obtain rfl := Option.some.inj h
    refine ⟨False.elim, ?_, ?_⟩ <;>
    · rw [set_log_path]
      split_ifs <;> simp [accepted, reset_file, setDir, close]
  | check thread =>
    rw [act] at h
    split at h <;> simp only [Option.some.injEq, reduceCtorEq] at h
    subst h
    exact ⟨fun _ => ⟨rfl, id, rfl, rfl, rfl, rfl, rfl, rfl⟩, rfl, (List.append_nil _).symm⟩
  | _ =>
    rw [act] at h
    try split_ifs at h
    all_goals
      obtain rfl := Option.some.inj h
      exact ⟨fun _ => ⟨rfl, id, rfl, rfl, rfl, rfl, rfl, rfl⟩, rfl, (List.append_nil _).symm⟩

/-- The thread of the logger is where it was, or it is a new one, or it is gone. -/
lemma controlStep_cases (h : s.controlStep = some s') :
    Quiet s s' ∧ s'.logger.m_log_buf = s.logger.m_log_buf ∧
      (s'.logger.m_thread = s.logger.m_thread ∨ s'.Placed) := by
  rw [controlStep] at h
  split at h
  case h_1 => exact absurd h (by simp)
  case h_5 =>
    split_ifs at h
    obtain rfl := Option.some.inj h
    exact ⟨⟨rfl, id, rfl, rfl, rfl, rfl, rfl, rfl⟩, rfl, Or.inr (by simp [Placed, setThread])⟩
  case h_3 =>
    obtain rfl := Option.some.inj h
    exact ⟨⟨rfl, id, rfl, rfl, rfl, rfl, rfl, rfl⟩, rfl, Or.inr (by simp [Placed, setThread])⟩
  all_goals
    obtain rfl := Option.some.inj h
    exact ⟨⟨rfl, id, rfl, rfl, rfl, rfl, rfl, rfl⟩, rfl, Or.inl rfl⟩

/-- **What a step can do.** -/
lemma step_cases (h : s.step a = some s') :
    (∃ order fopen, a = .run order fopen ∧ s.logger.m_thread = some .writing ∧
        s' = s.write order fopen) ∨
      ((∀ order fopen, a = .run order fopen → s.logger.m_thread ≠ some .writing) ∧
        (a.Settled → Quiet s s') ∧
        s'.logger.m_log_buf = s.logger.m_log_buf ++ s.accepted a ∧ (s.Placed → s'.Placed)) := by
  obtain ⟨-, hlock, h⟩ := step_eq_some.mp h
  cases a with
  | run order fopen =>
    rcases runStep_cases h with ⟨hpc, rfl⟩ | ⟨hpc, hquiet, hplaced, hbuf⟩
    · exact Or.inl ⟨order, fopen, rfl, hpc, rfl⟩
    · exact Or.inr ⟨fun _ _ _ => hpc, fun _ => hquiet, hbuf.trans (List.append_nil _).symm,
        fun _ => hplaced⟩
  | push thread =>
    obtain ⟨hquiet, hthread, hbuf⟩ := push_cases h
    refine Or.inr ⟨by simp, fun _ => hquiet, hbuf, fun _ => ?_⟩
    have hfree : ¬ s.Locked := fun hlocked => hlock ⟨rfl, hlocked⟩
    constructor <;>
    · intro hpc
      exact absurd ⟨_, hthread ▸ hpc, by simp⟩ hfree
  | control =>
    obtain ⟨hquiet, hbuf, hthread⟩ := controlStep_cases h
    refine Or.inr ⟨by simp, fun _ => hquiet, hbuf.trans (List.append_nil _).symm,
      fun hplaced => ?_⟩
    rcases hthread with hthread | hnew
    · rwa [Placed, hthread, hbuf]
    · exact hnew
  | _ =>
    obtain ⟨hquiet, hthread, hbuf⟩ := set_cases h (by simp) (by simp) (by simp)
    refine Or.inr ⟨by simp, hquiet, hbuf, fun hplaced => ?_⟩
    rw [Placed, hthread, hbuf]
    simpa [accepted, Placed] using hplaced

/-- A step that does not write takes nothing from the queue. -/
lemma taken_of_not_writing
    (h : ∀ order fopen, a = .run order fopen → s.logger.m_thread ≠ some .writing) :
    s.taken a = [] := by
  cases a with
  | run order fopen => rw [taken, if_neg fun hand => h order fopen rfl hand.1]
  | _ => rfl

/-- **The queue, in one step**: what is there is taken from the front, and what is accepted goes
to the end. -/
lemma step_log_buf (h : s.step a = some s') :
    s.logger.m_log_buf ++ s.accepted a = s.taken a ++ s'.logger.m_log_buf := by
  rcases step_cases h with ⟨order, fopen, rfl, hpc, rfl⟩ | ⟨hwriting, -, hbuf, -⟩
  · refine (List.append_nil _).trans ?_
    rw [taken]
    cases hbuf : s.logger.m_log_buf with
    | nil => simp [write, hbuf]
    | cons text rest =>
      rcases @write_cases s order fopen text rest hbuf with
        ⟨hopen, hwrite⟩ | ⟨s₁, -, hopen, hwrite, hbuf₁⟩
      · rw [hwrite, hopen, if_neg (by simp)]
        exact hbuf.symm
      · rw [hwrite, if_pos ⟨hpc, hopen⟩, pop]
        simp [hbuf₁]
  · rw [taken_of_not_writing hwriting, hbuf, List.nil_append]

lemma step_placed (hs : s.Placed) (h : s.step a = some s') : s'.Placed := by
  rcases step_cases h with ⟨order, fopen, rfl, hpc, rfl⟩ | ⟨-, -, -, hplaced⟩
  · obtain ⟨text, rest, hbuf⟩ := List.exists_cons_of_ne_nil (hs.2 hpc)
    rcases @write_cases s order fopen text rest hbuf with ⟨-, hwrite⟩ | ⟨s₁, -, -, hwrite, -⟩
    · rw [hwrite]
      simp [Placed, setThread]
    · rw [hwrite]
      exact placed_queuePc rfl
  · exact hplaced hs

/-! ## The thread is stopped -/

lemma open_file_isSome (order : List Bytes) : (s.open_file order true).isSome := by
  simp only [open_file, if_true]
  split_ifs <;> rfl

/-- The inner loop, when the file can be opened. -/
lemma write_true {text : Bytes} {rest : List Bytes} (h : s.logger.m_log_buf = text :: rest)
    (order : List Bytes) :
    (s.write order true).logger.m_log_buf = rest ∧
      (s.write order true).logger.m_thread = some (queuePc rest) ∧
      (s.write order true).logger.m_stop = s.logger.m_stop := by
  rcases @write_cases s order true text rest h with ⟨hopen, -⟩ | ⟨s₁, hs₁, -, hwrite, hbuf⟩
  · have := open_file_isSome (s := s) order
    rw [hopen] at this
    exact absurd this (by simp)
  · rw [hwrite]
    refine ⟨by simp [pop, hbuf], by simp [pop, hbuf], ?_⟩
    exact ((sameQueue_writeLog hs₁).trans (sameQueue_checkErrors s₁)).m_stop

/-- A step of the thread of the logger is not blocked by a lock. -/
lemma step_run {pc : WriterPc} (hpc : s.logger.m_thread = some pc) (hlive : pc ≠ .crashed) :
    s.step (.run order fopen) = s.runStep order fopen := by
  have hcrashed : s.logger.m_thread ≠ some .crashed := by
    rw [hpc]
    exact fun h => hlive (Option.some.inj h)
  rw [step, if_neg hcrashed, if_neg (by simp [needsLock])]
  rfl

/-- Steps of the thread of the logger, in a directory in which the log can be opened. -/
def writerSteps (orders : List (List Bytes)) : List Action :=
  orders.map fun order => .run order true

/-- The thread of the logger ends after `n` of its steps, with these texts in the queue. -/
def Ends (s : LoggerSystem) (n : ℕ) (texts : List Bytes) : Prop :=
  ∀ orders : List (List Bytes), orders.length = n →
    ∃ t, run step s (writerSteps orders) = some t ∧ t.logger.m_thread = some .exited ∧
      t.logger.m_log_buf = texts

lemma ends_exited (hpc : s.logger.m_thread = some .exited) : s.Ends 0 s.logger.m_log_buf := by
  intro orders horders
  rw [List.eq_nil_of_length_eq_zero horders]
  exact ⟨s, rfl, hpc, rfl⟩

/-- One step more. -/
lemma ends_succ {pc : WriterPc} {n : ℕ} {texts : List Bytes} {next : List Bytes → LoggerSystem}
    (hpc : s.logger.m_thread = some pc) (hlive : pc ≠ .crashed)
    (h : ∀ order, s.runStep order true = some (next order))
    (hnext : ∀ order, (next order).Ends n texts) : s.Ends (n + 1) texts := by
  intro orders horders
  obtain ⟨order, orders, rfl⟩ := List.exists_cons_of_length_eq_add_one horders
  rw [writerSteps, List.map_cons, run_cons, step_run hpc hlive, h]
  exact hnext order orders (by simpa using horders)

/-- `m_stop` is tested. -/
lemma ends_test (hstop : s.logger.m_stop = true)
    (hpc : s.logger.m_thread = some .entered ∨ s.logger.m_thread = some .again) :
    s.Ends 1 s.logger.m_log_buf := by
  have hstep : ∀ order, s.runStep order true = some (s.close.setThread (some .exited)) := by
    intro order
    rcases hpc with hpc | hpc <;> simp only [runStep, hpc, hstop, if_true]
  rcases hpc with hpc | hpc
  · exact ends_succ hpc (by decide) hstep fun _ => ends_exited rfl
  · exact ends_succ hpc (by decide) hstep fun _ => ends_exited rfl

/-- The inner loop takes all texts, and the thread ends. -/
lemma ends_queue : ∀ {texts : List Bytes} {s : LoggerSystem}, s.logger.m_stop = true →
    s.logger.m_log_buf = texts → s.logger.m_thread = some (queuePc texts) →
    s.Ends (texts.length + 1) []
  | [], s, hstop, hbuf, hpc => by
    have htest := ends_test hstop (Or.inr hpc)
    rwa [hbuf] at htest
  | text :: texts, s, hstop, hbuf, hpc => by
    have hstep : ∀ order, s.runStep order true = some (s.write order true) := by
      intro order
      simp only [runStep, hpc, queuePc, reduceCtorEq, if_false]
    refine ends_succ hpc (by simp [queuePc]) hstep fun order => ?_
    obtain ⟨hbuf', hpc', hstop'⟩ := write_true hbuf order
    exact ends_queue (hstop'.trans hstop) hbuf' hpc'

lemma ends_waiting (hstop : s.logger.m_stop = true) (hpc : s.logger.m_thread = some .waiting) :
    s.Ends (s.logger.m_log_buf.length + 2) [] := by
  have hstep : ∀ order, s.runStep order true =
      some (s.setThread (some (queuePc s.logger.m_log_buf))) := by
    intro order
    simp only [runStep, hpc]
  refine ends_succ hpc (by decide) hstep fun _ => ?_
  exact @ends_queue s.logger.m_log_buf (s.setThread _) hstop rfl rfl

/-- How far the thread is from its end. -/
lemma exists_ends (hs : s.Placed) (hstop : s.logger.m_stop = true)
    (hthread : s.logger.m_thread ≠ none) (hexited : s.logger.m_thread ≠ some .exited)
    (hcrashed : s.logger.m_thread ≠ some .crashed) :
    ∃ n ≤ s.logger.m_log_buf.length + 3, s.Ends n
      (if s.logger.m_thread = some .created ∨ s.logger.m_thread = some .entered then
        s.logger.m_log_buf
      else []) := by
  obtain ⟨pc, hpc⟩ := Option.ne_none_iff_exists'.mp hthread
  cases pc with
  | created =>
    refine ⟨2, by omega, ?_⟩
    rw [if_pos (Or.inl hpc)]
    have hstep : ∀ order, s.runStep order true = some (s.setThread (some .entered)) := by
      intro order
      simp only [runStep, hpc]
    refine ends_succ hpc (by decide) hstep fun _ => ?_
    exact @ends_test (s.setThread _) hstop (Or.inl rfl)
  | entered =>
    refine ⟨1, by omega, ?_⟩
    rw [if_pos (Or.inr hpc)]
    exact ends_test hstop (Or.inl hpc)
  | again =>
    refine ⟨1, by omega, ?_⟩
    rw [if_neg (by simp [hpc])]
    exact ends_queue hstop (hs.1 hpc) hpc
  | body =>
    rw [if_neg (by simp [hpc])]
    have hstep : ∀ order, s.runStep order true =
        some (s.setThread (some (if s.logger.m_log_buf = [] then .waiting else .writing))) := by
      intro order
      simp only [runStep, hpc]
    by_cases hempty : s.logger.m_log_buf = []
    · refine ⟨_, le_rfl, ends_succ hpc (by decide) hstep fun _ => ?_⟩
      rw [if_pos hempty]
      exact @ends_waiting (s.setThread _) hstop rfl
    · refine ⟨s.logger.m_log_buf.length + 2, by omega, ends_succ hpc (by decide) hstep fun _ => ?_⟩
      refine @ends_queue s.logger.m_log_buf (s.setThread _) hstop rfl ?_
      rw [if_neg hempty, queuePc, if_neg hempty]
      rfl
  | waiting =>
    rw [if_neg (by simp [hpc])]
    exact ⟨_, by omega, ends_waiting hstop hpc⟩
  | writing =>
    rw [if_neg (by simp [hpc])]
    refine ⟨_, by omega, ends_queue hstop rfl ?_⟩
    rw [hpc, queuePc, if_neg (hs.2 hpc)]
  | exited => exact absurd hpc hexited
  | crashed => exact absurd hpc hcrashed

/-- **`unregister_handle` comes back.** When `m_stop` is set, the thread of the logger ends after a
few of its own steps, and it has taken every text from the queue, unless it was stopped before it
tested `m_stop` for the first time. -/
theorem stop_drains (disk : Bytes → Dir) (actions : List Action) (s : LoggerSystem)
    (orders : List (List Bytes)) (hrun : run step { disk := disk } actions = some s)
    (hstop : s.logger.m_stop = true) (hthread : s.logger.m_thread ≠ none)
    (hexited : s.logger.m_thread ≠ some .exited) (hcrashed : s.logger.m_thread ≠ some .crashed)
    (horders : s.logger.m_log_buf.length + 3 ≤ orders.length) :
    ∃ n ≤ s.logger.m_log_buf.length + 3, ∃ t, run step s (writerSteps (orders.take n)) = some t ∧
      t.logger.m_thread = some .exited ∧
      t.logger.m_log_buf =
        if s.logger.m_thread = some .created ∨ s.logger.m_thread = some .entered then
          s.logger.m_log_buf
        else [] := by
  have hplaced : s.Placed := run_inv (fun s a s' h => step_placed h) (by simp [Placed]) hrun
  obtain ⟨n, hn, hends⟩ := exists_ends hplaced hstop hthread hexited hcrashed
  refine ⟨n, hn, hends (orders.take n) ?_⟩
  rw [List.length_take]
  omega

/-- A text is put into the queue while the thread waits, and then the thread is stopped. -/
def stopWaiting : List Action :=
  [.set_log_path [108] [97] true, .register_handle, .control, .control, .run [] true, .run [] true,
    .run [] true, .log 0 2 [97], .check 0, .push 0, .unregister_handle]

theorem stop_drains_waiting :
    ∃ s, run step { disk := fun _ _ => none } stopWaiting = some s ∧ s.logger.m_log_buf = [[97]] ∧
      ∃ n ≤ 4, ∃ t, run step s (writerSteps ((List.replicate 4 []).take n)) = some t ∧
        t.logger.m_thread = some .exited ∧ t.logger.m_log_buf = [] :=
  ⟨_, rfl, rfl, stop_drains (fun _ _ => none) stopWaiting _ (List.replicate 4 []) rfl rfl
    (Option.some_ne_none _) (by decide) (by decide) le_rfl⟩

end LoggerSystem

end SignalEventLoop.Log

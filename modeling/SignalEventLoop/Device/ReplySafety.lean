/-
# Replies that the updater survives

The device may send any command at any time, with any content.  For every handler the
condition is found under which none of its checks fails, and then for `handleFrame` and for
whole runs.  What can go wrong: a frame without a command, an error reply without the error, a
date that is not terminated, and the four commands that use the slice context before an update
was started.
-/
import SignalEventLoop.Device.HandleFrame
import SignalEventLoop.Device.Protocol
import SignalEventLoop.Lib.Run

namespace SignalEventLoop.Device

open Lib

/-! ## The strings of a device -/

/-- Three strings, of which the last one is not terminated. -/
def UnterminatedDate (info : List UInt8) : Prop :=
  ∃ version product date : List UInt8, (version ≠ [] ∧ 0 ∉ version) ∧
    (product ≠ [] ∧ 0 ∉ product) ∧ (date ≠ [] ∧ 0 ∉ date) ∧
    info = version ++ 0 :: (product ++ 0 :: date)

variable {data : List UInt8} {i n : ℕ} {fields out : List ℕ}

/-- The data begin with a string of length `n` and its terminator, behind which `rest` stands,
with `P n rest`. -/
def StringThen (data : List UInt8) (P : ℕ → List UInt8 → Prop) : Prop :=
  ∃ word rest, 0 ∉ word ∧ data = word ++ 0 :: rest ∧ P word.length rest

@[simp] lemma not_stringThen_nil (P : ℕ → List UInt8 → Prop) : ¬ StringThen [] P := by
  simp [StringThen]

@[simp] lemma stringThen_zero {P : ℕ → List UInt8 → Prop} :
    StringThen (0 :: data) P ↔ P 0 data := by
  constructor
  · rintro ⟨word, rest, hword, hdata, h⟩
    cases word with
    | nil =>
      obtain rfl : data = rest := by simpa using hdata
      exact h
    | cons c word =>
      obtain ⟨rfl, -⟩ : (0 : UInt8) = c ∧ _ := by simpa using hdata
      simp at hword
  · exact fun h => ⟨[], data, by simp, rfl, h⟩

lemma stringThen_cons {P : ℕ → List UInt8 → Prop} {byte : UInt8} (hbyte : byte ≠ 0) :
    StringThen (byte :: data) P ↔ StringThen data fun n => P (n + 1) := by
  constructor
  · rintro ⟨word, rest, hword, hdata, h⟩
    cases word with
    | nil =>
      obtain ⟨rfl, -⟩ : byte = 0 ∧ _ := by simpa using hdata
      exact absurd rfl hbyte
    | cons c word =>
      obtain ⟨rfl, rfl⟩ : byte = c ∧ data = word ++ 0 :: rest := by simpa using hdata
      exact ⟨word, rest, fun h0 => hword (by simp [h0]), rfl, h⟩
  · rintro ⟨word, rest, hword, rfl, h⟩
    exact ⟨byte :: word, rest, by simp [hword, Ne.symm hbyte], rfl, h⟩

/-- Inside a field, the loop looks for its end. -/
lemma parserLoop_inside : parserLoop data i fields (n + 1) = some out ↔
    StringThen data fun n rest => parserLoop rest (i + n + 1) fields 0 = some out := by
  induction data generalizing i n with
  | nil => simp [parserLoop]
  | cons byte data ih =>
    rw [parserLoop]
    by_cases hbyte : byte = 0
    · subst hbyte
      simp
    · rw [if_neg hbyte, if_neg (by omega), ih, stringThen_cons hbyte]
      simp only [Nat.add_assoc, Nat.add_comm 1]

/-- One of the first two fields. -/
lemma parserLoop_field (hfields : fields.length < 2) : parserLoop data i fields 0 = some out ↔
    StringThen data fun n rest =>
      n ≠ 0 ∧ parserLoop rest (i + n + 1) (fields ++ [i]) 0 = some out := by
  cases data with
  | nil => simp [parserLoop]
  | cons byte data =>
    rw [parserLoop]
    by_cases hbyte : byte = 0
    · subst hbyte
      simp
    · have hlen : (fields ++ [i]).length ≠ 3 := by
        rw [List.length_append, List.length_singleton]
        omega
      rw [if_neg hbyte, if_pos rfl, if_neg hlen, parserLoop_inside, stringThen_cons hbyte]
      simp [Nat.add_assoc, Nat.add_comm 1]

/-- The last field only has to begin. -/
lemma parserLoop_last (hfields : fields.length = 2) : parserLoop data i fields 0 = some out ↔
    (∃ c rest, c ≠ 0 ∧ data = c :: rest) ∧ out = fields ++ [i] := by
  cases data with
  | nil => simp [parserLoop]
  | cons byte data =>
    have hlen : (fields ++ [i]).length = 3 := by
      rw [List.length_append, List.length_singleton, hfields]
    rw [parserLoop]
    by_cases hbyte : byte = 0
    · simp [hbyte]
    · rw [if_neg hbyte, if_pos rfl, if_pos hlen]
      simp [hbyte, eq_comm]

/-- What the parser accepts. -/
lemma parserDeviceInfo_eq_some : parserDeviceInfo data = some out ↔
    ∃ version product date, (version ≠ [] ∧ 0 ∉ version) ∧ (product ≠ [] ∧ 0 ∉ product) ∧
      (∃ c rest, c ≠ 0 ∧ date = c :: rest) ∧ data = version ++ 0 :: (product ++ 0 :: date) ∧
      out = [0, version.length + 1, version.length + product.length + 2] := by
  rw [parserDeviceInfo, parserLoop_field (by simp)]
  constructor
  · rintro ⟨version, rest, hversion, rfl, hne, h⟩
    obtain ⟨product, date, hproduct, rfl, hne', h'⟩ := (parserLoop_field (by simp)).mp h
    obtain ⟨hdate, rfl⟩ := (parserLoop_last (by simp)).mp h'
    refine ⟨version, product, date, ⟨by simpa using hne, hversion⟩, ⟨by simpa using hne', hproduct⟩,
      hdate, rfl, ?_⟩
    simp only [List.nil_append, List.cons_append, Nat.zero_add]
    congr 3
    omega
  · rintro ⟨version, product, date, ⟨hne, hversion⟩, ⟨hne', hproduct⟩, hdate, rfl, rfl⟩
    refine ⟨version, _, hversion, rfl, by simpa using hne, (parserLoop_field (by simp)).mpr ?_⟩
    refine ⟨product, date, hproduct, rfl, by simpa using hne', (parserLoop_last (by simp)).mpr ?_⟩
    refine ⟨hdate, ?_⟩
    simp only [List.nil_append, List.cons_append, Nat.zero_add]
    congr 3
    omega

lemma returns_readString {off : ℕ} : Returns (readString data off) ↔ 0 ∈ data.drop off := by
  rw [readString, returns_ite]
  simp

/-- The date of an accepted text. -/
lemma drop_date (version product date : List UInt8) :
    (version ++ 0 :: (product ++ 0 :: date)).drop (version.length + product.length + 2) = date := by
  have : version ++ 0 :: (product ++ 0 :: date) = (version ++ 0 :: (product ++ [0])) ++ date := by
    simp
  rw [this]
  refine List.drop_left' ?_
  simp only [List.length_append, List.length_cons, List.length_nil]
  omega

/-- The parser accepts a date that is not terminated. -/
lemma UnterminatedDate.accepted (h : UnterminatedDate data) :
    ∃ out, parserDeviceInfo data = some out ∧ 0 ∉ data.drop (out.getD 2 0) := by
  obtain ⟨version, product, date, hversion, hproduct, ⟨hne, hdate⟩, rfl⟩ := h
  obtain ⟨c, rest, rfl⟩ := List.exists_cons_of_ne_nil hne
  refine ⟨_, parserDeviceInfo_eq_some.mpr ⟨version, product, c :: rest, hversion, hproduct,
    ⟨c, rest, fun h => hdate (by simp [h]), rfl⟩, rfl, rfl⟩, ?_⟩
  simpa only [List.getD_cons_succ, List.getD_cons_zero, drop_date] using hdate

/-- **The strings that the parser finds can be read, unless the last one is not terminated.** -/
lemma parserDeviceInfo_cases (data : List UInt8) :
    (parserDeviceInfo data = none ∧ ¬ UnterminatedDate data) ∨
      ∃ version product date, parserDeviceInfo data = some [version, product, date] ∧
        Returns (readString data version) ∧ Returns (readString data product) ∧
        (Returns (readString data date) ↔ ¬ UnterminatedDate data) := by
  cases hout : parserDeviceInfo data with
  | none =>
    refine Or.inl ⟨rfl, ?_⟩
    intro h
    obtain ⟨out, hsome, -⟩ := h.accepted
    simp [hout] at hsome
  | some out =>
    obtain ⟨version, product, date, hversion, hproduct, ⟨c, rest, hc, rfl⟩, rfl, rfl⟩ :=
      parserDeviceInfo_eq_some.mp hout
    refine Or.inr ⟨_, _, _, rfl, ?_, ?_, ?_⟩
    · simp [returns_readString]
    · simp [returns_readString]
    · rw [returns_readString]
      constructor
      · intro hmem h
        obtain ⟨out, hsome, hzero⟩ := h.accepted
        rw [hout, Option.some.injEq] at hsome
        rw [← hsome] at hzero
        exact hzero hmem
      · intro h
        by_contra hmem
        rw [drop_date] at hmem
        exact h ⟨version, product, c :: rest, hversion, hproduct, ⟨by simp, hmem⟩, rfl⟩

/-! ## Handlers -/

@[simp] lemma returns_readBytes {off len : ℕ} :
    Returns (readBytes data off len) ↔ off + len ≤ data.length := by
  rw [readBytes, returns_ite]
  simp

@[simp] lemma returns_readByte {off : ℕ} : Returns (readByte data off) ↔ off < data.length := by
  rw [readByte, returns_map, returns_readBytes]
  omega

@[simp] lemma returns_readBE {off len : ℕ} :
    Returns (readBE data off len) ↔ off + len ≤ data.length := by
  rw [readBE, returns_map, returns_readBytes]

@[simp] lemma returns_readLE {off len : ℕ} :
    Returns (readLE data off len) ↔ off + len ≤ data.length := by
  rw [readLE, returns_map, returns_readBytes]

namespace ReplyState

variable {C : Type} {file : FileFunctions C} {s : ReplyState C} {payload : List UInt8}
  {address : ℕ}

@[simp] lemma returns_useSliceContext : Returns s.useSliceContext ↔ s.sliceContext.isSome := by
  rw [useSliceContext]
  cases s.sliceContext with
  | none => simp
  | some c => simp

/-- Every handler of the update looks at the address and at the length first. -/
lemma returns_guarded {n : ℕ} {a b : ReplyState C} {x : Except Fault (ReplyState C)} :
    Returns (if address ≠ s.updateDeviceAdress then .ok a
        else if payload.length < n then .ok b else x) ↔
      (address = s.updateDeviceAdress → n ≤ payload.length → Returns x) := by
  rw [returns_ite, returns_ite]
  simp

lemma five_le_of_unterminatedDate (h : UnterminatedDate data) : 5 ≤ data.length := by
  obtain ⟨version, product, date, ⟨hversion, -⟩, ⟨hproduct, -⟩, ⟨hdate, -⟩, rfl⟩ := h
  have h₁ := List.length_pos_iff.mpr hversion
  have h₂ := List.length_pos_iff.mpr hproduct
  have h₃ := List.length_pos_iff.mpr hdate
  simp only [List.length_append, List.length_cons]
  omega

lemma returns_queryDevice : Returns (s.handleReplyQueryDevice payload) ↔
    (s.infoLogged = true → ¬ UnterminatedDate payload) := by
  rw [handleReplyQueryDevice, returns_ite]
  rcases parserDeviceInfo_cases payload with
    ⟨hnone, hdate⟩ | ⟨version, product, date, hsome, hversion, hproduct, hdate⟩
  · simp [hnone, hdate]
  · rw [hsome]
    simp only [returns_ok, implies_true, and_true]
    rw [returns_ite, returns_bind_iff (q := ¬ UnterminatedDate payload)]
    · constructor
      · intro h hlog hunterminated
        have := five_le_of_unterminatedDate hunterminated
        exact ((h (by omega)).1 hlog).2 hunterminated
      · exact fun h _ => ⟨fun hlog => ⟨hproduct, h hlog⟩, by simp⟩
    · intro _ _
      rw [returns_bind_iff (q := ¬ UnterminatedDate payload) fun _ _ => by rw [returns_map, hdate]]
      exact and_iff_right hversion

lemma returns_queryUPID : Returns (s.handleReplyQueryUPID payload) := by
  rw [handleReplyQueryUPID, returns_ite, returns_map, returns_readByte]
  exact ⟨by omega, by simp⟩

lemma returns_queryWorkMode : Returns (s.handleReplyQueryWorkMode payload) := by
  rw [handleReplyQueryWorkMode, returns_ite]
  refine ⟨fun hlen => ?_, by simp⟩
  rw [returns_bind_iff (q := 0 < payload.length) fun _ _ => by simp, returns_readByte]
  omega

lemma returns_enter : Returns (s.handleReplyEnterUpgradeWorkMode payload address) ↔
    (address = s.updateDeviceAdress → 3 ≤ payload.length → s.sliceContext.isSome = true) := by
  rw [handleReplyEnterUpgradeWorkMode, returns_guarded]
  refine forall_congr' fun _ => forall_congr' fun hlen => ?_
  rw [returns_bind_iff (q := s.sliceContext.isSome = true)]
  · simp only [returns_readByte]
    exact and_iff_right (by omega)
  · intro _ _
    rw [returns_bind_iff (q := True) fun c _ => ?_, returns_useSliceContext, and_true]
    rw [returns_bind_iff (q := 0 < payload.length) fun _ _ => by simp, returns_readByte]
    simp only [iff_true]
    omega

lemma returns_querySoftware :
    Returns (s.handleReplyQuerySoftwareVersion file payload address) ↔
      (address = s.updateDeviceAdress → 12 ≤ payload.length →
        ¬ UnterminatedDate (payload.drop 12)) := by
  rw [handleReplyQuerySoftwareVersion, returns_guarded]
  refine forall_congr' fun _ => forall_congr' fun hlen => ?_
  rcases parserDeviceInfo_cases (payload.drop 12) with
    ⟨hnone, hdate⟩ | ⟨version, product, date, hsome, hversion, hproduct, hdate⟩
  · simp [hnone, hdate]
  · simp only [hsome, returns_map]
    rw [checkSoftware, returns_bind_iff (q := ¬ UnterminatedDate (payload.drop 12))]
    · exact and_iff_right hversion
    · intro _ _
      rw [returns_bind_iff (q := ¬ UnterminatedDate (payload.drop 12))]
      · exact and_iff_right hproduct
      · intro _ _
        rw [returns_bind_iff (q := True), and_true, hdate]
        intro _ _
        rw [returns_bind_iff (q := 8 + 4 ≤ payload.length) fun _ _ => by simp, returns_readLE]
        simp only [iff_true]
        omega

/-- The file is loaded for the segments that the device tells. -/
def SegmentsLoad (file : FileFunctions C) (s : ReplyState C) (payload : List UInt8) : Prop :=
  (file.loadProgramData s.context (ofBE (slice payload 0 4)) (ofBE (slice payload 8 4))
    (ofBE (slice payload 4 4)) (ofBE (slice payload 12 4))).1 = true

lemma readBE_eq {off len : ℕ} (h : off + len ≤ data.length) :
    readBE data off len = .ok (ofBE (slice data off len)) := by
  rw [readBE, readBytes, if_pos h]
  rfl

lemma returns_querySegment :
    Returns (s.handleReplyQuerySegmentInfomation file payload address) ↔
      (address = s.updateDeviceAdress → 16 ≤ payload.length → SegmentsLoad file s payload →
        s.sliceContext.isSome = true) := by
  rw [handleReplyQuerySegmentInfomation, returns_guarded]
  refine forall_congr' fun _ => forall_congr' fun hlen => ?_
  rw [readBE_eq (by omega), readBE_eq (by omega), readBE_eq (by omega), readBE_eq (by omega)]
  simp only [Except.bind, returns_ite, SegmentsLoad]
  simp [returns_useSliceContext]

lemma readByte_zero (byte : UInt8) (rest : List UInt8) : readByte (byte :: rest) 0 = .ok byte := by
  rw [readByte, readBytes, if_pos (by simp)]
  rfl

lemma returns_upload {message : String} {accepted : UpdateSliceContext → ReplyState C} :
    Returns (s.handleReplyUpload message payload address accepted) ↔
      (address = s.updateDeviceAdress → 3 ≤ payload.length →
        (payload.head? = some UploadReply.statusMissing → 5 ≤ payload.length) →
        s.sliceContext.isSome = true) := by
  rw [handleReplyUpload, returns_guarded]
  refine forall_congr' fun _ => forall_congr' fun hlen => ?_
  obtain ⟨status, rest, rfl⟩ : ∃ status rest, payload = status :: rest :=
    List.exists_cons_of_length_pos (by omega)
  rw [readByte_zero, Except.bind, returns_ite,
    returns_bind_iff (q := s.sliceContext.isSome = true) fun _ _ => by simp, returns_readBE]
  simp only [returns_ok, implies_true, true_and, List.head?_cons, Option.some.injEq]
  constructor
  · intro h hmissing
    have hlong : ¬ (status = UploadReply.statusMissing ∧ (status :: rest).length < 5) := by
      intro hshort
      have := hmissing hshort.1
      omega
    exact (h hlong).2
  · intro h hnot
    refine ⟨by omega, h fun hstatus => ?_⟩
    by_contra hshort
    exact hnot ⟨hstatus, by omega⟩

lemma returns_quit : Returns (s.handleReplyQuitUpgradeWorkMode payload address) := by
  rw [handleReplyQuitUpgradeWorkMode, returns_ite, returns_map, returns_ite, returns_map,
    returns_readByte]
  exact ⟨by simp, fun _ => ⟨by simp, by omega⟩⟩

/-! ## Frames and runs -/

/-- A reply that no check rejects. -/
def ReplyOk (file : FileFunctions C) (s : ReplyState C) (payload : List UInt8) (address : ℕ) :
    Option UpdateTypeDef → Prop
  | some .queryDevice => s.infoLogged = true → ¬ UnterminatedDate payload
  | some .transferError => payload ≠ []
  | some .upgradeEnter =>
    address = s.updateDeviceAdress → 3 ≤ payload.length → s.sliceContext.isSome = true
  | some .upgradeQuerySoftware =>
    address = s.updateDeviceAdress → 12 ≤ payload.length → ¬ UnterminatedDate (payload.drop 12)
  | some .upgradeQuerySegment =>
    address = s.updateDeviceAdress → 16 ≤ payload.length → SegmentsLoad file s payload →
      s.sliceContext.isSome = true
  | some .upgradeIntVectorTable | some .upgradeCodeSegment =>
    address = s.updateDeviceAdress → 3 ≤ payload.length →
      (payload.head? = some UploadReply.statusMissing → 5 ≤ payload.length) →
      s.sliceContext.isSome = true
  | _ => True

lemma returns_handleCommand (command : Option UpdateTypeDef) :
    Returns (s.handleCommand file command payload address) ↔
      ReplyOk file s payload address command := by
  rcases command with _ | command
  · simp [handleCommand, ReplyOk]
  cases command with
  | queryDevice => simp only [handleCommand, ReplyOk, returns_map, returns_queryDevice]
  | queryUpid => simp only [handleCommand, ReplyOk, returns_map, returns_queryUPID]
  | transferError =>
    simp only [handleCommand, ReplyOk, returns_map, returns_readByte, List.length_pos_iff]
  | queryWorkMode => simp only [handleCommand, ReplyOk, returns_map, returns_queryWorkMode]
  | upgradeEnter => simp only [handleCommand, ReplyOk, returns_map, returns_enter]
  | upgradeQuerySoftware => simp only [handleCommand, ReplyOk, returns_map, returns_querySoftware]
  | upgradeQuerySegment => simp only [handleCommand, ReplyOk, returns_map, returns_querySegment]
  | upgradeIntVectorTable =>
    simp only [handleCommand, ReplyOk, returns_map, handleReplyUploadVectorTable, returns_upload]
  | upgradeCodeSegment =>
    simp only [handleCommand, ReplyOk, returns_map, handleReplyUploadCodeSegment, returns_upload]
  | upgradeResume => simp only [handleCommand, ReplyOk, returns_ok]
  | upgradeQuit => simp only [handleCommand, ReplyOk, returns_quit]

/-- A frame that no check rejects: it is not a control frame, or it has a command and the
reply is in order. -/
def FrameOk (file : FileFunctions C) (s : ReplyState C) (data : List UInt8) (address : ℕ)
    (control_code : Bool) : Prop :=
  control_code = true → ∃ command payload, data = command :: payload ∧
    ReplyOk file s payload address (UpdateTypeDef.ofByte command)

/-- **When a frame is handled without a fault.** -/
lemma returns_handleFrame {control_code : Bool} :
    Returns (s.handleFrame file data address control_code) ↔
      FrameOk file s data address control_code := by
  cases data with
  | nil =>
    rw [handleFrame.eq_def, returns_ite]
    simp [FrameOk]
  | cons command payload =>
    rw [handleFrame.eq_def, returns_ite]
    simp [FrameOk, returns_handleCommand]

/-- What is asked of an action in the state before it: only frames can be harmful. -/
def ActionOk (file : FileFunctions C) (s : ReplyState C) : UpdaterAction → Prop
  | .frame data address control_code => FrameOk file s data address control_code
  | _ => True

lemma step_isSome_iff {action : UpdaterAction} :
    (∃ t, s.step file action = some t) ↔ ActionOk file s action := by
  rw [step, ← returns_iff_toOption]
  cases action with
  | frame data address control_code => exact returns_handleFrame
  | _ => simp [act, ActionOk]

/-- **Replies break the updater exactly when one of them is not in order**: for every updater
after `init`, all file functions and every sequence of frames, starts, stops and reloads, no
handler reads past the end of a frame or uses the slice context before it was made, if and
only if every frame is in order in the state that it meets. -/
theorem replies_safe_iff (file : FileFunctions C) (context : C) (infoLogged : Bool)
    (actions : List UpdaterAction) :
    (∃ t, run (step file) (initial context infoLogged) actions = some t) ↔
      AllSteps (step file) (ActionOk file) (initial context infoLogged) actions := by
  exact run_possible_iff (fun _ _ => step_isSome_iff) _ _

/-- The functions of an `UpdateFileContext` whose file cannot be opened. -/
def noFile : FileFunctions Unit where
  init _ _ := (false, ())
  checkFile _ _ _ _ _ _ _ := -1
  loadProgramData _ _ _ _ _ := (false, ())
  fillUpdateSliceContext _ c :=
    let c := c.reset
    (true, if c.seq < -1 then { c with seq := -1, type := .code } else c.enterCode)

/-- The device reports that it is ready before an update was started, and the handler uses the
slice context; a frame without data has no command. -/
theorem replies_break_updater :
    deMux [12, 0x55, 0xAA, 0x88, 4, 0xE0, 3, 1, 0, 2, 0, 5, 0x69] =
        (0, some ⟨[0xE0, 3, 1, 0], some 5, 0x88⟩) ∧
      (¬ ∃ t, run (step noFile) (initial () true)
        [.loadUpdateTask "firmware.hex" 5, .frame [0xE0, 3, 1, 0] 5 true] = some t) ∧
      deMux [5, 0x55, 0xAA, 0x80, 0, 0x80] = (0, some ⟨[], none, 0x80⟩) ∧
      (initial () true).handleFrame noFile [] 0 true = .error .emptyFrame := by
  refine ⟨by decide, ?_, by decide, rfl⟩
  rintro ⟨t, ht⟩
  have hnone : run (step noFile) (initial () true)
      [.loadUpdateTask "firmware.hex" 5, .frame [0xE0, 3, 1, 0] 5 true] = none := rfl
  rw [hnone] at ht
  cases ht

end ReplyState

end SignalEventLoop.Device

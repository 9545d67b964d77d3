/-
# A device with pages of size zero

The device reports the size of its pages in the reply to `UPGRADE_ENTER`, and
`handleReplyEnterUpgradeWorkMode` stores it without a check.  The loops of
`fillUpdateSliceContext` start a page with that size and count it down, so with the size zero
they add slices of no bytes without end, unless there is nothing to cut.

The handlers do not look at the phase of the update.  Also when the device was busy and the
updater has asked it to quit, a later reply that tells the segments starts the loops.
-/
import SignalEventLoop.Device.SlicePages
import SignalEventLoop.Device.ReplySafety

namespace SignalEventLoop.Device

open Lib

/-! ## The loops -/

namespace UpdateFileContext

/-- Both loops end, the second one with what the first one left of the page. -/
def LoopsEnd (F : UpdateFileContext) (c : UpdateSliceContext) : Prop :=
  ∃ fuel vector_map page_left,
    sliceLoop c.maxSliceSize c.pageSize F.vecData.length fuel 0 c.pageSize c.vectorMap =
        some (vector_map, page_left) ∧
      ∃ fuel out, sliceLoop c.maxSliceSize c.pageSize F.codeData.length fuel 0 page_left
        c.codeMap = some out

variable {F : UpdateFileContext} {c : UpdateSliceContext} {max_slice_size page_size : ℕ}

/-- Nothing is left of a page of size zero, and the loop stays where it is. -/
lemma sliceLoop_page_zero {len i : ℕ} (hlt : i < len) (fuel : ℕ) (map : List (ℕ × ℕ)) :
    sliceLoop max_slice_size 0 len fuel i 0 map = none := by
  induction fuel generalizing map with
  | zero => rw [sliceLoop, if_pos hlt]
  | succ fuel ih =>
    have hn : 0 = min (min (len - i) max_slice_size) 0 := (Nat.min_zero _).symm
    rw [sliceLoop_succ hlt hn, Nat.sub_zero, if_pos rfl, Nat.add_zero]
    exact ih _

/-- An empty segment is not cut. -/
lemma sliceLoop_nil (fuel page_left : ℕ) (map : List (ℕ × ℕ)) :
    sliceLoop max_slice_size page_size 0 fuel 0 page_left map = some (map, page_left) := by
  cases fuel with
  | zero => rw [sliceLoop, if_neg (lt_irrefl 0)]
  | succ fuel => rw [sliceLoop, if_neg (lt_irrefl 0)]

/-- With pages of some size every slice makes progress. -/
lemma loopsEnd_of_pos (hslice : 0 < c.maxSliceSize) (hpage : 0 < c.pageSize) : F.LoopsEnd c := by
  obtain ⟨V, hV, -⟩ := sliceLoop_pages hslice hpage 0 F.vecData.length F.vecData.length 0
    c.vectorMap (Nat.zero_le _) (Nat.sub_le _ _)
  obtain ⟨C, hC, -⟩ := sliceLoop_pages hslice hpage F.vecData.length F.codeData.length
    F.codeData.length 0 c.codeMap (Nat.zero_le _) (Nat.sub_le _ _)
  rw [Nat.zero_add, Nat.zero_mod, Nat.sub_zero, Nat.zero_add] at hV
  exact ⟨_, _, _, hV, _, _, hC⟩

lemma loopsEnd_of_empty (hvec : F.vecData = []) (hcode : F.codeData = []) : F.LoopsEnd c := by
  refine ⟨0, c.vectorMap, c.pageSize, ?_, 0, (c.codeMap, c.pageSize), ?_⟩
  · rw [hvec, List.length_nil, sliceLoop_nil]
  · rw [hcode, List.length_nil, sliceLoop_nil]

/-- **The loops end exactly when pages have a size**, or there is nothing to cut. -/
lemma loopsEnd_iff (hslice : 0 < c.maxSliceSize) :
    F.LoopsEnd c ↔ c.pageSize ≠ 0 ∨ F.vecData = [] ∧ F.codeData = [] := by
  constructor
  · rintro ⟨fuel, vector_map, page_left, hvector, fuel', out, hcode⟩
    by_cases hpage : c.pageSize = 0
    · right
      rw [hpage] at hvector hcode
      have hvec : F.vecData = [] := by
        by_contra hne
        rw [sliceLoop_page_zero (List.length_pos_of_ne_nil hne)] at hvector
        cases hvector
      rw [hvec, List.length_nil, sliceLoop_nil] at hvector
      obtain ⟨-, rfl⟩ := Prod.mk.inj (Option.some.inj hvector)
      refine ⟨hvec, ?_⟩
      by_contra hne
      rw [sliceLoop_page_zero (List.length_pos_of_ne_nil hne)] at hcode
      cases hcode
    · exact Or.inl hpage
  · rintro (hpage | ⟨hvec, hcode⟩)
    · exact loopsEnd_of_pos hslice (Nat.pos_of_ne_zero hpage)
    · exact loopsEnd_of_empty hvec hcode

end UpdateFileContext

/-! ## The calls of `fillUpdateSliceContext` -/

/-- The sizes of a context stay what they are. -/
def UpdateSliceContext.SameSizes (c c' : UpdateSliceContext) : Prop :=
  c'.pageSize = c.pageSize ∧ c'.maxSliceSize = c.maxSliceSize

namespace UpdateFileContext

variable {F : UpdateFileContext} {c c' : UpdateSliceContext} {ret : Bool}

lemma initMaps_sameSizes (h : F.initMaps c = some c') : c.SameSizes c' := by
  obtain ⟨⟨vector_map, page_left⟩, -, h⟩ := Option.bind_eq_some_iff.mp h
  obtain ⟨⟨code_map, left⟩, -, rfl⟩ := Option.map_eq_some_iff.mp h
  dsimp only
  split_ifs <;> exact ⟨rfl, rfl⟩

lemma readSlice_sameSizes (h : F.readSlice c = some (ret, c')) : c.SameSizes c' := by
  rw [readSlice] at h
  dsimp only at h
  split_ifs at h
  · obtain ⟨-, rfl⟩ := Prod.mk.inj (Option.some.inj h)
    exact ⟨rfl, rfl⟩
  · obtain ⟨r, -, h⟩ := Option.bind_eq_some_iff.mp h
    obtain ⟨bytes, -, h⟩ := Option.bind_eq_some_iff.mp h
    obtain ⟨data, -, h⟩ := Option.bind_eq_some_iff.mp h
    obtain ⟨-, rfl⟩ := Prod.mk.inj (Option.some.inj h)
    exact ⟨rfl, rfl⟩

lemma sameSizes_enterCode (c : UpdateSliceContext) : c.SameSizes c.enterCode := by
  rw [UpdateSliceContext.enterCode]
  split_ifs <;> exact ⟨rfl, rfl⟩

/-- **The sizes of a context** are not touched by `fillUpdateSliceContext`. -/
theorem fillUpdateSliceContext_sameSizes (h : F.fillUpdateSliceContext c = some (ret, c')) :
    c.SameSizes c' := by
  have hstart : ∀ c₁, (if c.seq < -1 then F.initMaps c.reset else some c.reset) = some c₁ →
      c.SameSizes c₁ := by
    intro c₁ h
    split_ifs at h
    · obtain ⟨hpage, hmax⟩ := initMaps_sameSizes h
      exact ⟨hpage, hmax⟩
    · obtain rfl := Option.some.inj h
      exact ⟨rfl, rfl⟩
  rw [fillUpdateSliceContext] at h
  by_cases hsize : c.maxSliceSize < 1
  · rw [if_pos hsize] at h
    obtain ⟨-, rfl⟩ := Prod.mk.inj (Option.some.inj h)
    exact ⟨rfl, rfl⟩
  rw [if_neg hsize] at h
  obtain ⟨c₁, hc₁, h⟩ := Option.bind_eq_some_iff.mp h
  obtain ⟨hpage, hmax⟩ := hstart c₁ hc₁
  obtain ⟨hpage', hmax'⟩ := sameSizes_enterCode c₁
  dsimp only at h
  split_ifs at h
  · obtain ⟨-, rfl⟩ := Prod.mk.inj (Option.some.inj h)
    exact ⟨hpage'.trans hpage, hmax'.trans hmax⟩
  · obtain ⟨hpage'', hmax''⟩ := readSlice_sameSizes h
    exact ⟨hpage''.trans (hpage'.trans hpage), hmax''.trans (hmax'.trans hmax)⟩

end UpdateFileContext

/-- The file functions keep the sizes, as those of `UpdateFileContext` do. -/
def FileFunctions.KeepsSizes {C : Type} (file : FileFunctions C) : Prop :=
  ∀ (context : C) (c : UpdateSliceContext), c.SameSizes (file.fillUpdateSliceContext context c).2

namespace ReplyState

variable {C : Type} {file : FileFunctions C} {s s' s₁ : ReplyState C} {c : UpdateSliceContext}
  {payload : List UInt8} {address : ℕ}

/-- The reply confirms the slice that was sent, and `c` is the context of the next one. -/
def Confirms (s : ReplyState C) (payload : List UInt8) (c : UpdateSliceContext) : Prop :=
  ∃ c₀, s.sliceContext = some c₀ ∧ c = { c₀ with seq := c₀.seq - 1 } ∧ 3 ≤ payload.length ∧
    payload.head? = some UploadReply.statusSuccess ∧ ofBE (slice payload 1 2) = packetNo c₀.seq

/-- The slice context with which the handler of a reply of the device calls
`fillUpdateSliceContext`. -/
def FillsOn (file : FileFunctions C) (s : ReplyState C) (payload : List UInt8)
    (c : UpdateSliceContext) : Option UpdateTypeDef → Prop
  | some .upgradeQuerySegment =>
    16 ≤ payload.length ∧ SegmentsLoad file s payload ∧ s.sliceContext = some c
  | some .upgradeIntVectorTable => Confirms s payload c
  | some .upgradeCodeSegment => Confirms s payload c ∧ 0 ≤ c.seq
  | _ => False

lemma requestNextSlice_congr {fill : C → UpdateSliceContext → Bool × UpdateSliceContext}
    {started : UpdateSliceContext → ReplyState C → ReplyState C}
    (h : fill s.context c = file.fillUpdateSliceContext s.context c) :
    s.requestNextSlice { file with fillUpdateSliceContext := fill } c started =
      s.requestNextSlice file c started := by
  rw [requestNextSlice, requestNextSlice]
  dsimp only
  rw [h]

lemma handleReplyUpload_congr {message : String} {f g : UpdateSliceContext → ReplyState C}
    (h : ∀ c₀, s.sliceContext = some c₀ → 3 ≤ payload.length →
      payload.head? = some UploadReply.statusSuccess →
      ofBE (slice payload 1 2) = packetNo c₀.seq → f c₀ = g c₀) :
    s.handleReplyUpload message payload address f =
      s.handleReplyUpload message payload address g := by
  rw [handleReplyUpload, handleReplyUpload]
  by_cases hlen : payload.length < 3
  · rw [if_pos hlen, if_pos hlen]
  obtain ⟨status, rest, rfl⟩ : ∃ status rest, payload = status :: rest :=
    List.exists_cons_of_length_pos (by omega)
  rw [readByte_zero, readBE_eq (by omega)]
  simp only [Except.bind]
  cases hc : s.sliceContext with
  | none => simp only [useSliceContext, hc, Except.map]
  | some c₀ =>
    simp only [useSliceContext, hc, Except.map]
    by_cases hno : ofBE (slice (status :: rest) 1 2) = packetNo c₀.seq
    · by_cases hstatus : status = UploadReply.statusSuccess
      · rw [h c₀ hc (by omega) (by rw [hstatus]; rfl) hno]
      · simp only [hstatus, if_false]
    · simp only [hno, ne_eq, not_false_eq_true, if_true]

/-- **Where slices are filled**: the handlers call `fillUpdateSliceContext` on no other context. -/
theorem handleCommand_congr {fill : C → UpdateSliceContext → Bool × UpdateSliceContext}
    {command : Option UpdateTypeDef}
    (h : ∀ c, FillsOn file s payload c command →
      ∀ context, fill context c = file.fillUpdateSliceContext context c) :
    s.handleCommand { file with fillUpdateSliceContext := fill } command payload address =
      s.handleCommand file command payload address := by
  rcases command with _ | command
  · rfl
  cases command with
  | upgradeQuerySegment =>
    refine congrArg (Except.map _) ?_
    rw [handleReplyQuerySegmentInfomation, handleReplyQuerySegmentInfomation]
    by_cases hlen : payload.length < 16
    · rw [if_pos hlen, if_pos hlen]
    rw [readBE_eq (by omega), readBE_eq (by omega), readBE_eq (by omega), readBE_eq (by omega)]
    simp only [Except.bind]
    by_cases hload : SegmentsLoad file s payload
    · cases hc : s.sliceContext with
      | none => simp only [useSliceContext, Except.map]
      | some c =>
        have hfill := h c ⟨not_lt.mp hlen, hload, hc⟩
        simp only [useSliceContext, Except.map, requestNextSlice_congr (hfill _)]
    · have hret := Bool.eq_false_iff.mpr hload
      simp only [hret, if_true]
  | upgradeIntVectorTable =>
    refine congrArg (Except.map _) (handleReplyUpload_congr fun c₀ hc hlen hstatus hno => ?_)
    exact requestNextSlice_congr (h _ ⟨c₀, hc, rfl, hlen, hstatus, hno⟩ _)
  | upgradeCodeSegment =>
    refine congrArg (Except.map _) (handleReplyUpload_congr fun c₀ hc hlen hstatus hno => ?_)
    by_cases hseq : 0 < c₀.seq
    · rw [if_pos hseq, if_pos hseq, requestNextSlice_congr
        (h _ ⟨⟨c₀, hc, rfl, hlen, hstatus, hno⟩, show 0 ≤ c₀.seq - 1 by omega⟩ _)]
    · rw [if_neg hseq, if_neg hseq]
  | _ => rfl

/-! ## The contexts of later calls -/

/-- The slice context has pages and slices of some size. -/
def Sized (s : ReplyState C) : Prop :=
  ∀ c, s.sliceContext = some c → 0 < c.pageSize ∧ 0 < c.maxSliceSize

@[simp] lemma sized_emit (event : ReplyEvent) : (s.emit event).Sized ↔ s.Sized := Iff.rfl

@[simp] lemma sized_requestQuitUpgradeWorkMode (message : String) :
    (s.requestQuitUpgradeWorkMode message).Sized ↔ s.Sized := Iff.rfl

@[simp] lemma sized_quitWithRollback (message : String) :
    (s.quitWithRollback message).Sized ↔ s.Sized := Iff.rfl

@[simp] lemma sized_requestQuerySegmentInfomation :
    s.requestQuerySegmentInfomation.Sized ↔ s.Sized := Iff.rfl

@[simp] lemma sized_requestUploadSegment : (s.requestUploadSegment c).Sized ↔ s.Sized := Iff.rfl

@[simp] lemma sized_updateProgress : s.updateProgress.Sized ↔ s.Sized := by
  rw [updateProgress]
  split_ifs <;> rfl

lemma sized_requestEnterUpgradeWorkMode : s.requestEnterUpgradeWorkMode.Sized := by
  rintro c hc
  obtain rfl := Option.some.inj hc
  exact ⟨by decide, by decide⟩

lemma sized_useSliceContext (h : s.Sized) :
    Ensures s.useSliceContext fun c => 0 < c.pageSize ∧ 0 < c.maxSliceSize := by
  intro c hc
  refine h c ?_
  cases hs : s.sliceContext with
  | none => simp [useSliceContext, hs] at hc
  | some c' =>
    rw [useSliceContext, hs] at hc
    exact congrArg some (Except.ok.inj hc)

lemma sized_requestNextSlice (hfile : file.KeepsSizes) (hpage : 0 < c.pageSize)
    (hsize : 0 < c.maxSliceSize) {started : UpdateSliceContext → ReplyState C → ReplyState C}
    (hstarted : ∀ c s, (started c s).Sized ↔ s.Sized) :
    (s.requestNextSlice file c started).Sized := by
  obtain ⟨hpage', hsize'⟩ := hfile s.context c
  have h : Sized { s with sliceContext := some (file.fillUpdateSliceContext s.context c).2 } := by
    rintro c' hc'
    obtain rfl := Option.some.inj hc'
    exact ⟨hpage' ▸ hpage, hsize' ▸ hsize⟩
  rw [requestNextSlice]
  dsimp only
  split_ifs
  · exact h
  · exact sized_requestUploadSegment.mpr ((hstarted _ _).mpr h)

lemma ensures_handleReplyQueryDevice (h : s.Sized) :
    Ensures (s.handleReplyQueryDevice payload) Sized := by
  rw [handleReplyQueryDevice]
  refine ensures_ite ?_ (ensures_ok.mpr h)
  split
  · refine ensures_ite ?_ (ensures_ok.mpr h)
    refine ensures_bind fun _ => ensures_bind fun _ => ensures_map.mpr ?_
    exact ensures_of_forall fun _ => h
  · exact ensures_ok.mpr h

lemma ensures_handleReplyQuerySoftwareVersion (h : s.Sized) :
    Ensures (s.handleReplyQuerySoftwareVersion file payload address) Sized := by
  rw [handleReplyQuerySoftwareVersion]
  refine ensures_ite (ensures_ok.mpr h) (ensures_ite (ensures_ok.mpr h) ?_)
  split
  · refine ensures_map.mpr (ensures_of_forall fun ret => ?_)
    split_ifs <;> exact h
  · exact ensures_ok.mpr h

lemma ensures_handleReplyQuerySegmentInfomation (hfile : file.KeepsSizes) (h : s.Sized) :
    Ensures (s.handleReplyQuerySegmentInfomation file payload address) Sized := by
  rw [handleReplyQuerySegmentInfomation]
  refine ensures_ite (ensures_ok.mpr h) (ensures_ite (ensures_ok.mpr h) ?_)
  refine ensures_bind fun _ => ensures_bind fun _ => ensures_bind fun _ => ensures_bind fun _ => ?_
  dsimp only
  refine ensures_ite (ensures_ok.mpr h) (ensures_map.mpr fun c hc => ?_)
  obtain ⟨hpage, hsize⟩ := sized_useSliceContext (s := { s with context := _ }) h c hc
  exact sized_requestNextSlice hfile hpage hsize fun _ _ => Iff.rfl

lemma ensures_handleReplyUpload {message : String} {accepted : UpdateSliceContext → ReplyState C}
    (h : s.Sized) (haccepted : ∀ c, 0 < c.pageSize → 0 < c.maxSliceSize → (accepted c).Sized) :
    Ensures (s.handleReplyUpload message payload address accepted) Sized := by
  rw [handleReplyUpload]
  refine ensures_ite (ensures_ok.mpr h) (ensures_ite (ensures_ok.mpr h) ?_)
  refine ensures_bind fun _ => ensures_ite (ensures_ok.mpr h) (ensures_bind fun _ => ?_)
  refine ensures_map.mpr fun c hc => ?_
  obtain ⟨hpage, hsize⟩ := sized_useSliceContext h c hc
  split_ifs
  · exact h
  · exact haccepted c hpage hsize
  · exact h
  · exact h

/-- A reply that is not one to `UPGRADE_ENTER` leaves the sizes of the slice context alone. -/
lemma ensures_handleCommand (hfile : file.KeepsSizes) (h : s.Sized)
    {command : Option UpdateTypeDef} (hcommand : command ≠ some .upgradeEnter) :
    Ensures (s.handleCommand file command payload address) Sized := by
  rcases command with _ | command
  · exact ensures_ok.mpr h
  have hnext : ∀ (s : ReplyState C) (c : UpdateSliceContext), 0 < c.pageSize →
      0 < c.maxSliceSize →
        (s.requestNextSlice file { c with seq := c.seq - 1 } fun _ s => s).Sized :=
    fun s c hpage hsize => sized_requestNextSlice (c := { c with seq := c.seq - 1 }) hfile hpage
      hsize fun _ _ => Iff.rfl
  cases command with
  | queryDevice => exact ensures_map.mpr (ensures_handleReplyQueryDevice h)
  | queryUpid =>
    refine ensures_map.mpr (ensures_ite ?_ (ensures_ok.mpr h))
    exact ensures_map.mpr (ensures_of_forall fun _ => h)
  | transferError => exact ensures_map.mpr (ensures_of_forall fun _ => h)
  | queryWorkMode =>
    refine ensures_map.mpr (ensures_ite ?_ (ensures_ok.mpr h))
    exact ensures_bind fun _ => ensures_map.mpr (ensures_of_forall fun _ => h)
  | upgradeEnter => exact absurd rfl hcommand
  | upgradeQuerySoftware => exact ensures_map.mpr (ensures_handleReplyQuerySoftwareVersion h)
  | upgradeQuerySegment =>
    exact ensures_map.mpr (ensures_handleReplyQuerySegmentInfomation hfile h)
  | upgradeIntVectorTable =>
    exact ensures_map.mpr (ensures_handleReplyUpload h fun c => hnext _ c)
  | upgradeCodeSegment =>
    refine ensures_map.mpr (ensures_handleReplyUpload h fun c hpage hsize => ?_)
    split_ifs
    · exact hnext _ c hpage hsize
    · exact sized_updateProgress.mpr h
  | upgradeResume => exact ensures_ok.mpr h
  | upgradeQuit =>
    refine ensures_ite (ensures_ok.mpr h) (ensures_map.mpr (ensures_ite (ensures_ok.mpr h) ?_))
    refine ensures_map.mpr (ensures_of_forall fun status => ?_)
    split_ifs <;> exact h

/-- A reply to `UPGRADE_ENTER`. -/
def EnterReply : UpdaterAction → Prop
  | .frame (command :: _) _ _ => UpdateTypeDef.ofByte command = some .upgradeEnter
  | _ => False

lemma step_sized (hfile : file.KeepsSizes) (h : s.Sized) {action : UpdaterAction}
    (haction : ¬ EnterReply action) (hstep : s.step file action = some s') : s'.Sized := by
  have hact : s.act file action = .ok s' := by
    rw [step] at hstep
    cases hs : s.act file action with
    | error e => simp [hs, Except.toOption] at hstep
    | ok t => simpa [hs, Except.toOption] using hstep
  refine (?_ : Ensures (s.act file action) Sized) s' hact
  cases action with
  | frame data address control_code =>
    refine ensures_ite (ensures_ok.mpr h) ?_
    cases data with
    | nil => exact fun a ha => by cases ha
    | cons command payload => exact ensures_handleCommand hfile h haction
  | startUpdate => exact ensures_ok.mpr sized_requestEnterUpgradeWorkMode
  | reloadUpgradeTask success =>
    refine ensures_ok.mpr ?_
    rw [reloadUpgradeTask]
    split_ifs
    · exact sized_requestEnterUpgradeWorkMode
    · exact h
    · exact h
  | _ => exact ensures_ok.mpr h

/-! ## From the reply to the loops -/

/-- Some time after `s₁`, and before the next reply to `UPGRADE_ENTER`, a reply starts the loops of
`fillUpdateSliceContext` on this context. -/
def LoopsRunOn (s₁ : ReplyState C) (c : UpdateSliceContext) : Prop :=
  ∃ (file : FileFunctions C) (actions : List UpdaterAction) (s₂ : ReplyState C)
      (command : Option UpdateTypeDef) (payload : List UInt8),
    file.KeepsSizes ∧ (∀ action ∈ actions, ¬ EnterReply action) ∧
      run (step file) s₁ actions = some s₂ ∧ FillsOn file s₂ payload c command ∧ c.seq < -1

/-- The request to enter the upgrade mode is answered; then, whatever happens before the next
answer, the loops end when they run. -/
def SlicingEnds (F : UpdateFileContext) (s : ReplyState C) (payload : List UInt8) : Prop :=
  ∃ s₁, s.requestEnterUpgradeWorkMode.handleReplyEnterUpgradeWorkMode payload
      s.updateDeviceAdress = .ok s₁ ∧ ∀ c, LoopsRunOn s₁ c → F.LoopsEnd c

/-- The handler does not look at the size of the pages. -/
lemma handleReplyEnter_eq (s : ReplyState C) (status page_size chip_id : UInt8)
    (rest : List UInt8) :
    ∃ (s₁ : ReplyState C) (c : UpdateSliceContext),
      s.requestEnterUpgradeWorkMode.handleReplyEnterUpgradeWorkMode
          (status :: page_size :: chip_id :: rest) s.updateDeviceAdress = .ok s₁ ∧
        s₁.sliceContext = some c ∧ c.maxSliceSize = 48 ∧ c.pageSize = page_size.toNat * 1024 ∧
        c.seq = -2 := by
  have hread : ∀ i (h : i < 3), readByte (status :: page_size :: chip_id :: rest) i =
      .ok ([status, page_size, chip_id].get ⟨i, h⟩) := by
    intro i h
    have hlen : i + 1 ≤ (status :: page_size :: chip_id :: rest).length := by
      simp only [List.length_cons]
      omega
    rw [readByte, readBytes, if_pos hlen]
    obtain rfl | rfl | rfl : i = 0 ∨ i = 1 ∨ i = 2 := by omega
    all_goals rfl
  have haddress : s.requestEnterUpgradeWorkMode.updateDeviceAdress = s.updateDeviceAdress := rfl
  rw [handleReplyEnterUpgradeWorkMode, haddress, if_neg (by simp), if_neg (by simp),
    hread 1 (by norm_num), hread 2 (by norm_num), hread 0 (by norm_num)]
  refine ⟨_, { updateSliceContext 48 with pageSize := page_size.toNat * 1024 }, rfl, ?_, rfl, rfl,
    rfl⟩
  dsimp only
  split_ifs <;> rfl

/-- File functions that accept every file. -/
def anyFile (context : C) : FileFunctions C where
  init _ _ := (true, context)
  checkFile _ _ _ _ _ _ _ := 1
  loadProgramData _ _ _ _ _ := (true, context)
  fillUpdateSliceContext _ c := (true, c)

/-- The next reply that tells the segments starts the loops. -/
lemma loopsRunOn_next (hc : s₁.sliceContext = some c) (hseq : c.seq < -1) : LoopsRunOn s₁ c :=
  ⟨anyFile s₁.context, [], s₁, some .upgradeQuerySegment, List.replicate 16 0,
    fun _ _ => ⟨rfl, rfl⟩, fun _ h => absurd h List.not_mem_nil, rfl, ⟨by simp, rfl, hc⟩, hseq⟩

/-- The loops only run on a context with pages and slices of some size. -/
lemma LoopsRunOn.sized (hs₁ : s₁.Sized) (h : LoopsRunOn s₁ c) :
    0 < c.pageSize ∧ 0 < c.maxSliceSize := by
  obtain ⟨file, actions, s₂, command, payload, hfile, hactions, hrun, hfills, -⟩ := h
  have hs₂ : s₂.Sized := by
    have hall : AllSteps (step file) (fun _ action => ¬ EnterReply action) s₁ actions :=
      allSteps_of_forall s₁ hactions
    exact run_inv_of_allSteps (fun _ _ _ hs haction hstep => step_sized hfile hs haction hstep) hs₁
      hall hrun
  have hconfirms : Confirms s₂ payload c → 0 < c.pageSize ∧ 0 < c.maxSliceSize := by
    rintro ⟨c₀, hc₀, rfl, -⟩
    exact hs₂ c₀ hc₀
  rcases command with _ | command
  · exact hfills.elim
  cases command with
  | upgradeQuerySegment => exact hs₂ c hfills.2.2
  | upgradeIntVectorTable => exact hconfirms hfills
  | upgradeCodeSegment => exact hconfirms hfills.1
  | _ => exact hfills.elim

/-- **Slicing terminates exactly when pages have a size**: for every state of the updater, every
image and every reply to the request to enter the upgrade mode, the loops end whenever a later
reply starts them, if and only if the size of the pages is not zero, or nothing was loaded. -/
theorem slicingEnds_iff (F : UpdateFileContext) (s : ReplyState C)
    (status page_size chip_id : UInt8) (rest : List UInt8) :
    SlicingEnds F s (status :: page_size :: chip_id :: rest) ↔
      page_size ≠ 0 ∨ F.vecData = [] ∧ F.codeData = [] := by
  obtain ⟨s₁, c, hhandle, hcontext, hsize, hpage_size, hseq⟩ :=
    handleReplyEnter_eq s status page_size chip_id rest
  have hpage : c.pageSize ≠ 0 ↔ page_size ≠ 0 := by
    rw [hpage_size, Nat.mul_ne_zero_iff, ← UInt8.toNat_inj.ne]
    simp
  simp only [SlicingEnds, hhandle, Except.ok.injEq, exists_eq_left']
  constructor
  · intro hends
    rw [← hpage]
    exact (UpdateFileContext.loopsEnd_iff (by omega)).mp
      (hends c (loopsRunOn_next hcontext (by omega)))
  · rintro (hne | hempty) c' hruns
    · have hs₁ : s₁.Sized := by
        intro c₀ hc₀
        obtain rfl := Option.some.inj (hcontext.symm.trans hc₀)
        exact ⟨Nat.pos_of_ne_zero (hpage.mpr hne), by omega⟩
      obtain ⟨hpos, hslice⟩ := hruns.sized hs₁
      exact UpdateFileContext.loopsEnd_of_pos hslice hpos
    · exact UpdateFileContext.loopsEnd_of_empty hempty.1 hempty.2

/-- The device reports pages of size zero, ready or busy, and one byte of vectors was loaded: the
loop over the vectors does not end. -/
theorem slicing_does_not_end :
    ¬ SlicingEnds ⟨[1], [], by decide, by decide⟩ (initial () false) [1, 0, 0] ∧
      ¬ SlicingEnds ⟨[1], [], by decide, by decide⟩ (initial () false) [0, 0, 0] ∧
      ∀ fuel, UpdateFileContext.sliceLoop 48 0 1 fuel 0 0 [] = none := by
  have hnot : ∀ status, ¬ SlicingEnds ⟨[1], [], by decide, by decide⟩ (initial () false)
      [status, 0, 0] := by
    rintro status ⟨s₁, hhandle, hends⟩
    obtain ⟨s₂, c, hhandle', hcontext, hsize, hpage_size, hseq⟩ :=
      handleReplyEnter_eq (initial () false) status 0 0 []
    obtain rfl := Except.ok.inj (hhandle'.symm.trans hhandle)
    rcases (UpdateFileContext.loopsEnd_iff (by omega)).mp
      (hends c (loopsRunOn_next hcontext (by omega))) with hpage | ⟨hvec, -⟩
    · exact hpage hpage_size
    · cases hvec
  exact ⟨hnot 1, hnot 0, fun fuel => UpdateFileContext.sliceLoop_page_zero Nat.one_pos fuel []⟩

end ReplyState

end SignalEventLoop.Device

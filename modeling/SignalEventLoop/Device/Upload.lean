/-
# The upload of an image

The slices of an image are requested in order, each after the one before it was acknowledged,
and the upload ends with success after the last one.  The handlers of the two replies compare
the packet number only, and the numbers are used twice, once in each segment: a reply of the
other type with the current number is taken for an acknowledgement.  And only the handler of
the code ends an upload: an image without code fails when its last slice is acknowledged.
The upload goes as it should if and only if neither happens (`OwnReply`).
-/
import SignalEventLoop.Device.Updater

namespace SignalEventLoop.Device

/-- The slices that were requested. -/
def requests (log : List UpdaterEvent) : List (Option Slice) :=
  log.filterMap fun
    | .request slice _ => some slice
    | _ => none

/-- The reply reports the success of this slice, with its type and packet number. -/
structure Acknowledges (x : Slice) (reply : UploadReply) : Prop where
  status : reply.status = UploadReply.statusSuccess
  command : reply.command = x.type
  packetNo : reply.packetNo = packetNo x.seq

/-- The updater has left the slice after a reply that acknowledges it. -/
def Acknowledged (log : List UpdaterEvent) (x : Slice) : Prop :=
  ∃ reply, .progress (some x) reply ∈ log ∧ Acknowledges x reply

/-- `UPGRADE_SUCCESS` was reached. -/
def Succeeded (log : List UpdaterEvent) : Prop := ∃ message, .quit .success message ∈ log

namespace AimyUpdater

variable (U : AimyUpdater)

/-- The slices are requested in order; a slice is left only by a reply that acknowledges it,
and a next one is requested only then; `quitStatus` is `UPGRADE_SUCCESS` only when all slices
are acknowledged, and this is reached when they are. -/
structure InOrder (s : UpdaterState) : Prop where
  requested : requests s.log <+: U.slices.map some
  own : ∀ x reply, .progress x reply ∈ s.log → ∃ y, x = some y ∧ Acknowledges y reply
  left : ∀ x, some x ∈ (requests s.log).dropLast → Acknowledged s.log x
  success : s.quitStatus = .success → ∀ x ∈ U.slices, Acknowledged s.log x
  finished : (∀ x ∈ U.slices, Acknowledged s.log x) → Succeeded s.log

/-- The handlers take the reply for an acknowledgement of the current slice. -/
def Accepts (s : UpdaterState) (reply : UploadReply) : Prop :=
  reply.address = U.updateDeviceAdress ∧ ¬ reply.FalseFormat ∧
    reply.packetNo = packetNo s.sliceContext.seq ∧ reply.status = UploadReply.statusSuccess

/-- The condition on a reply: a reply with the number of the current slice and the status
`SUCCESS` has its type, and does not acknowledge the last slice of an image without code. -/
def OwnReply (s : UpdaterState) (reply : UploadReply) : Prop :=
  U.Accepts s reply → reply.command = s.sliceContext.type ∧
    (s.sliceContext.type = .vector → s.sliceContext.seq = 0 → U.context.codeData ≠ [])

instance decidableAccepts (s : UpdaterState) (reply : UploadReply) :
    Decidable (U.Accepts s reply) :=
  inferInstanceAs (Decidable (_ ∧ _))

instance decidableOwnReply (s : UpdaterState) (reply : UploadReply) :
    Decidable (U.OwnReply s reply) :=
  inferInstanceAs (Decidable (_ → _))

end AimyUpdater

/-! ## What a log records -/

section

variable {log new : List UpdaterEvent} {x : Slice}

lemma requests_append : requests (log ++ new) = requests log ++ requests new :=
  List.filterMap_append

lemma Acknowledged.append (h : Acknowledged log x) : Acknowledged (log ++ new) x := by
  obtain ⟨reply, hmem, hack⟩ := h
  exact ⟨reply, List.mem_append_left _ hmem, hack⟩

lemma Succeeded.append (h : Succeeded log) : Succeeded (log ++ new) := by
  obtain ⟨message, hmem⟩ := h
  exact ⟨message, List.mem_append_left _ hmem⟩

end

namespace AimyUpdater

variable {U : AimyUpdater} {s s' : UpdaterState} {reply : UploadReply} {x y : Slice} {k : ℕ}

/-! ## One reply -/

lemma requestNext_of_ne {F : UpdateFileContext} {c : UpdateSliceContext}
    (hfill : F.fillUpdateSliceContext s.sliceContext = some (true, c)) (hlen : c.dataLen ≠ 0) :
    s.requestNext F = some (UpdaterState.requestUploadSegment { s with sliceContext := c }) := by
  rw [UpdaterState.requestNext, hfill, Option.map_some]
  dsimp only
  rw [if_neg (by simpa using hlen)]

lemma requestNext_of_eq {F : UpdateFileContext} {c : UpdateSliceContext}
    (hfill : F.fillUpdateSliceContext s.sliceContext = some (true, c)) (hlen : c.dataLen = 0) :
    s.requestNext F = some (UpdaterState.requestQuitUpgradeWorkMode { s with sliceContext := c }
      .errorWithRollback "read slice failed!") := by
  rw [UpdaterState.requestNext, hfill, Option.map_some]
  dsimp only
  rw [if_pos (Or.inr hlen)]

lemma requestNext_log {F : UpdateFileContext} (h : s.requestNext F = some s') :
    ∃ e, s'.log = s.log ++ [e] := by
  obtain ⟨⟨ret, c⟩, -, rfl⟩ := Option.map_eq_some_iff.mp h
  dsimp only
  split_ifs
  · exact ⟨_, rfl⟩
  · exact ⟨_, rfl⟩

/-- A reply that is not accepted does not change the context, requests nothing, and ends
nothing with success. -/
lemma step_of_not_accepts (hnot : ¬ U.Accepts s reply) :
    U.step s reply = some s ∨ U.step s reply = some s.onSendTimeout ∨
      ∃ message, U.step s reply =
        some (s.requestQuitUpgradeWorkMode .errorWithRollback message) := by
  unfold step handleReplyUploadVectorTable handleReplyUploadCodeSegment
  by_cases haddr : reply.address = U.updateDeviceAdress
  · by_cases hformat : reply.FalseFormat
    · refine Or.inr (Or.inr ?_)
      cases reply.command <;> simp [haddr, hformat]
    · by_cases hno : reply.packetNo = packetNo s.sliceContext.seq
      · have hstatus : reply.status ≠ UploadReply.statusSuccess :=
          fun hstatus => hnot ⟨haddr, hformat, hno, hstatus⟩
        by_cases hmissing : reply.status = UploadReply.statusMissing
        · refine Or.inr (Or.inl ?_)
          have hne : ¬ UploadReply.statusMissing = UploadReply.statusSuccess := by decide
          cases reply.command <;> simp [haddr, hformat, hno, hmissing, hne]
        · refine Or.inl ?_
          cases reply.command <;> simp [haddr, hformat, hno, hstatus, hmissing]
      · refine Or.inl ?_
        cases reply.command <;> simp [haddr, hformat, hno]
  · refine Or.inl ?_
    cases reply.command <;> simp [haddr]

/-- A reply that is accepted: the code ends at number 0, everything else goes on. -/
lemma step_of_accepts (hacc : U.Accepts s reply) :
    U.step s reply =
      if reply.command = .code ∧ s.sliceContext.seq ≤ 0 then
        some ((s.updateProgress reply).requestQuitUpgradeWorkMode .success "success")
      else ((s.updateProgress reply).decreaseSeq).requestNext U.context := by
  obtain ⟨haddr, hformat, hno, hstatus⟩ := hacc
  unfold step handleReplyUploadVectorTable handleReplyUploadCodeSegment
  cases hcommand : reply.command with
  | vector => simp [haddr, hformat, hno, hstatus]
  | code =>
    by_cases hseq : 0 < s.sliceContext.seq
    · simp [haddr, hformat, hno, hstatus, hseq, not_le.mpr hseq]
    · simp [haddr, hformat, hno, hstatus, hseq, not_lt.mp hseq]

/-- The reply is recorded together with the current slice. -/
lemma step_records (hacc : U.Accepts s reply) (hs' : U.step s reply = some s') :
    .progress s.sliceContext.current reply ∈ s'.log := by
  rw [step_of_accepts hacc] at hs'
  split_ifs at hs'
  · rw [← Option.some.inj hs']
    simp [UpdaterState.requestQuitUpgradeWorkMode, UpdaterState.updateProgress]
  · obtain ⟨e, he⟩ := requestNext_log hs'
    rw [he]
    simp [UpdaterState.decreaseSeq, UpdaterState.updateProgress]

/-! ## The invariant -/

/-- The slice number `k` of the image is uploaded. -/
structure Uploading (U : AimyUpdater) (k : ℕ) (x : Slice) (s : UpdaterState) : Prop where
  holds : Holds U.context s.sliceContext x
  slices : s.sliceContext.slices = U.slices
  get : U.slices[k]? = some x
  requested : requests s.log = (U.slices.take (k + 1)).map some
  progress : ∀ y reply, .progress y reply ∈ s.log → ∃ i z, y = some z ∧ Acknowledges z reply ∧
    U.slices[i]? = some z ∧ i ≤ k ∧ (i = k → Succeeded s.log)
  before : ∀ i < k, ∀ y, U.slices[i]? = some y → Acknowledged s.log y
  succeeded : Succeeded s.log →
    U.slices[k + 1]? = none ∧ x.type = .code ∧ Acknowledged s.log x
  success : s.quitStatus = .success → Succeeded s.log

lemma Uploading.nodup (h : Uploading U k x s) : U.slices.Nodup :=
  h.slices ▸ UpdateSliceContext.nodup_slices

lemma Uploading.current (h : Uploading U k x s) : s.sliceContext.current = some x :=
  h.holds.current (h.slices.symm ▸ h.get)

lemma Uploading.codeMap_eq_nil (h : Uploading U k x s) :
    s.sliceContext.codeMap = [] ↔ U.context.codeData = [] := by
  refine (h.holds.cut.tiles .code).ne_nil.trans ?_
  exact List.length_eq_zero_iff

/-- When the last slice is acknowledged, all are. -/
lemma Uploading.acknowledged_all (h : Uploading U k x s) (hlast : U.slices[k + 1]? = none)
    {log : List UpdaterEvent} (hbefore : ∀ y, Acknowledged s.log y → Acknowledged log y)
    (hx : Acknowledged log x) : ∀ y ∈ U.slices, Acknowledged log y := by
  intro y hy
  obtain ⟨i, hi⟩ := List.mem_iff_getElem?.mp hy
  have hlt := (List.getElem?_eq_some_iff.mp hi).1
  have hlen := List.getElem?_eq_none_iff.mp hlast
  rcases Nat.lt_or_ge i k with hik | hik
  · exact hbefore y (h.before i hik y hi)
  · obtain rfl : i = k := by omega
    obtain rfl : x = y := Option.some.inj (h.get.symm.trans hi)
    exact hx

lemma Uploading.inOrder (h : Uploading U k x s) : U.InOrder s where
  requested := by
    rw [h.requested]
    exact (List.take_prefix _ _).map _
  own := by
    intro y reply hmem
    obtain ⟨i, z, hy, hack, -⟩ := h.progress y reply hmem
    exact ⟨z, hy, hack⟩
  left := by
    intro y hy
    have hlt := (List.getElem?_eq_some_iff.mp h.get).1
    rw [h.requested, ← List.map_dropLast, List.dropLast_eq_take, List.length_take,
      List.take_take, show min (min (k + 1) U.slices.length - 1) (k + 1) = k by omega] at hy
    obtain ⟨z, hz, hzy⟩ := List.mem_map.mp hy
    obtain rfl : z = y := Option.some.inj hzy
    obtain ⟨i, hi⟩ := List.mem_iff_getElem?.mp hz
    rw [List.getElem?_take] at hi
    split_ifs at hi with hik
    exact h.before i hik z hi
  success := by
    intro hstatus
    obtain ⟨hlast, -, hack⟩ := h.succeeded (h.success hstatus)
    exact h.acknowledged_all hlast (fun _ => id) hack
  finished := by
    intro hall
    obtain ⟨reply, hmem, -⟩ := hall x (List.mem_of_getElem? h.get)
    obtain ⟨i, z, hz, -, hget, -, hsucc⟩ := h.progress _ reply hmem
    obtain rfl : x = z := Option.some.inj hz
    refine hsucc ?_
    have hi := (List.getElem?_eq_some_iff.mp hget).1
    exact (List.getElem?_inj hi h.nodup).mp (hget.trans h.get.symm)

/-- An event that neither requests nor acknowledges anything, nor ends the upload with
success. -/
lemma Uploading.quiet (h : Uploading U k x s) {e : UpdaterEvent} (hreq : requests [e] = [])
    (hprogress : ∀ y reply, .progress y reply ≠ e) (hquit : ∀ message, .quit .success message ≠ e)
    (hcontext : s'.sliceContext = s.sliceContext) (hlog : s'.log = s.log ++ [e])
    (hstatus : s'.quitStatus = .success → s.quitStatus = .success) : Uploading U k x s' where
  holds := hcontext.symm ▸ h.holds
  slices := hcontext.symm ▸ h.slices
  get := h.get
  requested := by rw [hlog, requests_append, hreq, List.append_nil, h.requested]
  progress := by
    intro y reply hmem
    rw [hlog] at hmem ⊢
    rcases List.mem_append.mp hmem with hmem | hmem
    · obtain ⟨i, z, hy, hack, hget, hle, hsucc⟩ := h.progress y reply hmem
      exact ⟨i, z, hy, hack, hget, hle, fun hi => (hsucc hi).append⟩
    · exact absurd (List.mem_singleton.mp hmem) (hprogress y reply)
  before := by
    intro i hi y hy
    rw [hlog]
    exact (h.before i hi y hy).append
  succeeded := by
    rintro ⟨message, hmem⟩
    rw [hlog] at hmem ⊢
    rcases List.mem_append.mp hmem with hmem | hmem
    · obtain ⟨hlast, htype, hack⟩ := h.succeeded ⟨message, hmem⟩
      exact ⟨hlast, htype, hack.append⟩
    · exact absurd (List.mem_singleton.mp hmem) (hquit message)
  success := by
    intro hs'
    rw [hlog]
    exact (h.success (hstatus hs')).append

/-- A reply of the own type acknowledges the current slice. -/
lemma Uploading.acknowledges (h : Uploading U k x s) (hacc : U.Accepts s reply)
    (hcommand : reply.command = s.sliceContext.type) : Acknowledges x reply where
  status := hacc.2.2.2
  command := hcommand.trans h.holds.type
  packetNo := hacc.2.2.1.trans (congrArg packetNo h.holds.seq)

/-- The log after the current slice is acknowledged and the next one requested. -/
lemma Uploading.advance (h : Uploading U k x s) (hack : Acknowledges x reply)
    (hy : U.slices[k + 1]? = some y) (hholds : Holds U.context s'.sliceContext y)
    (hslices : s'.sliceContext.slices = U.slices) (frame : UploadFrame)
    (hlog : s'.log = s.log ++ [.progress (some x) reply, .request (some y) frame])
    (hstatus : s'.quitStatus = s.quitStatus) : Uploading U (k + 1) y s' := by
  have hnot : ¬ Succeeded s.log := by
    intro hsucc
    rw [(h.succeeded hsucc).1] at hy
    exact absurd hy (by simp)
  refine ⟨hholds, hslices, hy, ?_, ?_, ?_, ?_, ?_⟩
  · have htake : U.slices.take (k + 1 + 1) = U.slices.take (k + 1) ++ [y] := by
      rw [List.take_add_one, hy]
      rfl
    rw [hlog, requests_append, h.requested, htake, List.map_append]
    rfl
  · intro z r hmem
    rw [hlog] at hmem
    rcases List.mem_append.mp hmem with hmem | hmem
    · obtain ⟨i, w, hw, hackw, hget, hle, -⟩ := h.progress z r hmem
      exact ⟨i, w, hw, hackw, hget, by omega, fun hi => by omega⟩
    · simp only [List.mem_cons, UpdaterEvent.progress.injEq, reduceCtorEq, List.not_mem_nil,
        or_false] at hmem
      obtain ⟨rfl, rfl⟩ := hmem
      exact ⟨k, x, rfl, hack, h.get, by omega, fun hi => by omega⟩
  · intro i hi z hz
    rw [hlog]
    rcases Nat.lt_or_ge i k with hik | hik
    · exact (h.before i hik z hz).append
    · obtain rfl : i = k := by omega
      obtain rfl : x = z := Option.some.inj (h.get.symm.trans hz)
      exact ⟨reply, by simp, hack⟩
  · rintro ⟨message, hmem⟩
    rw [hlog] at hmem
    rcases List.mem_append.mp hmem with hmem | hmem
    · exact absurd ⟨message, hmem⟩ hnot
    · simp at hmem
  · intro hs'
    exact absurd (h.success (hstatus ▸ hs')) hnot

lemma Uploading.cut_decreaseSeq (h : Uploading U k x s) :
    Cut U.context ((s.updateProgress reply).decreaseSeq).sliceContext :=
  ⟨h.holds.cut.size_pos, h.holds.cut.data_length, h.holds.cut.tiles, h.holds.cut.length_lt⟩

/-- The next slice is requested. -/
lemma Uploading.next (h : Uploading U k x s) (hacc : U.Accepts s reply)
    (hcommand : reply.command = s.sliceContext.type) (hy : U.slices[k + 1]? = some y) :
    ∃ s', U.step s reply = some s' ∧ Uploading U (k + 1) y s' := by
  have hack := h.acknowledges hacc hcommand
  have htype := h.holds.type
  have hseq := h.holds.seq
  -- the slice after the current one
  have hnext := UpdateSliceContext.slice_next (h.slices.symm ▸ h.get) (h.slices.symm ▸ hy)
  have hgoes : ¬ (reply.command = .code ∧ s.sliceContext.seq ≤ 0) := by
    rintro ⟨hcode, hle⟩
    rcases hnext with ⟨-, hpred⟩ | ⟨hvector, -⟩
    · omega
    · rw [hack.command, hvector] at hcode
      exact absurd hcode (by decide)
  have hpoint : (s.sliceContext.type = y.type ∧ s.sliceContext.seq - 1 = y.seq) ∨
      (s.sliceContext.type = .vector ∧ s.sliceContext.seq - 1 = -1 ∧ y.type = .code ∧
        y.seq + 1 = s.sliceContext.codeMap.length) := by
    rcases hnext with ⟨hsame, hpred⟩ | ⟨hvector, hzero, hcode, hfirst⟩
    · exact Or.inl ⟨htype.trans hsame.symm, by omega⟩
    · exact Or.inr ⟨htype.trans hvector, by omega, hcode, hfirst⟩
  obtain ⟨c', hfill, hholds, hslices, -⟩ := UpdateFileContext.fillUpdateSliceContext_spec
    (c := ((s.updateProgress reply).decreaseSeq).sliceContext) h.cut_decreaseSeq
    (h.slices.symm ▸ hy) hpoint
  have hslices' : c'.slices = U.slices := hslices.trans h.slices
  refine ⟨UpdaterState.requestUploadSegment
    { (s.updateProgress reply).decreaseSeq with sliceContext := c' }, ?_,
    h.advance hack hy hholds hslices' ⟨c'.type, packetNo c'.seq,
      crcRc16 (c'.data.take c'.dataLen), c'.data.take c'.dataLen⟩ ?_ rfl⟩
  · rw [step_of_accepts hacc, if_neg hgoes, requestNext_of_ne hfill hholds.dataLen_ne]
  · simp [UpdaterState.requestUploadSegment, UpdaterState.decreaseSeq, UpdaterState.updateProgress,
      h.current, hholds.current (hslices'.symm ▸ hy)]

/-- The last slice of the code is acknowledged. -/
lemma Uploading.finish (h : Uploading U k x s) (hacc : U.Accepts s reply)
    (hcommand : reply.command = s.sliceContext.type) (hlast : U.slices[k + 1]? = none)
    (hcode : x.type = .code) :
    ∃ s', U.step s reply = some s' ∧ Uploading U k x s' := by
  have hack := h.acknowledges hacc hcommand
  have hzero := (UpdateSliceContext.slice_last (h.slices.symm ▸ h.get)
    (h.slices.symm ▸ hlast)).1
  have hends : reply.command = .code ∧ s.sliceContext.seq ≤ 0 :=
    ⟨hack.command.trans hcode, by rw [h.holds.seq, hzero]; exact le_refl _⟩
  refine ⟨(s.updateProgress reply).requestQuitUpgradeWorkMode .success "success", ?_, ?_⟩
  · rw [step_of_accepts hacc, if_pos hends]
  · have hlog : ((s.updateProgress reply).requestQuitUpgradeWorkMode .success "success").log =
        s.log ++ [.progress (some x) reply, .quit .success "success"] := by
      simp [UpdaterState.requestQuitUpgradeWorkMode, UpdaterState.updateProgress, h.current]
    have hsucc : Succeeded
        ((s.updateProgress reply).requestQuitUpgradeWorkMode .success "success").log :=
      ⟨"success", by rw [hlog]; simp⟩
    refine ⟨h.holds, h.slices, h.get, ?_, ?_, ?_, fun _ => ⟨hlast, hcode, reply, ?_, hack⟩,
      fun _ => hsucc⟩
    · rw [hlog, requests_append, h.requested]
      exact List.append_nil _
    · intro z r hmem
      rw [hlog] at hmem
      rcases List.mem_append.mp hmem with hmem | hmem
      · obtain ⟨i, w, hw, hackw, hget, hle, -⟩ := h.progress z r hmem
        exact ⟨i, w, hw, hackw, hget, hle, fun _ => hsucc⟩
      · simp only [List.mem_cons, UpdaterEvent.progress.injEq, reduceCtorEq, List.not_mem_nil,
          or_false] at hmem
        obtain ⟨rfl, rfl⟩ := hmem
        exact ⟨k, x, rfl, hack, h.get, le_refl _, fun _ => hsucc⟩
    · intro i hi z hz
      rw [hlog]
      exact (h.before i hi z hz).append
    · rw [hlog]
      simp

/-- The last slice of an image without code is acknowledged: the upload fails. -/
lemma Uploading.fails (h : Uploading U k x s) (hacc : U.Accepts s reply)
    (hcommand : reply.command = .vector) (htype : s.sliceContext.type = .vector)
    (hseq : s.sliceContext.seq = 0) (hempty : U.context.codeData = [])
    (hs' : U.step s reply = some s') :
    U.slices[k + 1]? = none ∧ s'.log = s.log ++ [.progress (some x) reply,
      .quit .errorWithRollback "read slice failed!"] := by
  have hcode := h.codeMap_eq_nil.mpr hempty
  have hxtype : x.type = .vector := h.holds.type.symm.trans htype
  have hxseq : x.seq = 0 := by
    have := h.holds.seq
    omega
  refine ⟨?_, ?_⟩
  · cases hnext : U.slices[k + 1]? with
    | none => rfl
    | some y =>
      rcases UpdateSliceContext.slice_next (h.slices.symm ▸ h.get) (h.slices.symm ▸ hnext) with
        ⟨-, hpred⟩ | ⟨-, -, -, hfirst⟩
      · omega
      · rw [hcode] at hfirst
        exact absurd hfirst (by simp)
  · obtain ⟨c', hfill, hlen⟩ := UpdateFileContext.fillUpdateSliceContext_end (F := U.context)
      (c := ((s.updateProgress reply).decreaseSeq).sliceContext) h.cut_decreaseSeq htype
      (by rw [UpdaterState.decreaseSeq, UpdaterState.updateProgress, hseq]; rfl) hcode
    rw [step_of_accepts hacc, if_neg (by rw [hcommand]; simp),
      requestNext_of_eq hfill hlen] at hs'
    rw [← Option.some.inj hs']
    simp [UpdaterState.requestQuitUpgradeWorkMode, UpdaterState.decreaseSeq,
      UpdaterState.updateProgress, h.current]

/-- The states of an upload that goes as it should. -/
def Good (U : AimyUpdater) (s : UpdaterState) : Prop := ∃ k x, Uploading U k x s

/-- A step that meets the condition. -/
lemma Good.next (h : Good U s) (hown : U.OwnReply s reply) :
    ∃ s', U.step s reply = some s' ∧ Good U s' := by
  obtain ⟨k, x, h⟩ := h
  by_cases hacc : U.Accepts s reply
  · obtain ⟨hcommand, hcode⟩ := hown hacc
    cases hnext : U.slices[k + 1]? with
    | some y =>
      obtain ⟨s', hs', h'⟩ := h.next hacc hcommand hnext
      exact ⟨s', hs', k + 1, y, h'⟩
    | none =>
      obtain ⟨hzero, hlast⟩ := UpdateSliceContext.slice_last (h.slices.symm ▸ h.get)
        (h.slices.symm ▸ hnext)
      have htype : x.type = .code := by
        cases hx : x.type with
        | code => rfl
        | vector =>
          have hne := hcode (h.holds.type.trans hx) (by rw [h.holds.seq, hzero]; rfl)
          rw [hlast fun hnil => hne (h.codeMap_eq_nil.mp hnil)] at hx
          exact absurd hx (by decide)
      obtain ⟨s', hs', h'⟩ := h.finish hacc hcommand hnext htype
      exact ⟨s', hs', k, x, h'⟩
  · rcases step_of_not_accepts hacc with hs' | hs' | ⟨message, hs'⟩
    · exact ⟨s, hs', k, x, h⟩
    · exact ⟨_, hs', k, x, h.quiet (e := .resend) rfl (by simp) (by simp) rfl rfl id⟩
    · exact ⟨_, hs', k, x, h.quiet (e := .quit .errorWithRollback message) rfl (by simp) (by simp)
        rfl rfl fun hstatus => absurd hstatus (by simp [UpdaterState.requestQuitUpgradeWorkMode])⟩

/-- A step that does not meet the condition. -/
lemma Good.not_inOrder (h : Good U s) (hnot : ¬ U.OwnReply s reply)
    (hs' : U.step s reply = some s') : ¬ U.InOrder s' := by
  obtain ⟨k, x, h⟩ := h
  intro hin
  obtain ⟨hacc, hnot⟩ := Classical.not_imp.mp hnot
  have hrecord := step_records hacc hs'
  rw [h.current] at hrecord
  obtain ⟨y, hy, hack⟩ := hin.own _ _ hrecord
  obtain rfl : x = y := Option.some.inj hy
  -- the reply has the type of the slice, which is the last of an image without code
  have hcommand : reply.command = s.sliceContext.type := hack.command.trans h.holds.type.symm
  obtain ⟨htype, hseq, hempty⟩ : s.sliceContext.type = .vector ∧ s.sliceContext.seq = 0 ∧
      U.context.codeData = [] := by
    by_contra hno
    exact hnot ⟨hcommand, fun htype hseq hempty => hno ⟨htype, hseq, hempty⟩⟩
  obtain ⟨hlast, hlog⟩ := h.fails hacc (hcommand.trans htype) htype hseq hempty hs'
  have hall : ∀ y ∈ U.slices, Acknowledged s'.log y :=
    h.acknowledged_all hlast (fun y hy => hlog.symm ▸ hy.append) ⟨reply, hrecord, hack⟩
  obtain ⟨message, hmem⟩ := hin.finished hall
  rw [hlog] at hmem
  rcases List.mem_append.mp hmem with hmem | hmem
  · have hcode := (h.succeeded ⟨message, hmem⟩).2.1
    rw [← h.holds.type, htype] at hcode
    exact absurd hcode (by decide)
  · simp at hmem

/-! ## Whole uploads -/

lemma fresh_sliceContext (U : AimyUpdater) : UpdateFileContext.Fresh U.sliceContext where
  size_dvd := by
    show 4 ∣ 48
    decide
  size_pos := by
    show 0 < 48
    decide
  page_dvd := Dvd.dvd.mul_left (by decide) _
  page_pos := Nat.mul_pos (UInt8.lt_iff_toNat_lt.mp U.pageSize_pos) (by decide)
  data_length := rfl
  vectorMap := rfl
  codeMap := rfl
  seq := by
    show (-2 : ℤ) < -1
    decide

/-- There is a first slice, because the image is not empty. -/
lemma exists_first_slice (U : AimyUpdater) : ∃ x, U.slices[0]? = some x := by
  obtain ⟨c, hinit, hcut, -⟩ :=
    UpdateFileContext.initMaps_spec (F := U.context) (fresh_sliceContext U)
  have hslices : U.slices = c.slices := by rw [slices, UpdateFileContext.slices, hinit]
  have hpos : 0 < U.slices.length := by
    rw [hslices, UpdateSliceContext.slices, List.length_append, length_slicesOf, length_slicesOf]
    rcases U.not_empty with hne | hne
    · have := List.length_pos_of_ne_nil fun hnil => hne (List.length_eq_zero_iff.mp
        ((hcut.tiles .vector).ne_nil.mp hnil))
      exact Nat.add_pos_left this _
    · have := List.length_pos_of_ne_nil fun hnil => hne (List.length_eq_zero_iff.mp
        ((hcut.tiles .code).ne_nil.mp hnil))
      exact Nat.add_pos_right _ this
  exact ⟨_, List.getElem?_eq_getElem hpos⟩

/-- The upload begins with the first slice. -/
lemma good_start (U : AimyUpdater) :
    ∃ s, U.handleReplyQuerySegmentInfomation = some s ∧ Good U s := by
  obtain ⟨x, hx⟩ := exists_first_slice U
  obtain ⟨c, hfill, hholds, hslices⟩ := UpdateFileContext.fillUpdateSliceContext_first
    (F := U.context) (fresh_sliceContext U) hx
  have hslices' : c.slices = U.slices := hslices
  have hlog : (UpdaterState.requestUploadSegment { U.init with sliceContext := c }).log =
      [.request (some x) ⟨c.type, packetNo c.seq, crcRc16 (c.data.take c.dataLen),
        c.data.take c.dataLen⟩] := by
    rw [UpdaterState.requestUploadSegment, hholds.current (hslices'.symm ▸ hx)]
    rfl
  refine ⟨_, requestNext_of_ne hfill hholds.dataLen_ne, 0, x, hholds, hslices', hx, ?_, ?_,
    fun i hi => absurd hi (Nat.not_lt_zero i), ?_, fun hstatus => absurd hstatus ?_⟩
  · rw [hlog, List.take_add_one, hx]
    rfl
  · intro y reply hmem
    rw [hlog] at hmem
    simp at hmem
  · rintro ⟨message, hmem⟩
    rw [hlog] at hmem
    simp at hmem
  · show UpgradeQuitStatus.errorWithoutRollback ≠ .success
    decide

/-- **The upload of an image.** For every image and all replies, the upload goes as it should
in every state of the run if and only if every reply that is taken for an acknowledgement has
the type of the current slice, and none of them is for the last slice of an image without
code. -/
theorem upload_inOrder_iff (U : AimyUpdater) (replies : List UploadReply) :
    ∃ s₀, U.handleReplyQuerySegmentInfomation = some s₀ ∧
      (((∃ s, Lib.run U.step s₀ replies = some s) ∧
        Lib.AllStates U.step U.InOrder s₀ replies) ↔
      Lib.AllSteps U.step U.OwnReply s₀ replies) := by
  obtain ⟨s₀, hs₀, hgood⟩ := good_start U
  refine ⟨s₀, hs₀, Lib.run_allStates_iff (fun _ _ h hown => h.next hown)
    (fun _ _ _ h hnot hs' => h.not_inOrder hnot hs') ?_ hgood⟩
  rintro s ⟨k, x, h⟩
  exact h.inOrder

/-- An image of four bytes of vectors, and code of this length. -/
def sampleUpdater (code : List UInt8) (hlt : code.length < 2 ^ 32) : AimyUpdater where
  context := ⟨[1, 2, 3, 4], code, by decide, hlt⟩
  not_empty := Or.inl (by simp)
  updateDeviceAdress := 1
  pageSize := 1
  pageSize_pos := by decide

/-- `SUCCESS` for packet 0. -/
def successReply (command : SliceType) : UploadReply := ⟨command, 1, [0, 0, 0]⟩

/-- Two slices with the number 0: while the vectors are uploaded, a reply for the code ends
the upload with success, and the code is never requested.  And an image without code: the
acknowledgement of its only slice ends the upload with an error. -/
theorem reply_of_other_type :
    (∃ s₀ s, (sampleUpdater [5, 6, 7, 8] (by decide)).handleReplyQuerySegmentInfomation = some s₀ ∧
      Lib.run (sampleUpdater [5, 6, 7, 8] (by decide)).step s₀ [successReply .code] = some s ∧
      s.quitStatus = .success ∧ requests s.log = [some ⟨.vector, 0, 0, 4⟩] ∧
      (sampleUpdater [5, 6, 7, 8] (by decide)).slices = [⟨.vector, 0, 0, 4⟩, ⟨.code, 0, 0, 4⟩] ∧
      ¬ (sampleUpdater [5, 6, 7, 8] (by decide)).InOrder s) ∧
    ∃ s₀ s, (sampleUpdater [] (by decide)).handleReplyQuerySegmentInfomation = some s₀ ∧
      Lib.run (sampleUpdater [] (by decide)).step s₀ [successReply .vector] = some s ∧
      s.quitStatus = .errorWithRollback ∧
      (∀ x ∈ (sampleUpdater [] (by decide)).slices, Acknowledged s.log x) ∧
      ¬ Succeeded s.log := by
  refine ⟨?_, ?_⟩
  · have hrun : ((sampleUpdater [5, 6, 7, 8] (by decide)).handleReplyQuerySegmentInfomation.bind
        fun s₀ => (Lib.run (sampleUpdater [5, 6, 7, 8] (by decide)).step s₀
          [successReply .code]).map fun s => (s.quitStatus, requests s.log,
            decide (.progress (some ⟨.vector, 0, 0, 4⟩) (successReply .code) ∈ s.log))) =
        some (.success, [some ⟨.vector, 0, 0, 4⟩], true) := by decide +kernel
    obtain ⟨s₀, hs₀, hmap⟩ := Option.bind_eq_some_iff.mp hrun
    obtain ⟨s, hs, hlog⟩ := Option.map_eq_some_iff.mp hmap
    simp only [Prod.mk.injEq, decide_eq_true_eq] at hlog
    obtain ⟨hstatus, hrequests, hmem⟩ := hlog
    refine ⟨s₀, s, hs₀, hs, hstatus, hrequests, by decide +kernel, fun hin => ?_⟩
    obtain ⟨y, hy, hack⟩ := hin.own _ _ hmem
    obtain rfl := Option.some.inj hy
    exact absurd hack.command (by decide)
  · have hrun : ((sampleUpdater [] (by decide)).handleReplyQuerySegmentInfomation.bind
        fun s₀ => (Lib.run (sampleUpdater [] (by decide)).step s₀ [successReply .vector]).map
          fun s => (s.quitStatus, decide (.progress (some ⟨.vector, 0, 0, 4⟩)
            (successReply .vector) ∈ s.log),
            s.log.all fun | .quit .success _ => false | _ => true)) =
        some (.errorWithRollback, true, true) := by decide +kernel
    obtain ⟨s₀, hs₀, hmap⟩ := Option.bind_eq_some_iff.mp hrun
    obtain ⟨s, hs, hlog⟩ := Option.map_eq_some_iff.mp hmap
    simp only [Prod.mk.injEq, decide_eq_true_eq] at hlog
    obtain ⟨hstatus, hmem, hquit⟩ := hlog
    have hslices : (sampleUpdater [] (by decide)).slices = [⟨.vector, 0, 0, 4⟩] := by
      decide +kernel
    refine ⟨s₀, s, hs₀, hs, hstatus, fun x hx => ?_, ?_⟩
    · rw [hslices] at hx
      obtain rfl := List.mem_singleton.mp hx
      exact ⟨_, hmem, rfl, rfl, rfl⟩
    · rintro ⟨message, hmem⟩
      exact absurd (List.all_eq_true.mp hquit _ hmem) (by simp)

end AimyUpdater

end SignalEventLoop.Device

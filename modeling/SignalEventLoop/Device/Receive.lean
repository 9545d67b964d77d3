/-
# Frames that arrive in pieces

`AimyUpdater::on_read` and `handleDataCache` (`imp/device-update/device_updater.cpp`).  A read
brings up to 128 bytes behind the ones that are in the cache.  `handleDataCache` tries
`Protocol::DeMux` at one offset after the other, hands over the first frame that it finds, and
then forgets the cache.

`DeMux` never says that there is no frame, so that the second offset is never tried: what
stands before a frame stays there for ever, and what stands behind a frame in the same read is
lost.  Frames are therefore delivered exactly when every frame begins where a read ended that
brought the end of the frame before it.

The state keeps, besides the source, the position in the stream of the first byte of the
cache, and for each frame that was handed over the position where it stood.
-/
import SignalEventLoop.Device.FrameParts
import SignalEventLoop.Lib.Run

namespace SignalEventLoop.Device

open Lib

/-! ## Model -/

/-- The size of `readCache`. -/
def READ_CACHE_SIZE : ℕ := 4096

/-- The size of a read. -/
def MAX_READ_LEN : ℕ := 128

/-- A call of `handleFrame`, with the position of the frame in the stream. -/
structure FrameCall where
  position : ℕ
  frame : DeMuxed
deriving DecidableEq

/-- The cache, without the bytes behind `dataLen`. -/
structure ReadState where
  readCache : List UInt8
  start : ℕ
  calls : List FrameCall
deriving DecidableEq

def ReadState.initial : ReadState := ⟨[], 0, []⟩

/-- What the loop of `handleDataCache` ends with. -/
inductive LoopEnd where
  | frame (offset : ℕ) (out : DeMuxed)
  | wait
  | nothing

/-- The loop of `handleDataCache`, from the offset `i` on. -/
def dataCacheLoop (i : ℕ) : List UInt8 → LoopEnd
  | [] => .nothing
  | byte :: rest =>
    match deMux (byte :: rest) with
    | (0, some out) => .frame i out
    | (1, _) => .wait
    | _ => dataCacheLoop (i + 1) rest

/-- `AimyUpdater::handleDataCache`. -/
def handleDataCache (s : ReadState) : ReadState :=
  let clear (calls : List FrameCall) : ReadState :=
    { s with readCache := [], start := s.start + s.readCache.length, calls := calls }
  match dataCacheLoop 0 s.readCache with
  | .frame i out => clear (s.calls ++ [⟨s.start + i, out⟩])
  | .wait => s
  | .nothing => clear s.calls

/-- `AimyUpdater::on_read`, when `read` returned `bytes`; `none` when they do not fit. -/
def onRead (s : ReadState) (bytes : List UInt8) : Option ReadState :=
  if s.readCache.length + bytes.length ≤ READ_CACHE_SIZE then
    some (handleDataCache { s with readCache := s.readCache ++ bytes })
  else none

/-! ## The stream -/

/-- Frames, each with the bytes before it. -/
abbrev FrameList := List (List UInt8 × Frame)

/-- What is sent. -/
def stream : FrameList → List UInt8
  | [] => []
  | (gap, f) :: later => gap ++ f.bytes ++ stream later

/-- The calls that are due: every frame once, in order, where it stands. -/
def dueCalls : ℕ → FrameList → List (ℕ × List UInt8)
  | _, [] => []
  | position, (gap, f) :: later =>
    (position + gap.length, f.data) :: dueCalls (position + gap.length + f.bytes.length) later

/-- The calls that were made. -/
def ReadState.delivered (s : ReadState) : List (ℕ × List UInt8) :=
  s.calls.map fun c => (c.position, c.frame.data)

/-- Every frame is handed over exactly once, in order, and there is always room for a read. -/
def Delivers (frames : FrameList) (reads : List (List UInt8)) : Prop :=
  AllSteps onRead (fun s _ => s.readCache.length + MAX_READ_LEN ≤ READ_CACHE_SIZE)
      .initial reads ∧
    ∃ t, run onRead .initial reads = some t ∧ t.delivered = dueCalls 0 frames

/-- The bytes before the first frame. -/
def gapOf : FrameList → List UInt8
  | [] => []
  | (gap, _) :: _ => gap

/-- The read that brings the end of a frame also brings what stands before the next frame, and
nothing else. -/
def CutAtFrames : FrameList → List (List UInt8) → Prop
  | [], reads => reads = []
  | (_, f) :: later, reads => ∃ first last rest, reads = first ++ last :: rest ∧
      first.flatten.length < f.bytes.length ∧
      first.flatten ++ last = f.bytes ++ gapOf later ∧ CutAtFrames later rest

/-! ## One read -/

variable {s t : ReadState} {f : Frame} {bytes rest : List UInt8} {reads : List (List UInt8)}

/-- The loop ends at the first offset. -/
lemma handleDataCache_cases (s : ReadState) :
    (∃ out, deMux s.readCache = (0, some out) ∧ handleDataCache s =
        ⟨[], s.start + s.readCache.length, s.calls ++ [⟨s.start, out⟩]⟩) ∨
      (deMux s.readCache = (1, none) ∧ handleDataCache s = s) := by
  obtain ⟨readCache, start, calls⟩ := s
  cases readCache with
  | nil => exact Or.inr ⟨rfl, rfl⟩
  | cons byte rest =>
    rcases deMux_eq (byte :: rest) with ⟨out, hout⟩ | hwait
    · refine Or.inl ⟨out, hout, ?_⟩
      simp [handleDataCache, dataCacheLoop, hout]
    · refine Or.inr ⟨hwait, ?_⟩
      simp [handleDataCache, dataCacheLoop, hwait]

lemma onRead_incomplete (hpre : s.readCache ++ bytes <+: f.bytes)
    (hlt : (s.readCache ++ bytes).length < f.bytes.length) :
    onRead s bytes = some { s with readCache := s.readCache ++ bytes } := by
  have hfit : s.readCache.length + bytes.length ≤ READ_CACHE_SIZE := by
    have := f.length_bytes_le
    rw [List.length_append] at hlt
    rw [READ_CACHE_SIZE]
    omega
  rw [onRead, if_pos hfit]
  rcases handleDataCache_cases { s with readCache := s.readCache ++ bytes } with
    ⟨out, hout, -⟩ | ⟨-, hsame⟩
  · simp [Frame.deMux_incomplete hpre hlt] at hout
  · rw [hsame]

/-- The read that completes a frame hands it over, and the rest of the read is lost. -/
lemma onRead_frame (hframe : s.readCache ++ bytes = f.bytes ++ rest)
    (hfit : s.readCache.length + bytes.length ≤ READ_CACHE_SIZE) :
    ∃ t, onRead s bytes = some t ∧ t.readCache = [] ∧
      t.start = s.start + (s.readCache ++ bytes).length ∧
      t.delivered = s.delivered ++ [(s.start, f.data)] := by
  rw [onRead, if_pos hfit]
  obtain ⟨address, hdeMux⟩ := Frame.deMux_frame f rest
  rcases handleDataCache_cases { s with readCache := s.readCache ++ bytes } with
    ⟨out, hout, hcall⟩ | ⟨hwait, -⟩
  · rw [hframe, hdeMux, Prod.mk.injEq, Option.some.injEq] at hout
    obtain ⟨-, rfl⟩ := hout
    exact ⟨_, rfl, by rw [hcall], by rw [hcall], by rw [hcall]; simp [ReadState.delivered]⟩
  · simp [hframe, hdeMux] at hwait

/-- A read keeps the beginning of the cache, or hands over the frame that stands there. -/
lemma onRead_cases (h : onRead s bytes = some t) :
    (t.start = s.start ∧ t.delivered = s.delivered) ∨
      ∃ data, t.delivered = s.delivered ++ [(s.start, data)] := by
  rw [onRead] at h
  split_ifs at h
  rw [Option.some.injEq] at h
  rcases handleDataCache_cases { s with readCache := s.readCache ++ bytes } with
    ⟨out, -, hcall⟩ | ⟨-, hsame⟩
  · refine Or.inr ⟨out.data, ?_⟩
    rw [← h, hcall]
    simp [ReadState.delivered]
  · refine Or.inl ?_
    rw [← h, hsame]
    exact ⟨rfl, rfl⟩

/-! ## Many reads -/

/-- **The next call is for the first byte of the cache.** -/
lemma run_delivered (h : run onRead s reads = some t) :
    ∃ calls, t.delivered = s.delivered ++ calls ∧ ∀ c ∈ calls.head?, c.1 = s.start := by
  induction reads generalizing s with
  | nil =>
    obtain rfl : s = t := by simpa using h
    exact ⟨[], by simp, by simp⟩
  | cons bytes reads ih =>
    obtain ⟨s', hs', hrun⟩ := run_cons_eq_some.mp h
    obtain ⟨calls, hcalls, hhead⟩ := ih hrun
    rcases onRead_cases hs' with ⟨hstart, hsame⟩ | ⟨data, hcall⟩
    · exact ⟨calls, by rw [hcalls, hsame], by rw [← hstart]; exact hhead⟩
    · exact ⟨(s.start, data) :: calls, by rw [hcalls, hcall]; simp, by simp⟩

/-- The reads before the end of a frame. -/
lemma run_incomplete (hpre : s.readCache ++ reads.flatten <+: f.bytes)
    (hlt : (s.readCache ++ reads.flatten).length < f.bytes.length) :
    run onRead s reads = some { s with readCache := s.readCache ++ reads.flatten } ∧
      AllSteps onRead (fun s _ => s.readCache.length + MAX_READ_LEN ≤ READ_CACHE_SIZE)
        s reads := by
  induction reads generalizing s with
  | nil => exact ⟨by simp, trivial⟩
  | cons bytes reads ih =>
    have hpart : s.readCache ++ bytes <+: s.readCache ++ (bytes :: reads).flatten := by
      rw [List.flatten_cons, ← List.append_assoc]
      exact List.prefix_append _ _
    have hread := onRead_incomplete (hpart.trans hpre) (hpart.length_le.trans_lt hlt)
    rw [List.flatten_cons, ← List.append_assoc] at hpre hlt
    obtain ⟨hrun, hroom⟩ := ih (s := { s with readCache := s.readCache ++ bytes }) hpre hlt
    have := f.length_bytes_le
    simp only [List.length_append] at hlt
    refine ⟨?_, (allSteps_cons_of_eq_some hread).mpr ⟨?_, hroom⟩⟩
    · rw [run_cons, hread, Option.bind_some, hrun]
      simp
    · rw [MAX_READ_LEN, READ_CACHE_SIZE]
      omega

/-- The reads up to the end of a frame. -/
lemma run_frame {first : List (List UInt8)} {last : List UInt8} (hcache : s.readCache = [])
    (hlt : first.flatten.length < f.bytes.length)
    (hframe : first.flatten ++ last = f.bytes ++ rest) (hlast : last.length ≤ MAX_READ_LEN) :
    ∃ t, run onRead s (first ++ [last]) = some t ∧
      AllSteps onRead (fun s _ => s.readCache.length + MAX_READ_LEN ≤ READ_CACHE_SIZE)
        s (first ++ [last]) ∧
      t.readCache = [] ∧ t.start = s.start + (f.bytes ++ rest).length ∧
      t.delivered = s.delivered ++ [(s.start, f.data)] := by
  have hpre : s.readCache ++ first.flatten <+: f.bytes := by
    rw [hcache, List.nil_append]
    exact List.prefix_of_prefix_length_le ⟨last, hframe⟩ (List.prefix_append _ _) hlt.le
  obtain ⟨hrun, hsteps⟩ := run_incomplete hpre (by simpa [hcache] using hlt)
  rw [hcache, List.nil_append] at hrun
  have hroom : first.flatten.length + MAX_READ_LEN ≤ READ_CACHE_SIZE := by
    have := f.length_bytes_le
    rw [MAX_READ_LEN, READ_CACHE_SIZE]
    omega
  obtain ⟨t, ht, htcache, htstart, htdelivered⟩ :=
    onRead_frame (s := { s with readCache := first.flatten }) hframe (by simp only; omega)
  refine ⟨t, run_concat_eq_some.mpr ⟨_, hrun, ht⟩, allSteps_append.mpr ⟨hsteps, ?_⟩, htcache,
    by rw [htstart, hframe], htdelivered⟩
  intro s' hs'
  rw [hrun, Option.some.injEq] at hs'
  rw [← hs']
  exact (allSteps_cons_of_eq_some ht).mpr ⟨hroom, trivial⟩

/-! ## The whole stream -/

variable {frames : FrameList}

/-- The stream from the first frame on. -/
def behindGap : FrameList → List UInt8
  | [] => []
  | (_, f) :: later => f.bytes ++ stream later

lemma stream_eq (frames : FrameList) : stream frames = gapOf frames ++ behindGap frames := by
  cases frames with
  | nil => rfl
  | cons frame later => simp [stream, gapOf, behindGap]

/-- The read that brings the `n`-th byte. -/
lemma exists_last_read {n : ℕ} (hn : 0 < n) (h : n ≤ reads.flatten.length) :
    ∃ first last rest, reads = first ++ last :: rest ∧ first.flatten.length < n ∧
      n ≤ (first.flatten ++ last).length := by
  induction reads generalizing n with
  | nil =>
    simp only [List.flatten_nil, List.length_nil] at h
    omega
  | cons bytes reads ih =>
    by_cases hle : n ≤ bytes.length
    · exact ⟨[], bytes, reads, by simp, by simpa using hn, by simpa using hle⟩
    · rw [List.flatten_cons, List.length_append] at h
      obtain ⟨first, last, rest, rfl, hlt, hge⟩ := ih (n := n - bytes.length) (by omega) (by omega)
      refine ⟨bytes :: first, last, rest, by simp, ?_, ?_⟩
      · rw [List.flatten_cons, List.length_append]
        omega
      · simp only [List.flatten_cons, List.length_append] at hge ⊢
        omega

/-- Frames at which the reads are cut are delivered. -/
lemma delivers_of_cutAtFrames (hmax : ∀ r ∈ reads, r.length ≤ MAX_READ_LEN) {p : ℕ}
    (hcache : s.readCache = []) (hstart : s.start = p + (gapOf frames).length)
    (hcut : CutAtFrames frames reads) :
    AllSteps onRead (fun s _ => s.readCache.length + MAX_READ_LEN ≤ READ_CACHE_SIZE) s reads ∧
      ∃ t, run onRead s reads = some t ∧
        t.delivered = s.delivered ++ dueCalls p frames := by
  induction frames generalizing s reads p with
  | nil =>
    obtain rfl : reads = [] := hcut
    exact ⟨trivial, s, rfl, by simp [dueCalls]⟩
  | cons frame later ih =>
    obtain ⟨gap, f⟩ := frame
    obtain ⟨first, last, rest, rfl, hlt, hframe, hlater⟩ := hcut
    obtain ⟨t, hrun, hsteps, htcache, htstart, htdelivered⟩ :=
      run_frame hcache hlt hframe (hmax last (by simp))
    have hstart' : s.start = p + gap.length := hstart
    have htstart' : t.start =
        p + gap.length + f.bytes.length + (gapOf later).length := by
      rw [htstart, hstart', List.length_append, ← Nat.add_assoc]
    obtain ⟨hsteps', u, hrun', hdelivered⟩ :=
      ih (fun r hr => hmax r (by simp [hr])) htcache htstart' hlater
    rw [List.append_cons]
    refine ⟨allSteps_append.mpr ⟨hsteps, ?_⟩, u, run_append_eq_some.mpr ⟨t, hrun, hrun'⟩, ?_⟩
    · intro t' ht'
      rw [hrun, Option.some.injEq] at ht'
      exact ht' ▸ hsteps'
    · rw [hdelivered, htdelivered, dueCalls, hstart', List.append_assoc, List.singleton_append]

/-- When frames are delivered, the first one stands at the beginning of the cache. -/
lemma start_of_delivered (hrun : run onRead s reads = some t) {p : ℕ} {gap : List UInt8}
    {later : FrameList}
    (hdue : t.delivered = s.delivered ++ dueCalls p ((gap, f) :: later)) :
    s.start = p + gap.length := by
  obtain ⟨calls, hcalls, hhead⟩ := run_delivered hrun
  rw [hcalls, List.append_cancel_left_eq] at hdue
  exact (hhead (p + gap.length, f.data) (by rw [hdue]; rfl)).symm

/-- Frames that are delivered were cut at the frames. -/
lemma cutAtFrames_of_delivered (hreads : ∀ r ∈ reads, 1 ≤ r.length ∧ r.length ≤ MAX_READ_LEN)
    {p : ℕ} (hcache : s.readCache = [])
    (hstart : s.start = p + (gapOf frames).length)
    (hflatten : reads.flatten = behindGap frames) (hrun : run onRead s reads = some t)
    (hdue : t.delivered = s.delivered ++ dueCalls p frames) :
    CutAtFrames frames reads := by
  induction frames generalizing s reads p with
  | nil =>
    cases reads with
    | nil => rfl
    | cons r reads =>
      have := (hreads r (by simp)).1
      have hlen := congrArg List.length hflatten
      simp only [behindGap, List.flatten_cons, List.length_append, List.length_nil] at hlen
      omega
  | cons frame later ih =>
    obtain ⟨gap, f⟩ := frame
    have hpos : 0 < f.bytes.length := by
      rw [Frame.length_bytes]
      omega
    obtain ⟨first, last, rest, rfl, hlt, hge⟩ := exists_last_read hpos
      (by rw [hflatten, behindGap, List.length_append]; omega)
    rw [List.append_cons] at hrun
    rw [List.flatten_append, List.flatten_cons, ← List.append_assoc, behindGap] at hflatten
    -- what the last read brings besides the end of the frame
    obtain ⟨extra, hframe⟩ : f.bytes <+: first.flatten ++ last :=
      List.prefix_of_prefix_length_le ⟨stream later, rfl⟩ ⟨rest.flatten, hflatten⟩ hge
    obtain ⟨u, hu, -, hucache, hustart, hudelivered⟩ :=
      run_frame hcache hlt hframe.symm (hreads last (by simp)).2
    obtain ⟨u', hu', hrest⟩ := run_append_eq_some.mp hrun
    obtain rfl : u = u' := by simpa [hu] using hu'
    have hstart' : s.start = p + gap.length := hstart
    have hdue' : t.delivered = u.delivered ++
        dueCalls (p + gap.length + f.bytes.length) later := by
      rw [hdue, hudelivered, dueCalls, hstart', List.append_assoc, List.singleton_append]
    rw [← hframe, List.append_assoc, List.append_cancel_left_eq, stream_eq] at hflatten
    have hextra : extra.length = (gapOf later).length := by
      cases later with
      | nil =>
        have := congrArg List.length hflatten
        simp only [List.length_append, gapOf, behindGap, List.length_nil] at this ⊢
        omega
      | cons frame' later =>
        have := start_of_delivered hrest hdue'
        rw [hustart, hstart', List.length_append] at this
        simp only [gapOf]
        omega
    obtain ⟨rfl, hrest'⟩ := List.append_inj hflatten hextra
    refine ⟨first, last, rest, rfl, hlt, hframe.symm, ?_⟩
    refine ih (fun r hr => hreads r (by simp [hr])) hucache ?_ hrest' hrest hdue'
    rw [hustart, hstart', List.length_append, ← Nat.add_assoc]

@[simp] lemma delivered_initial : ReadState.initial.delivered = [] := rfl

/-- **Every frame is delivered exactly when the reads are cut at the frames**: nothing stands
before the first frame, and the read that brings the end of a frame ends where the next frame
begins. -/
theorem frames_delivered_iff (frames : FrameList) (reads : List (List UInt8))
    (hreads : ∀ r ∈ reads, 1 ≤ r.length ∧ r.length ≤ MAX_READ_LEN)
    (hstream : reads.flatten = stream frames) :
    Delivers frames reads ↔ gapOf frames = [] ∧ CutAtFrames frames reads := by
  constructor
  · rintro ⟨-, t, hrun, hdue⟩
    have hdue' : t.delivered = ReadState.initial.delivered ++ dueCalls 0 frames := by
      rw [hdue, delivered_initial, List.nil_append]
    have hgap : gapOf frames = [] := by
      cases frames with
      | nil => rfl
      | cons frame later =>
        have hlen : 0 = 0 + (gapOf (frame :: later)).length := start_of_delivered hrun hdue'
        exact List.length_eq_zero_iff.mp (by omega)
    have hbehind : reads.flatten = behindGap frames := by
      rw [hstream, stream_eq, hgap, List.nil_append]
    have hstart : ReadState.initial.start = 0 + (gapOf frames).length := by
      rw [hgap]
      rfl
    exact ⟨hgap, cutAtFrames_of_delivered hreads rfl hstart hbehind hrun hdue'⟩
  · rintro ⟨hgap, hcut⟩
    have hstart : ReadState.initial.start = 0 + (gapOf frames).length := by
      rw [hgap]
      rfl
    obtain ⟨hsteps, t, hrun, hdelivered⟩ :=
      delivers_of_cutAtFrames (fun r hr => (hreads r hr).2) rfl hstart hcut
    rw [delivered_initial, List.nil_append] at hdelivered
    exact ⟨hsteps, t, hrun, hdelivered⟩

lemma length_checkedPart_plain {data : List UInt8} (h : data.length + 6 ≤ 255) :
    (checkedPart 0x80 data none none).length + 4 ≤ 255 := by
  simp only [checkedPart, addressSection_none, List.append_nil, List.length_cons]
  omega

/-- A frame without addresses. -/
def plainFrame (data : List UInt8) (h : data.length + 6 ≤ 255) : Frame where
  length := UInt8.ofNat (data.length + 5)
  control_code := 0x80
  data := data
  dst := none
  src := none
  controlSwitch := by decide
  dstSwitch := by decide
  srcSwitch := by decide
  src_ne_nil := by decide
  length_le := length_checkedPart_plain h

/-- Two replies, the second one behind a byte that belongs to no frame; each is read in two
pieces. -/
theorem frames_delivered_iff_twoFrames :
    Delivers [([], plainFrame [1, 2] (by decide)), ([0], plainFrame [3] (by decide))]
      [[7, 0x55, 0xAA], [0x80, 2, 1, 2, 0x81, 0], [6, 0x55], [0xAA, 0x80, 1, 3, 0x82]] := by
  refine (frames_delivered_iff _ _ (by decide) (by decide)).mpr ⟨rfl, ?_⟩
  refine ⟨[[7, 0x55, 0xAA]], [0x80, 2, 1, 2, 0x81, 0], [[6, 0x55], [0xAA, 0x80, 1, 3, 0x82]], rfl,
    by decide, by decide, ?_⟩
  exact ⟨[[6, 0x55]], [0xAA, 0x80, 1, 3, 0x82], [], rfl, by decide, by decide, rfl⟩

/-- Two frames in one read: the second one is lost. -/
theorem frames_lost_in_one_read :
    stream [([], plainFrame [1] (by decide)), ([], plainFrame [2] (by decide))] =
        [[6, 0x55, 0xAA, 0x80, 1, 1, 0x80, 6, 0x55, 0xAA, 0x80, 1, 2, 0x83]].flatten ∧
      ¬ Delivers [([], plainFrame [1] (by decide)), ([], plainFrame [2] (by decide))]
        [[6, 0x55, 0xAA, 0x80, 1, 1, 0x80, 6, 0x55, 0xAA, 0x80, 1, 2, 0x83]] ∧
      ∃ t, run onRead .initial
          [[6, 0x55, 0xAA, 0x80, 1, 1, 0x80, 6, 0x55, 0xAA, 0x80, 1, 2, 0x83]] = some t ∧
        t.readCache = [] ∧ t.calls.map (fun c => c.frame.data) = [[1]] := by
  have hrun : run onRead .initial
      [[6, 0x55, 0xAA, 0x80, 1, 1, 0x80, 6, 0x55, 0xAA, 0x80, 1, 2, 0x83]] =
        some ⟨[], 14, [⟨0, ⟨[1], none, 0x80⟩⟩]⟩ := by decide
  refine ⟨by decide, ?_, _, hrun, rfl, rfl⟩
  rintro ⟨-, t, ht, hdue⟩
  rw [hrun, Option.some.injEq] at ht
  rw [← ht] at hdue
  exact absurd (congrArg List.length hdue) (by decide)

end SignalEventLoop.Device

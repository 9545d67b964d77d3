/-
# What a helper reads and writes

The loop of `on_recv` on the chunks of a stream that begins with a head.  It keeps what it gets
until the head is complete, and then takes the whole chunk in which the head ends: the bytes of
this chunk behind the head stay in the read cache.  A chunk that does not fit into the cache
closes the connection.  The frames of the handshake can always be written.
-/
import SignalEventLoop.Network.ConnectionHelper

namespace SignalEventLoop.Network

open SignalEventLoop.Core ProtocalHttp CacheState
open IcacheBuffer hiding maxCacheSize readFromBuf
open ConnectionHelper (ReadEnd readLoop)

/-! ## Writing -/

lemma length_asBytes_le (t : Text) : (asBytes t).1.length ≤ t.length :=
  List.length_take_le' _ _

/-- A head without content is packed, or is too long. -/
lemma packetFrame_noBytes (words : List Text) (keys : KeysMap) :
    ∃ buffer, packetFrame words keys noBytes = .ok buffer ∧ buffer.1.length ≤ maxFrameSize := by
  have hempty : noBytes.1.length = 0 := rfl
  simp only [packetFrame, hempty, if_true, gt_iff_lt, lt_irrefl, if_false]
  generalize asBytes _ = header
  have hlen : add32 0 header.1.length = header.1.length := by
    have hlt := header.2
    rw [add32_eq (by omega), zero_add]
  simp only [encodeFrame, List.foldl_cons, List.foldl_nil, hlen, List.head?_nil, Option.map_none,
    Option.getD_none, List.length_nil, add_zero]
  split_ifs with hbig hout
  · exact ⟨noBytes, rfl, Nat.zero_le _⟩
  · omega
  · refine ⟨_, rfl, (length_asBytes_le _).trans ?_⟩
    rw [List.length_take]
    omega

namespace HelperState

variable {s : HelperState}

/-- While the channel is there, a frame of the handshake is put into the write cache. -/
lemma appendWrite_ok {buffer : Bytes} (hlen : buffer.1.length ≤ maxFrameSize)
    (hsound : httpCache.Sound s.writeCache) (hchannel : s.channel ≠ none) :
    ∃ s', appendWrite buffer s = .ok s' ∧ httpCache.Sound s'.writeCache := by
  obtain ⟨e, he⟩ := Option.ne_none_iff_exists'.mp hchannel
  have hfit : httpCache.AppendFits s.writeCache buffer.1.length :=
    appendFits_of_maxCacheSize_le hsound le_rfl (by decide) (lt_of_le_of_lt hlen (by decide))
  obtain ⟨ret, writeCache, happ, hsound'⟩ := appendFrame_sound hsound hfit
  rw [appendWrite, happ]
  dsimp only
  split_ifs
  · refine ⟨{ s with
      writeCache := writeCache
      channel := some (Toggle.enablWriting.apply e)
      watched := Toggle.enablWriting.apply e }, ?_, hsound'⟩
    rw [syncChannel]
    dsimp only
    rw [he]
  · exact ⟨{ s with writeCache := writeCache }, rfl, hsound'⟩

end HelperState

/-! ## Reading -/

variable {part head tail more : Text} {header : StreamHttpHeader} {s : CacheState}

/-- A chunk that does not fit into the cache. -/
lemma readFromFd_refused {chunk : Chunk} (h : Waiting part s)
    (hfull : maxCacheSize < part.length + chunk.1.length) :
    ∃ s', readFromFd .init s (.data chunk) = .ok (0, .init, s') := by
  obtain ⟨ret, s₁, happ, hsound⟩ := appendCache_sound h.sound
    (appendFits_of_maxCacheSize_le h.sound le_rfl (by decide) chunk.length_bytes_lt)
  obtain ⟨rfl, -⟩ | ⟨-, -, happended⟩ := appendCache_cases h.sound.inMem happ
  · refine ⟨s₁, ?_⟩
    rw [readFromFd, readFromBuf, happ]
    rfl
  · -- what is in the cache fits into it
    have hrest := hsound.inMem.length_rest
    have hwrite := hsound.write_le
    have hsize : s₁.cacheSize ≤ maxCacheSize := hsound.size_le
    rw [happended.rest, h.rest, List.length_append] at hrest
    change part.length + chunk.1.length = _ at hrest
    omega

/-- The chunk in which `left` more bytes are complete ends with them. -/
def EndsAt : ℕ → List Chunk → Prop
  | _, [] => True
  | left, chunk :: chunks =>
    if chunk.1.length < left then EndsAt (left - chunk.1.length) chunks
    else chunk.1.length = left

instance decidableEndsAt : (left : ℕ) → (chunks : List Chunk) → Decidable (EndsAt left chunks)
  | _, [] => isTrue trivial
  | left, chunk :: chunks =>
    have := decidableEndsAt (left - chunk.1.length) chunks
    inferInstanceAs (Decidable (ite _ _ _))

/-- The bytes of results of `recv`. -/
def dataOf : List RecvResult → Text
  | [] => []
  | .data chunk :: results => chunk.1 ++ dataOf results
  | .again :: results | .closed :: results => dataOf results

/-- The chunks before the first result that is not a chunk. -/
def chunksOf : List RecvResult → List Chunk
  | .data chunk :: results => chunk :: chunksOf results
  | _ => []

/-- The bytes of chunks. -/
def flat (chunks : List Chunk) : Text := (chunks.map Subtype.val).flatten

lemma dataOf_append (results last : List RecvResult) :
    dataOf (results ++ last) = dataOf results ++ dataOf last := by
  induction results with
  | nil => rfl
  | cons r results ih => cases r <;> simp [dataOf, ih]

lemma dataOf_suffix {results unread : List RecvResult} (h : unread <:+ results) :
    dataOf unread <:+ dataOf results := by
  obtain ⟨taken, rfl⟩ := h
  exact ⟨dataOf taken, (dataOf_append taken unread).symm⟩

/-- How the loop of `on_recv` ends on a stream that begins with a head, when `part` of the head
is in the cache: the second component are the results that it does not ask for. -/
inductive ReadsHead (head tail part more : Text) (header : StreamHttpHeader)
    (results : List RecvResult) :
    ReadEnd × List RecvResult × StreamHttpHeader × CacheState → Prop where
  /-- The head is not complete. -/
  | waits (e : ReadEnd) (unread : List RecvResult) (s' : CacheState)
      (noFrame : e = .again ∨ e = .closed)
      (taken : flat (chunksOf results) ++ dataOf unread = dataOf results)
      (waiting : Waiting (part ++ flat (chunksOf results)) s')
      (isPart : part ++ flat (chunksOf results) <+: head)
      (ne : part ++ flat (chunksOf results) ≠ head)
      (ends : EndsAt (head.length - part.length) (chunksOf results)) :
      ReadsHead head tail part more header results (e, unread, .init, s')
  /-- The head is complete; `extra` is behind it in the cache. -/
  | completes (unread : List RecvResult) (extra : Text) (s' : CacheState)
      (rest : extra ++ (dataOf unread ++ more) = tail)
      (ends : EndsAt (head.length - part.length) (chunksOf results) ↔ extra = []) :
      ReadsHead head tail part more header results
        (.frame head, unread, { header with process_finished := true }, s')
  /-- The last chunk, which ends behind the head, does not fit into the cache. -/
  | refused (unread : List RecvResult) (extra : Text) (s' : CacheState)
      (rest : extra ++ (dataOf unread ++ more) = tail) (lost : extra ≠ [])
      (full : maxCacheSize < part.length + (flat (chunksOf results)).length)
      (ends : ¬ EndsAt (head.length - part.length) (chunksOf results)) :
      ReadsHead head tail part more header results (.closed, unread, .init, s')

lemma ReadsHead.cons {chunk : Chunk} {results : List RecvResult}
    {r : ReadEnd × List RecvResult × StreamHttpHeader × CacheState}
    (hlt : chunk.1.length < head.length - part.length)
    (h : ReadsHead head tail (part ++ chunk.1) more header results r) :
    ReadsHead head tail part more header (.data chunk :: results) r := by
  have hflat : part ++ flat (chunksOf (.data chunk :: results)) =
      part ++ chunk.1 ++ flat (chunksOf results) := by
    simp [chunksOf, flat]
  have hends : EndsAt (head.length - part.length) (chunksOf (.data chunk :: results)) ↔
      EndsAt (head.length - (part ++ chunk.1).length) (chunksOf results) := by
    rw [chunksOf, EndsAt, if_pos hlt, List.length_append, Nat.sub_add_eq]
  cases h with
  | waits e unread s' he htaken hwaiting hpart hne hend =>
    refine .waits e unread s' he ?_ (hflat ▸ hwaiting) (hflat ▸ hpart) (hflat ▸ hne)
      (hends.mpr hend)
    rw [dataOf, ← htaken]
    simp [chunksOf, flat]
  | completes unread extra s' hrest hend =>
    exact .completes unread extra s' hrest (hends.trans hend)
  | refused unread extra s' hrest hlost hfull hend =>
    refine .refused unread extra s' hrest hlost ?_ fun h => hend (hends.mp h)
    rwa [← List.length_append, hflat, List.length_append]

/-- Nothing is read. -/
lemma ReadsHead.of_chunksOf_eq_nil {results unread : List RecvResult} (h : Waiting part s)
    (hpart : part <+: head) (hne : part ≠ head) (hnil : chunksOf results = []) {e : ReadEnd}
    (he : e = .again ∨ e = .closed) (hdata : dataOf unread = dataOf results) :
    ReadsHead head tail part more header results (e, unread, .init, s) := by
  have hflat : part ++ flat (chunksOf results) = part := by
    rw [hnil]
    exact List.append_nil part
  refine .waits e unread s he ?_ (hflat.symm ▸ h) (hflat.symm ▸ hpart) (hflat.symm ▸ hne) ?_
  · rw [hnil, hdata]
    rfl
  · rw [hnil]
    trivial

/-- The chunk in which the head ends. -/
lemma readLoop_last (hhead : IsHead head header) {chunk : Chunk} {extra : Text}
    (results : List RecvResult) (h : Waiting part s) (hlt : part.length < head.length)
    (hextra : part ++ chunk.1 = head ++ extra) (hrest : extra ++ (dataOf results ++ more) = tail) :
    ∃ r, readLoop (.data chunk :: results) .init s = .ok r ∧
      ReadsHead head tail part more header (.data chunk :: results) r := by
  have hnonempty : 0 < chunk.1.length := List.length_pos_iff.mpr chunk.2.1
  have hlength := congrArg List.length hextra
  simp only [List.length_append] at hlength
  have hends : EndsAt (head.length - part.length) (chunksOf (.data chunk :: results)) ↔
      extra = [] := by
    rw [chunksOf, EndsAt, if_neg (by omega), ← List.length_eq_zero_iff]
    omega
  by_cases hfull : maxCacheSize < part.length + chunk.1.length
  · have hlost : extra ≠ [] := by
      rintro rfl
      have hle := hhead.length_le
      simp only [maxFrameSize, maxCacheSize, List.length_nil] at hle hfull hlength
      omega
    obtain ⟨s', hread⟩ := readFromFd_refused h hfull
    refine ⟨_, ?_, .refused results extra s' hrest hlost ?_ fun h => hlost (hends.mp h)⟩
    · rw [readLoop, hread]
      rfl
    · rw [chunksOf, flat, List.map_cons, List.flatten_cons, List.length_append]
      omega
  · obtain ⟨s₁, hread, hsound, hframes, -⟩ :=
      readFromFd_head hhead h hextra (by omega) (by omega)
    obtain ⟨s', hpop, -, -, -⟩ := popFrame_spec hsound.inMem
    rw [hframes, List.headD_cons] at hpop
    refine ⟨_, ?_, .completes results extra s' hrest hends⟩
    rw [readLoop, hread]
    simp only [bind, Except.bind]
    rw [if_neg (by omega), if_neg (by omega), hpop]
    dsimp only
    rw [if_pos (by omega)]

/-- A chunk that does not complete the head is read, and the loop goes on. -/
lemma readLoop_more (hhead : IsHead head header) {chunk : Chunk} (results : List RecvResult)
    (h : Waiting part s) (hpart : part ++ chunk.1 <+: head) (hne : part ++ chunk.1 ≠ head) :
    ∃ s₁, Waiting (part ++ chunk.1) s₁ ∧
      readLoop (.data chunk :: results) .init s = readLoop results .init s₁ := by
  have hnonempty : 0 < chunk.1.length := List.length_pos_iff.mpr chunk.2.1
  obtain ⟨s₁, hread, hs₁⟩ := readFromFd_part hhead h hpart hne
  refine ⟨s₁, hs₁, ?_⟩
  rw [readLoop, hread]
  simp only [bind, Except.bind]
  rw [if_neg (by omega), if_neg (by omega), popFrame, hs₁.noFrame]
  simp only [List.length_nil, gt_iff_lt, lt_irrefl, if_false]

/-- **The loop of `on_recv`**, for every cutting of the stream into chunks. -/
lemma readLoop_head (hhead : IsHead head header) (results : List RecvResult) (h : Waiting part s)
    (hpart : part <+: head) (hne : part ≠ head)
    (hstream : part ++ (dataOf results ++ more) = head ++ tail) :
    ∃ r, readLoop results .init s = .ok r ∧
      ReadsHead head tail part more header results r := by
  induction results generalizing part s with
  | nil => exact ⟨_, rfl, .of_chunksOf_eq_nil h hpart hne rfl (Or.inl rfl) rfl⟩
  | cons r results ih =>
    cases r with
    | again => exact ⟨_, rfl, .of_chunksOf_eq_nil h hpart hne rfl (Or.inl rfl) rfl⟩
    | closed => exact ⟨_, rfl, .of_chunksOf_eq_nil h hpart hne rfl (Or.inr rfl) rfl⟩
    | data chunk =>
      have hlt : part.length < head.length :=
        lt_of_le_of_ne hpart.length_le fun heq => hne (hpart.eq_of_length heq)
      have hstream' : part ++ chunk.1 ++ (dataOf results ++ more) = head ++ tail := by
        rw [← hstream]
        simp [dataOf]
      by_cases hshort : part.length + chunk.1.length < head.length
      · -- the head is not complete yet
        have hpart' : part ++ chunk.1 <+: head :=
          List.prefix_of_prefix_length_le ⟨_, hstream'⟩ ⟨tail, rfl⟩
            (by rw [List.length_append]; omega)
        have hne' : part ++ chunk.1 ≠ head := by
          intro heq
          rw [← heq, List.length_append] at hshort
          omega
        obtain ⟨s₁, hs₁, hloop⟩ := readLoop_more hhead results h hpart' hne'
        obtain ⟨r, hr, hends⟩ := ih hs₁ hpart' hne' hstream'
        exact ⟨r, hloop.trans hr, hends.cons (by omega)⟩
      · -- the head ends in this chunk
        obtain ⟨extra, hextra⟩ : head <+: part ++ chunk.1 :=
          List.prefix_of_prefix_length_le ⟨tail, rfl⟩ ⟨_, hstream'⟩
            (by rw [List.length_append]; omega)
        rw [← hextra, List.append_assoc] at hstream'
        exact readLoop_last hhead results h hlt hextra.symm (List.append_cancel_left hstream')

/-- A head that comes in one chunk. -/
lemma readLoop_single (hhead : IsHead head header) {chunk : Chunk} (hchunk : chunk.1 = head) :
    ∃ unread s', readLoop [.data chunk] .init CacheState.init =
      .ok (.frame head, unread, { header with process_finished := true }, s') := by
  have hne : [] ≠ head := hchunk ▸ chunk.2.1.symm
  have hstream : [] ++ (dataOf [.data chunk] ++ []) = head ++ [] := by simp [dataOf, hchunk]
  obtain ⟨r, hr, hends⟩ := readLoop_head hhead _ waiting_init List.nil_prefix hne hstream
  cases hends with
  | waits _ _ _ _ _ _ _ hne' _ => simp [chunksOf, flat, hchunk] at hne'
  | completes unread _ s' _ _ => exact ⟨unread, s', hr⟩
  | refused unread extra s' hrest hlost _ _ =>
    exact absurd (List.append_eq_nil_iff.mp hrest).1 hlost

section unread

variable {e : ReadEnd} {results unread : List RecvResult}
  {header_cache header_cache' : StreamHttpHeader} {s' : CacheState}

/-- The loop asks for its first result, and then for results in order. -/
lemma readLoop_suffix {r : RecvResult}
    (h : readLoop (r :: results) header_cache s = .ok (e, unread, header_cache', s')) :
    unread <:+ results := by
  induction results generalizing r header_cache s with
  | nil =>
    obtain ⟨⟨ret, header₁, s₁⟩, -, h⟩ := bind_eq_ok.mp h
    dsimp only at h
    split_ifs at h
    · simp_all
    · simp_all
    · split at h
      · simp at h
      · split_ifs at h <;> simp_all [readLoop]
  | cons r' results ih =>
    obtain ⟨⟨ret, header₁, s₁⟩, -, h⟩ := bind_eq_ok.mp h
    dsimp only at h
    split_ifs at h
    · simp_all
    · simp_all
    · split at h
      · simp at h
      · split_ifs at h
        · simp_all
        · exact (ih h).trans (List.suffix_cons _ _)

/-- Results without a chunk in front leave the cache alone. -/
lemma readLoop_noChunk (hnil : chunksOf results = []) (header_cache : StreamHttpHeader)
    (s : CacheState) :
    ∃ e unread, readLoop results header_cache s = .ok (e, unread, header_cache, s) ∧
      (e = .again ∨ e = .closed) ∧ dataOf unread = dataOf results := by
  match results with
  | [] => exact ⟨.again, [], rfl, Or.inl rfl, rfl⟩
  | .data chunk :: results => simp [chunksOf] at hnil
  | .again :: results => exact ⟨.again, results, rfl, Or.inl rfl, rfl⟩
  | .closed :: results => exact ⟨.closed, results, rfl, Or.inr rfl, rfl⟩

end unread

end SignalEventLoop.Network

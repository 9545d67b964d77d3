/-
# The bounds of the serial decoder

`CanSerialProxy::on_recv` again, now with the bytes that were read as the only memory: an index
at or behind their number gives no result, also inside the buffer.  The numbers are `uint32_t`,
and the two loops run for as long as they like.

The decoder leaves the bytes in three ways.  With eight bytes, `data_len-9` wraps around and the
search for the marker does not end.  When the last packet is followed by nine bytes or more
without a marker, and without an `A` among the last nine, the search stops one place behind the
end, `data_len-i` wraps around, and the id is read from there.  And a packet may announce up to
255 bytes, which are copied into the eight bytes of a `can_frame`.
-/
import SignalEventLoop.Can.CanSerial
import Mathlib.Logic.Relation

namespace SignalEventLoop.Can

open Lib

/-! ## The decoder on the bytes alone -/

/-- The loop that looks for the marker. -/
def findMarkerIn (read : List UInt8) : ℕ → ℕ → Option ℕ
  | 0, _ => none
  | fuel + 1, i =>
    if i ≤ uintSub read.length 9 then
      let i := i + (read.drop i).findIdx (· = 0x41)
      let i := (i + 1) % 2 ^ 32
      if i ≤ uintSub read.length 8 then
        read[i]?.bind fun c => if c = 0x54 then some (i + 1) else findMarkerIn read fuel i
      else findMarkerIn read fuel i
    else some i

/-- The part behind the search for the marker. -/
def recvPacketIn (read : List UInt8) (i : ℕ) : Option (Option (CanFrame × ℕ)) :=
  if uintSub read.length i < 7 then some none
  else
    (load read i 5).bind fun head =>
      let tmp := ((head.getD 0 0).toNat <<< 24) ||| ((head.getD 1 0).toNat <<< 16) |||
        ((head.getD 2 0).toNat <<< 8) ||| (head.getD 3 0).toNat
      let can_id := tmp >>> 3
      let payload_len := (head.getD 4 0).toNat
      if uintSub read.length i < 4 + 1 + payload_len + 2 then some none
      else
        read[i + 4 + 1 + payload_len]?.bind fun cr =>
          if cr ≠ 0x0d then some none
          else
            read[i + 4 + 1 + payload_len + 1]?.bind fun lf =>
              if lf ≠ 0x0a then some none
              else if payload_len > 8 then none
              else
                (load read (i + 5) payload_len).map fun payload =>
                  some (⟨can_id ||| CAN_EFF_FLAG, payload⟩, i + (5 + payload_len + 2))

/-- The loop of `on_recv`; each search for a marker has `steps` candidates. -/
def recvLoopIn (read : List UInt8) (steps : ℕ) : ℕ → ℕ → Option (List CanFrame)
  | 0, _ => none
  | fuel + 1, i =>
    if i ≤ uintSub read.length 9 then
      (findMarkerIn read steps i).bind fun i =>
        (recvPacketIn read i).bind fun
          | none => some []
          | some (frame, i) =>
            (recvLoopIn read steps fuel i).map fun frames => frame :: frames
    else some []

/-- `on_recv` of one read, with up to `fuel` packets. -/
def onRecvIn (fuel : ℕ) (read : List UInt8) : Option (List CanFrame) :=
  if read.length < 7 ∨ read.getD 0 0 ≠ 0x41 ∨ read.getD 1 0 ≠ 0x54 then some []
  else recvLoopIn read (fuel + 1) fuel 0

variable {read : List UInt8} {i : ℕ}

/-! ## It does what `on_recv` does -/

/-- The scan for an `A` from `i` on ends at the first one, or at the end. -/
lemma findIdx_marker (hi : i ≤ read.length) :
    ∃ k, i + (read.drop i).findIdx (· = 0x41) = k ∧ i ≤ k ∧ k ≤ read.length ∧
      (k < read.length → read[k]? = some 0x41) ∧ ∀ q, i ≤ q → q < k → read[q]? ≠ some 0x41 := by
  have hle : (read.drop i).findIdx (· = 0x41) ≤ (read.drop i).length := List.findIdx_le_length
  rw [List.length_drop] at hle
  refine ⟨_, rfl, Nat.le_add_right _ _, by omega, ?_, ?_⟩
  · intro hlt
    have hget : (read.drop i)[(read.drop i).findIdx (· = 0x41)]? =
        some (read[i + (read.drop i).findIdx (· = 0x41)]) := by
      rw [List.getElem?_drop, List.getElem?_eq_getElem]
    have hA := List.findIdx_of_getElem?_eq_some hget
    rw [List.getElem?_eq_getElem hlt, of_decide_eq_true hA]
  · intro q hq hlt hA
    have hbefore : q - i < (read.drop i).findIdx (· = 0x41) := by omega
    have hnot := List.not_of_lt_findIdx hbefore
    rw [List.getElem_drop] at hnot
    have hqi : i + (q - i) = q := by omega
    simp only [hqi, decide_eq_false_iff_not] at hnot
    exact hnot (List.getElem?_eq_some_iff.mp hA).2

/-- One candidate of the search, when nine bytes or more are left. -/
lemma findMarkerIn_succ (hmin : 9 ≤ read.length) (hmax : read.length ≤ 1024) (fuel : ℕ)
    (hi : i + 9 ≤ read.length) :
    ∃ k, i ≤ k ∧ k ≤ read.length ∧ (k < read.length → read[k]? = some 0x41) ∧
      (∀ q, i ≤ q → q < k → read[q]? ≠ some 0x41) ∧
      findMarkerIn read (fuel + 1) i =
        if k + 9 ≤ read.length ∧ read[k + 1]? = some 0x54 then some (k + 2)
        else findMarkerIn read fuel (k + 1) := by
  obtain ⟨k, hk, hik, hle, hA, hbefore⟩ := findIdx_marker (by omega : i ≤ read.length)
  refine ⟨k, hik, hle, hA, hbefore, ?_⟩
  have hwrap : (k + 1) % 2 ^ 32 = k + 1 := Nat.mod_eq_of_lt (by omega)
  rw [findMarkerIn, uintSub_eq hmin (by omega), uintSub_eq (by omega) (by omega),
    if_pos (by omega)]
  simp only [hk, hwrap]
  by_cases hnear : k + 9 ≤ read.length
  · obtain ⟨c, hc⟩ : ∃ c, read[k + 1]? = some c := ⟨_, List.getElem?_eq_getElem (by omega)⟩
    rw [if_pos (by omega), hc, Option.bind_some]
    simp only [hnear, true_and, Option.some.injEq]
  · rw [if_neg (by omega), if_neg (by omega)]

lemma findMarker_of_findMarkerIn {fuel j : ℕ} (hmin : 9 ≤ read.length)
    (hmax : read.length ≤ 1024) (h : findMarkerIn read fuel i = some j) :
    findMarker read fuel i = some j := by
  induction fuel generalizing i with
  | zero => simp [findMarkerIn] at h
  | succ fuel ih =>
    have hnine := uintSub_eq hmin (by omega)
    by_cases hi : i + 9 ≤ read.length
    · obtain ⟨k, hk, -, hle, -⟩ := findIdx_marker (by omega : i ≤ read.length)
      have hwrap : (k + 1) % 2 ^ 32 = k + 1 := Nat.mod_eq_of_lt (by omega)
      rw [findMarkerIn, hnine, if_pos (by omega)] at h
      rw [findMarker, hnine, if_pos (by omega)]
      simp only [hk, hwrap] at h ⊢
      by_cases hnear : k + 1 ≤ uintSub read.length 8
      · have hlt : k + 1 < read.length := by
          rw [uintSub_eq (by omega) (by omega)] at hnear
          omega
        rw [if_pos hnear, List.getElem?_eq_getElem hlt, Option.bind_some] at h
        rw [List.getD_eq_getElem?_getD, getElem?_recvBuf hlt, List.getElem?_eq_getElem hlt,
          Option.getD_some]
        by_cases hT : read[k + 1] = 0x54
        · rw [if_pos hT] at h
          rw [if_pos ⟨hnear, hT⟩, h]
        · rw [if_neg hT] at h
          rw [if_neg fun hboth => hT hboth.2]
          exact ih h
      · rw [if_neg hnear] at h
        rw [if_neg fun hboth => hnear hboth.1]
        exact ih h
    · rw [findMarkerIn, hnine, if_neg (by omega)] at h
      rw [findMarker, hnine, if_neg (by omega), h]

lemma load_recvBuf {n : ℕ} {bytes : List UInt8} (h : load read i n = some bytes) :
    load (recvBuf read) i n = some bytes := by
  obtain ⟨hin, rfl⟩ := load_eq_some.mp h
  refine load_eq_some.mpr ⟨?_, (slice_recvBuf hin).symm⟩
  rw [recvBuf, List.length_append]
  omega

lemma getElem?_recvBuf_of_eq_some {c : UInt8} (h : read[i]? = some c) :
    (recvBuf read)[i]? = some c := by
  rw [getElem?_recvBuf (List.getElem?_eq_some_iff.mp h).1, h]

/-- A branch that leaves the loop leaves both. -/
lemma ite_congr_break {α : Type*} {c : Prop} [Decidable c] {x y : Option (Option α)}
    {z : Option α} (h : (if c then some none else x) = some z) (hxy : x = some z → y = some z) :
    (if c then some none else y) = some z := by
  split_ifs at h ⊢
  · exact h
  · exact hxy h

lemma recvPacket_of_recvPacketIn {x : Option (CanFrame × ℕ)} (h : recvPacketIn read i = some x) :
    recvPacket read i = some x := by
  refine ite_congr_break h fun h => ?_
  obtain ⟨head, hhead, h⟩ := Option.bind_eq_some_iff.mp h
  rw [load_recvBuf hhead, Option.bind_some]
  refine ite_congr_break h fun h => ?_
  obtain ⟨cr, hcr, h⟩ := Option.bind_eq_some_iff.mp h
  rw [getElem?_recvBuf_of_eq_some hcr, Option.bind_some]
  refine ite_congr_break h fun h => ?_
  obtain ⟨lf, hlf, h⟩ := Option.bind_eq_some_iff.mp h
  rw [getElem?_recvBuf_of_eq_some hlf, Option.bind_some]
  refine ite_congr_break h fun h => ?_
  split_ifs at h ⊢ with hmax
  obtain ⟨payload, hpayload, rfl⟩ := Option.map_eq_some_iff.mp h
  rw [(load_eq_some.mp (load_recvBuf hpayload)).2]

lemma recvLoop_of_recvLoopIn (hmin : 9 ≤ read.length) (hmax : read.length ≤ 1024) {fuel : ℕ}
    {frames : List CanFrame} (h : recvLoopIn read (read.length + 2) fuel i = some frames) :
    recvLoop read fuel i = some frames := by
  induction fuel generalizing i frames with
  | zero => simp [recvLoopIn] at h
  | succ fuel ih =>
    rw [recvLoopIn] at h
    rw [recvLoop]
    split_ifs at h ⊢
    · obtain ⟨j, hj, h⟩ := Option.bind_eq_some_iff.mp h
      obtain ⟨next, hnext, h⟩ := Option.bind_eq_some_iff.mp h
      rw [findMarker_of_findMarkerIn hmin hmax hj, Option.bind_some,
        recvPacket_of_recvPacketIn hnext, Option.bind_some]
      rcases next with _ | ⟨frame, i⟩
      · exact h
      · obtain ⟨later, hlater, rfl⟩ := Option.map_eq_some_iff.mp h
        dsimp only
        rw [ih hlater, Option.map_some]
    · exact h

/-! ## Packets and markers -/

/-- The search stops at an `A` with a `T` behind it, or at an `A` among the last nine bytes. -/
structure Candidate (read : List UInt8) (p : ℕ) : Prop where
  first : read[p]? = some 0x41
  stops : read[p + 1]? = some 0x54 ∨ read.length ≤ p + 9

/-- The first place from `i` on where the search stops. -/
structure StopsAt (read : List UInt8) (i p : ℕ) : Prop where
  le : i ≤ p
  candidate : Candidate read p
  before : ∀ q, i ≤ q → q < p → ¬ Candidate read q

/-- Where the packet behind a candidate begins. -/
def behind (read : List UInt8) (p : ℕ) : ℕ :=
  if p + 9 ≤ read.length ∧ read[p + 1]? = some 0x54 then p + 2 else p + 1

/-- At `j` there are an id, a length, as many bytes as it says, and `CR LF`. -/
structure WholePacket (read : List UInt8) (j : ℕ) (payload_len : UInt8) : Prop where
  fits : j + 7 + payload_len.toNat ≤ read.length
  length : read[j + 4]? = some payload_len
  cr : read[j + 5 + payload_len.toNat]? = some 0x0d
  lf : read[j + 6 + payload_len.toNat]? = some 0x0a

/-- From the cursor `i` the decoder takes a packet and goes on at `i'`. -/
def NextPacket (read : List UInt8) (i i' : ℕ) : Prop :=
  i + 9 ≤ read.length ∧ ∃ p payload_len, StopsAt read i p ∧
    WholePacket read (behind read p) payload_len ∧ i' = behind read p + 7 + payload_len.toNat

/-- Wherever a packet was taken and nine bytes are left, the search stops at a candidate, and
the packet behind it does not announce more than eight bytes. -/
def StaysInside (read : List UInt8) (i : ℕ) : Prop :=
  ∀ j, Relation.ReflTransGen (NextPacket read) i j → j + 9 ≤ read.length →
    ∃ p, StopsAt read j p ∧
      ∀ payload_len, WholePacket read (behind read p) payload_len → payload_len.toNat ≤ 8

lemma StopsAt.unique {p p' : ℕ} (h : StopsAt read i p) (h' : StopsAt read i p') : p = p' := by
  rcases Nat.lt_trichotomy p p' with hlt | heq | hgt
  · exact absurd h.candidate (h'.before p h.le hlt)
  · exact heq
  · exact absurd h'.candidate (h.before p' h'.le hgt)

/-- Places that are no candidates are passed over. -/
lemma StopsAt.of_skip {k p : ℕ} (h : StopsAt read k p) (hik : i ≤ k)
    (hnone : ∀ q, i ≤ q → q < k → ¬ Candidate read q) : StopsAt read i p := by
  refine ⟨hik.trans h.le, h.candidate, fun q hq hlt => ?_⟩
  by_cases hqk : q < k
  · exact hnone q hq hqk
  · exact h.before q (not_lt.mp hqk) hlt

lemma WholePacket.unique {j : ℕ} {n n' : UInt8} (h : WholePacket read j n)
    (h' : WholePacket read j n') : n = n' := by
  have := h.length
  rw [h'.length, Option.some.injEq] at this
  exact this.symm

/-! ## The search -/

lemma behind_le {p : ℕ} (h : Candidate read p) : p + 1 ≤ behind read p ∧
    behind read p ≤ read.length := by
  have hlt := (List.getElem?_eq_some_iff.mp h.first).1
  rw [behind]
  split_ifs <;> omega

/-- The search stops behind the first candidate; without one it stops behind the end. -/
lemma findMarkerIn_eq_some (hmin : 9 ≤ read.length) (hmax : read.length ≤ 1024) {fuel j : ℕ}
    (hi : i + 9 ≤ read.length) (h : findMarkerIn read fuel i = some j) :
    (∃ p, StopsAt read i p ∧ j = behind read p) ∨
      (∀ p, i ≤ p → ¬ Candidate read p) ∧ j = read.length + 1 := by
  induction fuel generalizing i with
  | zero => simp [findMarkerIn] at h
  | succ fuel ih =>
    obtain ⟨k, hik, hle, hA, hbefore, hstep⟩ := findMarkerIn_succ hmin hmax fuel hi
    have hnone : ∀ q, i ≤ q → q < k → ¬ Candidate read q := fun q hq hlt hc =>
      hbefore q hq hlt hc.first
    rw [hstep] at h
    split_ifs at h with hmark
    · obtain rfl := Option.some.inj h
      refine .inl ⟨k, ⟨hik, ⟨hA (by omega), .inl hmark.2⟩, hnone⟩, ?_⟩
      rw [behind, if_pos hmark]
    · by_cases hmore : k + 1 + 9 ≤ read.length
      · -- an `A` without a `T`, and the search goes on
        have hk : ¬ Candidate read k := by
          rintro ⟨-, hT | hend⟩
          · exact hmark ⟨by omega, hT⟩
          · omega
        have hall : ∀ q, i ≤ q → q < k + 1 → ¬ Candidate read q := by
          intro q hq hlt
          rcases Nat.lt_succ_iff_lt_or_eq.mp hlt with hlt | rfl
          · exact hnone q hq hlt
          · exact hk
        rcases ih hmore h with ⟨p, hp, rfl⟩ | ⟨hno, rfl⟩
        · exact .inl ⟨p, hp.of_skip (by omega) hall, rfl⟩
        · refine .inr ⟨?_, rfl⟩
          intro q hq
          by_cases hqk : q < k + 1
          · exact hall q hq hqk
          · exact hno q (by omega)
      · obtain ⟨fuel, rfl⟩ : ∃ n, fuel = n + 1 := by
          cases fuel with
          | zero => simp [findMarkerIn] at h
          | succ n => exact ⟨n, rfl⟩
        rw [findMarkerIn, uintSub_eq hmin (by omega), if_neg (by omega), Option.some.injEq] at h
        by_cases hlt : k < read.length
        · refine .inl ⟨k, ⟨hik, ⟨hA hlt, .inr (by omega)⟩, hnone⟩, ?_⟩
          rw [behind, if_neg hmark, h]
        · refine .inr ⟨?_, by omega⟩
          intro q hq hc
          have hq' := (List.getElem?_eq_some_iff.mp hc.first).1
          exact hnone q hq (by omega) hc

/-- Every candidate takes a byte, so that the search ends. -/
lemma exists_findMarkerIn (hmin : 9 ≤ read.length) (hmax : read.length ≤ 1024) {fuel : ℕ}
    (hi : i ≤ read.length + 1) (hfuel : read.length + 2 ≤ fuel + i) :
    ∃ j, findMarkerIn read fuel i = some j := by
  induction fuel generalizing i with
  | zero => omega
  | succ fuel ih =>
    by_cases hin : i + 9 ≤ read.length
    · obtain ⟨k, hik, hle, -, -, hstep⟩ := findMarkerIn_succ hmin hmax fuel hin
      rw [hstep]
      split_ifs
      · exact ⟨_, rfl⟩
      · exact ih (by omega) (by omega)
    · rw [findMarkerIn, uintSub_eq hmin (by omega), if_neg (by omega)]
      exact ⟨i, rfl⟩

/-! ## The packet -/

/-- One place behind the end, the difference wraps around and the id is not there. -/
lemma recvPacketIn_end : recvPacketIn read (read.length + 1) = none := by
  have hsub : uintSub read.length (read.length + 1) = 2 ^ 32 - 1 := by
    rw [uintSub]
    omega
  rw [recvPacketIn, hsub, if_neg (by decide), load, if_neg (by omega), Option.bind_none]

/-- A packet is taken, or copied over the end of the `can_frame`, or there is none. -/
lemma recvPacketIn_spec (hmax : read.length ≤ 1024) {j : ℕ} (hj : j ≤ read.length) :
    (∃ n, WholePacket read j n ∧ 8 < n.toNat ∧ recvPacketIn read j = none) ∨
    (∃ n frame, WholePacket read j n ∧ n.toNat ≤ 8 ∧ frame.data.length = n.toNat ∧
      recvPacketIn read j = some (some (frame, j + 7 + n.toNat))) ∨
    ((∀ n, ¬ WholePacket read j n) ∧ recvPacketIn read j = some none) := by
  have hsub : uintSub read.length j = read.length - j := uintSub_eq hj (by omega)
  simp only [recvPacketIn, hsub]
  by_cases hseven : read.length - j < 7
  · rw [if_pos hseven]
    exact .inr (.inr ⟨fun n h => by have := h.fits; omega, rfl⟩)
  · obtain ⟨n, hn⟩ : ∃ n, read[j + 4]? = some n := ⟨_, List.getElem?_eq_getElem (by omega)⟩
    have hhead : (slice read j 5).getD 4 0 = n := by
      rw [List.getD_eq_getElem?_getD, slice, List.getElem?_take_of_lt (by decide),
        List.getElem?_drop, hn, Option.getD_some]
    rw [if_neg hseven, load_eq_some.mpr ⟨(by omega : j + 5 ≤ read.length), rfl⟩, Option.bind_some,
      hhead]
    have hlength : ∀ n', WholePacket read j n' → n' = n := fun n' h => by
      simpa [hn] using h.length.symm
    by_cases hfits : read.length - j < 4 + 1 + n.toNat + 2
    · rw [if_pos hfits]
      refine .inr (.inr ⟨fun n' h => ?_, rfl⟩)
      have := h.fits
      rw [hlength n' h] at this
      omega
    · obtain ⟨cr, hcr⟩ : ∃ cr, read[j + 5 + n.toNat]? = some cr :=
        ⟨_, List.getElem?_eq_getElem (by omega)⟩
      obtain ⟨lf, hlf⟩ : ∃ lf, read[j + 6 + n.toNat]? = some lf :=
        ⟨_, List.getElem?_eq_getElem (by omega)⟩
      have hload : load read (j + 5) n.toNat = some (slice read (j + 5) n.toNat) :=
        load_eq_some.mpr ⟨by omega, rfl⟩
      rw [if_neg hfits, show j + 4 + 1 + n.toNat = j + 5 + n.toNat by omega, hcr, Option.bind_some,
        show j + 5 + n.toNat + 1 = j + 6 + n.toNat by omega, hlf, Option.bind_some]
      by_cases hend : cr = 0x0d ∧ lf = 0x0a
      · obtain ⟨rfl, rfl⟩ := hend
        have hwhole : WholePacket read j n := ⟨by omega, hn, hcr, hlf⟩
        rw [if_neg (not_not.mpr rfl), if_neg (not_not.mpr rfl)]
        by_cases hbig : n.toNat > 8
        · rw [if_pos hbig]
          exact .inl ⟨n, hwhole, hbig, rfl⟩
        · rw [if_neg hbig, hload, Option.map_some,
            show j + (5 + n.toNat + 2) = j + 7 + n.toNat by omega]
          exact .inr (.inl ⟨n, _, hwhole, by omega, length_slice (by omega), rfl⟩)
      · refine .inr (.inr ⟨fun n' h => hend ?_, ?_⟩)
        · have hcr' := h.cr
          have hlf' := h.lf
          rw [hlength n' h] at hcr' hlf'
          exact ⟨Option.some.inj (hcr.symm.trans hcr'), Option.some.inj (hlf.symm.trans hlf')⟩
        · by_cases hcr' : cr = 0x0d
          · rw [if_neg (not_not.mpr hcr'), if_pos fun hlf' => hend ⟨hcr', hlf'⟩]
          · rw [if_pos hcr']

/-! ## The loop -/

/-- From a cursor with less than nine bytes behind it nothing is taken. -/
lemma staysInside_end (hi : ¬ i + 9 ≤ read.length) : StaysInside read i := by
  intro j hj hmore
  rcases Relation.ReflTransGen.cases_head hj with rfl | ⟨k, hk, -⟩
  · exact absurd hmore hi
  · exact absurd hk.1 hi

/-- The condition at the cursor, and behind the packet that is taken there. -/
lemma staysInside_iff (hi : i + 9 ≤ read.length) : StaysInside read i ↔
    ∃ p, StopsAt read i p ∧ ∀ n, WholePacket read (behind read p) n →
      n.toNat ≤ 8 ∧ StaysInside read (behind read p + 7 + n.toNat) := by
  constructor
  · intro h
    obtain ⟨p, hp, hshort⟩ := h i .refl hi
    refine ⟨p, hp, fun n hn => ⟨hshort n hn, fun j hj => h j (.head ⟨hi, p, n, hp, hn, rfl⟩ hj)⟩⟩
  · rintro ⟨p, hp, hall⟩ j hj hmore
    rcases Relation.ReflTransGen.cases_head hj with rfl | ⟨k, ⟨-, p', n, hp', hn, rfl⟩, hk⟩
    · exact ⟨p, hp, fun n hn => (hall n hn).1⟩
    · obtain rfl := hp.unique hp'
      exact (hall n hn).2 j hk hmore

/-- When the loop returns, it stayed inside of the bytes. -/
lemma staysInside_of_recvLoopIn (hmin : 9 ≤ read.length) (hmax : read.length ≤ 1024)
    {steps fuel : ℕ} {frames : List CanFrame} (h : recvLoopIn read steps fuel i = some frames) :
    StaysInside read i := by
  induction fuel generalizing i frames with
  | zero => simp [recvLoopIn] at h
  | succ fuel ih =>
    by_cases hi : i + 9 ≤ read.length
    · rw [recvLoopIn, uintSub_eq hmin (by omega), if_pos (by omega)] at h
      obtain ⟨j, hj, h⟩ := Option.bind_eq_some_iff.mp h
      rw [staysInside_iff hi]
      rcases findMarkerIn_eq_some hmin hmax hi hj with ⟨p, hp, rfl⟩ | ⟨-, rfl⟩
      · refine ⟨p, hp, fun n hn => ?_⟩
        rcases recvPacketIn_spec hmax (behind_le hp.candidate).2 with
          ⟨n', -, -, hnone⟩ | ⟨n', frame, hn', hle, -, hsome⟩ | ⟨hno, -⟩
        · simp [hnone] at h
        · obtain rfl := hn.unique hn'
          rw [hsome, Option.bind_some] at h
          obtain ⟨later, hlater, -⟩ := Option.map_eq_some_iff.mp h
          exact ⟨hle, ih hlater⟩
        · exact absurd hn (hno n)
      · simp [recvPacketIn_end] at h
    · exact staysInside_end hi

/-- Every packet takes more than a byte, so that the loop returns. -/
lemma recvLoopIn_of_staysInside (hmin : 9 ≤ read.length) (hmax : read.length ≤ 1024)
    {steps fuel : ℕ} (hsteps : read.length + 2 ≤ steps) (hfuel : read.length < fuel + i)
    (hpos : 0 < fuel) (h : StaysInside read i) :
    ∃ frames, recvLoopIn read steps fuel i = some frames ∧ ∀ f ∈ frames, f.data.length ≤ 8 := by
  induction fuel generalizing i with
  | zero => omega
  | succ fuel ih =>
    rw [recvLoopIn, uintSub_eq hmin (by omega)]
    by_cases hi : i + 9 ≤ read.length
    · rw [if_pos (by omega)]
      obtain ⟨p, hp, hall⟩ := (staysInside_iff hi).mp h
      obtain ⟨j, hj⟩ : ∃ j, findMarkerIn read steps i = some j :=
        exists_findMarkerIn hmin hmax (by omega) (by omega)
      obtain ⟨hlt, hle⟩ := behind_le hp.candidate
      have hpi := hp.le
      obtain rfl : j = behind read p := by
        rcases findMarkerIn_eq_some hmin hmax hi hj with ⟨p', hp', rfl⟩ | ⟨hno, -⟩
        · rw [hp.unique hp']
        · exact absurd hp.candidate (hno p hp.le)
      rw [hj, Option.bind_some]
      rcases recvPacketIn_spec hmax hle with ⟨n, hn, hbig, -⟩ | ⟨n, frame, hn, hn8, hlen, hsome⟩ |
        ⟨-, hnone⟩
      · have := (hall n hn).1
        omega
      · have hfit := hn.fits
        obtain ⟨later, hlater, hshort⟩ := ih (by omega) (by omega) (hall n hn).2
        rw [hsome, Option.bind_some]
        refine ⟨frame :: later, by simp only [hlater, Option.map_some], ?_⟩
        intro f hf
        rcases List.mem_cons.mp hf with rfl | hf
        · omega
        · exact hshort f hf
      · rw [hnone]
        exact ⟨[], rfl, by simp⟩
    · rw [if_neg (by omega)]
      exact ⟨[], rfl, by simp⟩

/-! ## Short reads -/

lemma findIdx_first (hA : read[0]? = some 0x41) : (read.drop 0).findIdx (· = 0x41) = 0 := by
  cases read with
  | nil => cases hA
  | cons c rest =>
    obtain rfl : c = 0x41 := by simpa using hA
    simp [List.findIdx_cons]

/-- Seven bytes that begin with the marker have no packet. -/
lemma recvLoopIn_seven (hlen : read.length = 7) (hA : read[0]? = some 0x41)
    (hT : read[1]? = some 0x54) (steps fuel : ℕ) :
    recvLoopIn read (steps + 1) (fuel + 1) 0 = some [] := by
  have hmarker : findMarkerIn read (steps + 1) 0 = some 2 := by
    rw [findMarkerIn, hlen, if_pos (by decide)]
    simp only [findIdx_first hA, Nat.zero_add]
    rw [if_pos (by decide), Nat.mod_eq_of_lt (by decide), hT, Option.bind_some, if_pos rfl]
  rw [recvLoopIn, hlen, if_pos (by decide), hmarker, Option.bind_some, recvPacketIn, hlen,
    if_pos (by decide), Option.bind_some]

lemma recvLoop_seven (hlen : read.length = 7) (hA : read[0]? = some 0x41)
    (hT : read[1]? = some 0x54) (fuel : ℕ) : recvLoop read (fuel + 1) 0 = some [] := by
  have hT' : (recvBuf read).getD 1 0 = 0x54 := by
    rw [List.getD_eq_getElem?_getD, getElem?_recvBuf_of_eq_some hT, Option.getD_some]
  have hmarker : findMarker read (7 + 2) 0 = some 2 := by
    rw [findMarker, hlen, if_pos (by decide)]
    simp only [findIdx_first hA, Nat.zero_add]
    rw [if_pos ⟨by decide, hT'⟩]
  rw [recvLoop, hlen, if_pos (by decide), hmarker, Option.bind_some, recvPacket, hlen,
    if_pos (by decide), Option.bind_some]

/-- With eight bytes the cursor goes round the numbers for ever: the search only looks at the
first byte. -/
lemma findMarkerIn_eight (hlen : read.length = 8) (hA : read[0]? = some 0x41) (fuel : ℕ)
    (hi : i < 2 ^ 32) : findMarkerIn read fuel i = none := by
  induction fuel generalizing i with
  | zero => rfl
  | succ fuel ih =>
    have hnine : uintSub 8 9 = 2 ^ 32 - 1 := by decide
    rw [findMarkerIn, hlen, hnine, if_pos (by omega)]
    have hnext := Nat.mod_lt (i + (read.drop i).findIdx (· = 0x41) + 1) (Nat.two_pow_pos 32)
    dsimp only
    generalize (i + (read.drop i).findIdx (· = 0x41) + 1) % 2 ^ 32 = next at hnext ⊢
    split_ifs with hfirst
    · obtain rfl : next = 0 := Nat.le_zero.mp hfirst
      rw [hA, Option.bind_some, if_neg (by decide)]
      exact ih hnext
    · exact ih hnext

/-! ## The bounds -/

/-- What `on_recv` may do with the bytes of a read: it ignores them, or there are seven, or there
are nine or more and the condition holds. -/
def InBounds (read : List UInt8) : Prop :=
  read.length < 7 ∨ read.getD 0 0 ≠ 0x41 ∨ read.getD 1 0 ≠ 0x54 ∨ read.length = 7 ∨
    9 ≤ read.length ∧ StaysInside read 0

/-- The call returns, with no index at or behind the end, and no more than eight bytes in a
frame. -/
def ReturnsInside (read : List UInt8) : Prop :=
  ∃ fuel frames, onRecvIn fuel read = some frames ∧ ∀ f ∈ frames, f.data.length ≤ 8

/-- The marker at the beginning of a read that is not ignored. -/
lemma getElem?_of_not_ignored
    (h : ¬ (read.length < 7 ∨ read.getD 0 0 ≠ 0x41 ∨ read.getD 1 0 ≠ 0x54)) :
    7 ≤ read.length ∧ read[0]? = some 0x41 ∧ read[1]? = some 0x54 := by
  rw [not_or, not_or, not_not, not_not, not_lt] at h
  obtain ⟨hseven, hA, hT⟩ := h
  rw [List.getD_eq_getElem?_getD, List.getElem?_eq_getElem (by omega), Option.getD_some] at hA hT
  refine ⟨hseven, ?_, ?_⟩
  · rw [List.getElem?_eq_getElem (by omega), hA]
  · rw [List.getElem?_eq_getElem (by omega), hT]

lemma inBounds_of_onRecvIn (hmax : read.length ≤ 1024) {fuel : ℕ} {frames : List CanFrame}
    (h : onRecvIn fuel read = some frames) : InBounds read := by
  rw [onRecvIn] at h
  split_ifs at h with hignored
  · rcases hignored with h₁ | h₂ | h₃
    · exact .inl h₁
    · exact .inr (.inl h₂)
    · exact .inr (.inr (.inl h₃))
  · refine .inr (.inr (.inr ?_))
    obtain ⟨hseven, hA, -⟩ := getElem?_of_not_ignored hignored
    by_cases hlen : read.length = 7
    · exact .inl hlen
    · by_cases height : read.length = 8
      · -- the loop is entered, and its first search does not end
        cases fuel with
        | zero => simp [recvLoopIn] at h
        | succ fuel =>
          rw [recvLoopIn, height, if_pos (by decide), findMarkerIn_eight height hA _ (by decide),
            Option.bind_none] at h
          cases h
      · exact .inr ⟨by omega, staysInside_of_recvLoopIn (by omega) hmax h⟩

lemma returnsInside_of_inBounds (hmax : read.length ≤ 1024) (h : InBounds read) :
    ReturnsInside read := by
  refine ⟨read.length + 1, ?_⟩
  rw [onRecvIn]
  split_ifs with hignored
  · exact ⟨[], rfl, by simp⟩
  · obtain ⟨-, hA, hT⟩ := getElem?_of_not_ignored hignored
    have hmarked : read.length = 7 ∨ 9 ≤ read.length ∧ StaysInside read 0 := by
      rw [not_or, not_or] at hignored
      exact ((h.resolve_left hignored.1).resolve_left hignored.2.1).resolve_left hignored.2.2
    rcases hmarked with hlen | ⟨hmin, hinside⟩
    · exact ⟨[], recvLoopIn_seven hlen hA hT _ _, by simp⟩
    · exact recvLoopIn_of_staysInside hmin hmax (by omega) (by omega) (by omega) hinside

/-- What the decoder gives on the bytes alone is what `on_recv` gives. -/
theorem onRecv_of_onRecvIn (hmax : read.length ≤ 1024) {frames : List CanFrame}
    (h : onRecvIn (read.length + 1) read = some frames) : onRecv read = some frames := by
  have hbounds := inBounds_of_onRecvIn hmax h
  rw [onRecvIn] at h
  rw [onRecv]
  split_ifs at h ⊢ with hignored
  · exact h
  · obtain ⟨-, hA, hT⟩ := getElem?_of_not_ignored hignored
    rw [not_or, not_or] at hignored
    rcases ((hbounds.resolve_left hignored.1).resolve_left hignored.2.1).resolve_left
      hignored.2.2 with hlen | ⟨hmin, -⟩
    · rw [recvLoopIn_seven hlen hA hT] at h
      rw [recvLoop_seven hlen hA hT, h]
    · exact recvLoop_of_recvLoopIn hmin hmax h

/-- **The bounds of the serial decoder.** A call returns, stays inside of the bytes that were read
and copies at most eight bytes into a frame, exactly when it ignores the read, or there are
seven bytes, or nine and more, and behind every packet that is taken there are less than nine
bytes or a marker, or an `A` among the last nine bytes, with a packet of up to eight bytes or
none. -/
theorem serial_bounds_iff (read : List UInt8) (hmax : read.length ≤ 1024) :
    ReturnsInside read ↔ InBounds read :=
  ⟨fun ⟨_, _, h, _⟩ => inBounds_of_onRecvIn hmax h, returnsInside_of_inBounds hmax⟩

theorem serial_bounds_iff_seven :
    ReturnsInside [0x41, 0x54, 0, 0, 0, 0, 0] ↔ InBounds [0x41, 0x54, 0, 0, 0, 0, 0] :=
  serial_bounds_iff [0x41, 0x54, 0, 0, 0, 0, 0] (by decide)

/-- A read with a packet at the beginning is in bounds only if the condition holds. -/
lemma staysInside_of_returnsInside (hmin : 9 ≤ read.length) (hmax : read.length ≤ 1024)
    (hA : read.getD 0 0 = 0x41) (hT : read.getD 1 0 = 0x54) (h : ReturnsInside read) :
    StaysInside read 0 := by
  obtain ⟨fuel, frames, hrecv, -⟩ := h
  rcases inBounds_of_onRecvIn hmax hrecv with h₁ | h₂ | h₃ | h₄ | ⟨-, hinside⟩
  · omega
  · exact absurd hA h₂
  · exact absurd hT h₃
  · omega
  · exact hinside

/-- Eight bytes; a packet that announces nine bytes; and an empty packet with nine bytes behind
it that have no `A`. -/
theorem serial_not_bounded :
    ¬ ReturnsInside [0x41, 0x54, 0, 0, 0, 0, 0, 0] ∧
      ¬ ReturnsInside [0x41, 0x54, 0, 0, 0, 0, 9, 1, 2, 3, 4, 5, 6, 7, 8, 9, 0x0d, 0x0a] ∧
      ¬ ReturnsInside [0x41, 0x54, 0, 0, 0, 0, 0, 0x0d, 0x0a, 1, 2, 3, 4, 5, 6, 7, 8, 9] := by
  refine ⟨?_, ?_, ?_⟩
  · rintro ⟨fuel, frames, h, -⟩
    rcases inBounds_of_onRecvIn (by decide) h with h | h | h | h | ⟨h, -⟩ <;> revert h <;> decide
  · intro h
    obtain ⟨p, hp, hshort⟩ :=
      staysInside_of_returnsInside (by decide) (by decide) rfl rfl h 0 .refl (by decide)
    obtain rfl := hp.unique ⟨le_rfl, ⟨rfl, .inl rfl⟩, fun q _ hq => absurd hq (Nat.not_lt_zero q)⟩
    exact absurd (hshort 9 ⟨by decide, rfl, rfl, rfl⟩) (by decide)
  · intro h
    have hnext : NextPacket [0x41, 0x54, 0, 0, 0, 0, 0, 0x0d, 0x0a, 1, 2, 3, 4, 5, 6, 7, 8, 9]
        0 9 :=
      ⟨by decide, 0, 0, ⟨le_rfl, ⟨rfl, .inl rfl⟩, fun q _ hq => absurd hq (Nat.not_lt_zero q)⟩,
        ⟨by decide, rfl, rfl, rfl⟩, rfl⟩
    obtain ⟨p, hp, -⟩ :=
      staysInside_of_returnsInside (by decide) (by decide) rfl rfl h 9 (.single hnext) (by decide)
    obtain ⟨hlt, hA⟩ := List.getElem?_eq_some_iff.mp hp.candidate.first
    have hno : ∀ q : Fin 18, 9 ≤ q.val →
        [0x41, 0x54, 0, 0, 0, 0, 0, 0x0d, 0x0a, 1, 2, 3, 4, 5, 6, 7, 8, 9][q] ≠ (0x41 : UInt8) := by
      decide
    exact hno ⟨p, hlt⟩ hp.le hA

end SignalEventLoop.Can

/-
# Frames in a stream of bytes

A sender concatenates frames; a receiver gets the stream in chunks and asks a decoder, again
and again, how long the frame at the beginning of its bytes is.  The answer 0 means that the
frame is not complete.  A decoder need not be a function of the bytes (it may read a clock),
so it is given by the answers it may give.

A list `f` is a frame when the answer on `f` and anything behind it is the length of `f`, and
on a proper beginning of `f` it is 0.  `Pending` is the invariant of a receiver: the frames
that it has delivered, its bytes, and the bytes to come.  The rules tell what a chunk and an
answer do to it; the cutting into chunks plays no role.
-/
import Mathlib.Tactic

namespace SignalEventLoop.Lib

variable {α : Type*} {answers : List α → ℕ → Prop} {f rest more chunk : List α}
  {fs out : List (List α)} {n : ℕ}

/-- The decoder recognises the frame, and does not recognise a part of it. -/
structure IsFrame (answers : List α → ℕ → Prop) (f : List α) : Prop where
  ne_nil : f ≠ []
  complete : ∀ rest n, answers (f ++ rest) n → n = f.length
  incomplete : ∀ p n, p <+: f → p ≠ f → answers p n → n = 0

/-- Of the frames `fs`, the first ones are delivered as `out`; the bytes `rest` and the ones
to come are the others. -/
def Pending (fs out : List (List α)) (rest more : List α) : Prop :=
  ∃ todo, fs = out ++ todo ∧ rest ++ more = todo.flatten

lemma pending_init (fs : List (List α)) : Pending fs [] [] fs.flatten := ⟨fs, rfl, rfl⟩

/-- A chunk arrives. -/
lemma Pending.arrive (h : Pending fs out rest (chunk ++ more)) :
    Pending fs out (rest ++ chunk) more := by
  obtain ⟨todo, hfs, hrest⟩ := h
  exact ⟨todo, hfs, by rw [List.append_assoc, hrest]⟩

/-- The bytes hold the next frame, or are a part of it. -/
lemma frame_or_part (h : rest ++ more = f ++ fs.flatten) :
    (∃ rest', rest = f ++ rest' ∧ rest' ++ more = fs.flatten) ∨ (rest <+: f ∧ rest ≠ f) := by
  rcases List.append_eq_append_iff.mp h with ⟨f', hf, hmore⟩ | ⟨rest', hrest, hfs⟩
  · by_cases hnil : f' = []
    · subst hnil
      refine Or.inl ⟨[], ?_, ?_⟩
      · rw [hf]
        simp
      · rw [hmore]
        simp
    · refine Or.inr ⟨⟨f', hf.symm⟩, ?_⟩
      intro heq
      rw [heq] at hf
      exact hnil (by simpa using hf)
  · exact Or.inl ⟨rest', hrest, hfs.symm⟩

/-- The decoder answers: either the bytes begin with the next frame, which is delivered, or
the answer is 0. -/
lemma Pending.answer (h : Pending fs out rest more) (hfs : ∀ f ∈ fs, IsFrame answers f)
    (hnil : ∀ n, answers [] n → n = 0) (hn : answers rest n) :
    n = 0 ∨ (n ≤ rest.length ∧ rest.take n ∈ fs ∧
      Pending fs (out ++ [rest.take n]) (rest.drop n) more) := by
  obtain ⟨todo, rfl, hrest⟩ := h
  cases todo with
  | nil =>
    obtain ⟨rfl, -⟩ := List.append_eq_nil_iff.mp hrest
    exact Or.inl (hnil n hn)
  | cons f todo =>
    have hf := hfs f (by simp)
    rcases frame_or_part hrest with ⟨rest', rfl, hrest'⟩ | ⟨hpre, hne⟩
    · obtain rfl := hf.complete rest' n hn
      rw [List.take_left, List.drop_left]
      refine Or.inr ⟨by simp, by simp, todo, by simp, hrest'⟩
    · exact Or.inl (hf.incomplete rest n hpre hne hn)

/-- At the end of the stream an answer 0 means that everything was delivered. -/
lemma Pending.finished (h : Pending fs out rest []) (hfs : ∀ f ∈ fs, IsFrame answers f)
    (hzero : answers rest 0) : out = fs ∧ rest = [] := by
  obtain ⟨todo, rfl, hrest⟩ := h
  rw [List.append_nil] at hrest
  cases todo with
  | nil => exact ⟨by simp, by simpa using hrest⟩
  | cons f todo =>
    have hf := hfs f (by simp)
    rw [hrest, List.flatten_cons] at hzero
    exact absurd (List.length_eq_zero_iff.mp (hf.complete _ 0 hzero).symm) hf.ne_nil

/-! ## The residue -/

/-- The number of bytes behind the last complete frame, when `n` bytes have arrived. -/
def residue : List (List α) → ℕ → ℕ
  | [], n => n
  | f :: fs, n => if f.length ≤ n then residue fs (n - f.length) else n

lemma residue_append (out todo : List (List α)) (n : ℕ) :
    residue (out ++ todo) (out.flatten.length + n) = residue todo n := by
  induction out with
  | nil => simp
  | cons f out ih =>
    rw [List.cons_append, residue, List.flatten_cons, List.length_append, if_pos (by omega),
      show f.length + out.flatten.length + n - f.length = out.flatten.length + n by omega, ih]

/-- When the answer is 0 the bytes of the receiver are the residue. -/
lemma Pending.length_rest (h : Pending fs out rest more) (hfs : ∀ f ∈ fs, IsFrame answers f)
    (hzero : answers rest 0) {received : ℕ}
    (hreceived : received = out.flatten.length + rest.length) :
    residue fs received = rest.length := by
  obtain ⟨todo, rfl, hrest⟩ := h
  rw [hreceived, residue_append]
  cases todo with
  | nil => rfl
  | cons f todo =>
    have hf := hfs f (by simp)
    rcases frame_or_part hrest with ⟨rest', rfl, -⟩ | ⟨hpre, hne⟩
    · exact absurd (List.length_eq_zero_iff.mp (hf.complete rest' 0 hzero).symm) hf.ne_nil
    · rw [residue, if_neg]
      intro hle
      exact hne (hpre.eq_of_length (le_antisymm hpre.length_le hle))

/-- Every chunk fits, with the residue before it, into `capacity`. -/
def ChunksFit (fs : List (List α)) (capacity : ℕ) : ℕ → List (List α) → Prop
  | _, [] => True
  | received, chunk :: chunks =>
    residue fs received + chunk.length ≤ capacity ∧
      ChunksFit fs capacity (received + chunk.length) chunks

lemma length_le_of_chunksFit {capacity received : ℕ} {chunks : List (List α)}
    (h : ChunksFit fs capacity received chunks) (hchunk : chunk ∈ chunks) :
    chunk.length ≤ capacity := by
  induction chunks generalizing received with
  | nil => simp at hchunk
  | cons c chunks ih =>
    obtain ⟨h₁, h₂⟩ := h
    rcases List.mem_cons.mp hchunk with rfl | hchunk
    · omega
    · exact ih h₂ hchunk

end SignalEventLoop.Lib

/-
# Blocks of memory

A block that was allocated is a list.  `memcpy` out of a block and into a block is checked
against the bounds of the block: `load` and `store` fail when the range leaves it.  `slice`
is what a range of a block holds; the lemmas tell what it holds after a `store`.
-/
import Mathlib.Tactic

namespace SignalEventLoop.Lib

variable {α : Type*} {mem data : List α} {off len i n : ℕ}

/-- The contents of the range from `off` on. -/
def slice (mem : List α) (off len : ℕ) : List α := (mem.drop off).take len

/-- Copy a range out of the block. -/
def load (mem : List α) (off len : ℕ) : Option (List α) :=
  if off + len ≤ mem.length then some (slice mem off len) else none

/-- Copy `data` into the block. -/
def store (mem : List α) (off : ℕ) (data : List α) : Option (List α) :=
  if off + data.length ≤ mem.length then
    some (mem.take off ++ data ++ mem.drop (off + data.length))
  else none

lemma load_eq_some {out : List α} : load mem off len = some out ↔
    off + len ≤ mem.length ∧ out = slice mem off len := by
  rw [load]
  split_ifs with h
  · simp [h, eq_comm]
  · simp [h]

lemma store_eq_some {mem' : List α} : store mem off data = some mem' ↔
    off + data.length ≤ mem.length ∧
      mem' = mem.take off ++ data ++ mem.drop (off + data.length) := by
  rw [store]
  split_ifs with h
  · simp [h, eq_comm]
  · simp [h]

/-- A store inside of the memory is possible. -/
lemma exists_store (h : off + data.length ≤ mem.length) : ∃ mem', store mem off data = some mem' :=
  ⟨_, store_eq_some.mpr ⟨h, rfl⟩⟩

/-- A new block takes what is not longer. -/
lemma exists_store_replicate {a : α} :
    (∃ mem', store (List.replicate n a) 0 data = some mem') ↔ data.length ≤ n := by
  constructor
  · rintro ⟨mem', hstore⟩
    have hroom := (store_eq_some.mp hstore).1
    rwa [List.length_replicate, Nat.zero_add] at hroom
  · exact fun hlen => exists_store (by rwa [List.length_replicate, Nat.zero_add])

lemma drop_of_getElem? {a : α} (h : mem[i]? = some a) : mem.drop i = a :: mem.drop (i + 1) := by
  obtain ⟨hlt, rfl⟩ := List.getElem?_eq_some_iff.mp h
  exact List.drop_eq_getElem_cons hlt

lemma getElem?_of_drop {a : α} (h : mem.drop i = a :: data) : mem[i]? = some a := by
  rw [← List.head?_drop, h]
  rfl

lemma length_slice (h : off + len ≤ mem.length) : (slice mem off len).length = len := by
  simp only [slice, List.length_take, List.length_drop]
  omega

@[simp] lemma slice_zero_len (mem : List α) (off : ℕ) : slice mem off 0 = [] := by
  simp [slice]

lemma slice_cons {a : α} (h : mem[off]? = some a) (len : ℕ) :
    slice mem off (len + 1) = a :: slice mem (off + 1) len := by
  rw [slice, drop_of_getElem? h, List.take_succ_cons]
  rfl

lemma slice_slice (h : i + n ≤ len) : slice (slice mem off len) i n = slice mem (off + i) n := by
  simp only [slice, List.drop_take, List.drop_drop, List.take_take]
  rw [min_eq_left (by omega)]

lemma slice_append_slice (mem : List α) (off i n : ℕ) :
    slice mem off i ++ slice mem (off + i) n = slice mem off (i + n) := by
  simp only [slice, List.take_add, List.drop_drop]

/-- A range and what lies behind it. -/
lemma slice_append_drop (mem : List α) (off len : ℕ) :
    slice mem off len ++ mem.drop (off + len) = mem.drop off := by
  rw [slice, ← List.drop_drop, List.take_append_drop]

lemma drop_slice (mem : List α) (off len i : ℕ) :
    (slice mem off len).drop i = slice mem (off + i) (len - i) := by
  simp only [slice, List.drop_take, List.drop_drop]

lemma take_slice (h : n ≤ len) : (slice mem off len).take n = slice mem off n := by
  simp only [slice, List.take_take, min_eq_left h]

section store

variable {mem' : List α}

lemma length_of_store (h : store mem off data = some mem') : mem'.length = mem.length := by
  obtain ⟨hle, rfl⟩ := store_eq_some.mp h
  simp only [List.length_append, List.length_take, List.length_drop]
  omega

/-- The elements after a `store`. -/
lemma getElem?_of_store (h : store mem off data = some mem') (i : ℕ) :
    mem'[i]? = if off ≤ i ∧ i < off + data.length then data[i - off]? else mem[i]? := by
  obtain ⟨hle, rfl⟩ := store_eq_some.mp h
  have hoff : (mem.take off).length = off := List.length_take_of_le (by omega)
  rw [List.append_assoc]
  by_cases h₁ : i < off
  · rw [List.getElem?_append_left (by omega), List.getElem?_take_of_lt h₁, if_neg (by omega)]
  · rw [List.getElem?_append_right (by omega), hoff]
    by_cases h₂ : i < off + data.length
    · rw [List.getElem?_append_left (by omega), if_pos ⟨by omega, h₂⟩]
    · rw [List.getElem?_append_right (by omega), List.getElem?_drop, if_neg (by omega)]
      congr 1
      omega

/-- A block with two pieces of data one behind the other, and the rest as it was. -/
lemma store_append_of_getElem? {u v : List α} (hle : off + u.length + v.length ≤ mem.length)
    (h : ∀ i, mem'[i]? = if off ≤ i ∧ i < off + u.length then u[i - off]?
      else if off + u.length ≤ i ∧ i < off + u.length + v.length then v[i - (off + u.length)]?
      else mem[i]?) :
    store mem off (u ++ v) = some mem' := by
  have hroom : off + (u ++ v).length ≤ mem.length := by rwa [List.length_append, ← Nat.add_assoc]
  obtain ⟨mem'', hstore⟩ := exists_store hroom
  rw [hstore, Option.some.injEq]
  refine List.ext_getElem? fun i => ?_
  rw [getElem?_of_store hstore, h, List.length_append]
  by_cases hu : i - off < u.length
  · rw [List.getElem?_append_left hu]
    split_ifs <;> first | rfl | omega
  · rw [List.getElem?_append_right (by omega), Nat.sub_sub]
    split_ifs <;> first | rfl | omega

/-- Two stores one behind the other. -/
lemma store_append (mem : List α) (off : ℕ) (u v : List α) :
    store mem off (u ++ v) = (store mem off u).bind fun mem => store mem (off + u.length) v := by
  by_cases hle : off + u.length + v.length ≤ mem.length
  · obtain ⟨mem₁, h₁⟩ := exists_store (show off + u.length ≤ mem.length by omega)
    have hroom : off + u.length + v.length ≤ mem₁.length := by rwa [length_of_store h₁]
    obtain ⟨mem₂, h₂⟩ := exists_store hroom
    rw [h₁, Option.bind_some, h₂]
    refine store_append_of_getElem? hle fun i => ?_
    rw [getElem?_of_store h₂, getElem?_of_store h₁]
    split_ifs <;> first | rfl | omega
  · rw [store, if_neg (by rwa [List.length_append, ← Nat.add_assoc]), eq_comm,
      Option.bind_eq_none_iff]
    intro mem₁ h₁
    rw [store, length_of_store h₁, if_neg hle]

/-- The one behind may come first. -/
lemma store_append' (mem : List α) (off : ℕ) (u v : List α) :
    store mem off (u ++ v) = (store mem (off + u.length) v).bind fun mem => store mem off u := by
  by_cases hle : off + u.length + v.length ≤ mem.length
  · obtain ⟨mem₁, h₁⟩ := exists_store hle
    have hroom : off + u.length ≤ mem₁.length := by
      rw [length_of_store h₁]
      omega
    obtain ⟨mem₂, h₂⟩ := exists_store hroom
    rw [h₁, Option.bind_some, h₂]
    refine store_append_of_getElem? hle fun i => ?_
    rw [getElem?_of_store h₂, getElem?_of_store h₁]
  · rw [store, if_neg (by rwa [List.length_append, ← Nat.add_assoc]), store, if_neg hle]
    rfl

/-- A `store` does not change what lies before it. -/
lemma slice_of_store_before (h : store mem off data = some mem') (hi : i + n ≤ off) :
    slice mem' i n = slice mem i n := by
  obtain ⟨hle, rfl⟩ := store_eq_some.mp h
  have hoff : (mem.take off).length = off := List.length_take_of_le (by omega)
  simp only [slice, List.append_assoc]
  rw [List.drop_append_of_le_length (by omega),
    List.take_append_of_le_length (by rw [List.length_drop]; omega), List.drop_take,
    List.take_take, min_eq_left (by omega)]

/-- A `store` does not change what lies behind it. -/
lemma drop_of_store (h : store mem off data = some mem') (hi : off + data.length ≤ i) :
    mem'.drop i = mem.drop i := by
  refine List.ext_getElem? fun j => ?_
  rw [List.getElem?_drop, List.getElem?_drop, getElem?_of_store h, if_neg (by omega)]

/-- The block up to the end of a `store`. -/
lemma take_of_store (h : store mem off data = some mem') :
    mem'.take (off + data.length) = mem.take off ++ data := by
  obtain ⟨hle, rfl⟩ := store_eq_some.mp h
  refine List.take_left' ?_
  rw [List.length_append, List.length_take]
  omega

lemma take_of_store_zero (h : store mem 0 data = some mem') : mem'.take data.length = data := by
  have htake := take_of_store h
  rwa [Nat.zero_add, List.take_zero, List.nil_append] at htake

/-- The range of a `store` holds the data. -/
lemma slice_of_store_self (h : store mem off data = some mem') :
    slice mem' off data.length = data := by
  obtain ⟨hle, rfl⟩ := store_eq_some.mp h
  have hoff : (mem.take off).length = off := List.length_take_of_le (by omega)
  simp only [slice, List.append_assoc]
  rw [List.drop_append_of_le_length (by omega), List.drop_of_length_le (by omega), List.nil_append,
    List.take_append_of_le_length (le_refl _), List.take_length]

/-- A part of the range of a `store`. -/
lemma slice_of_store_inside (h : store mem off data = some mem') (hi : i + n ≤ data.length) :
    slice mem' (off + i) n = slice data i n := by
  rw [← slice_slice hi, slice_of_store_self h]

end store

end SignalEventLoop.Lib

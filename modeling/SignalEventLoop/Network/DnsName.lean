/-
# The names that are read

`parseNAME` (`imp/dns-solver.cpp`) copies a name out of a message, label by label, with a dot
behind each label.  It does not know pointers: every number is the length of a label.  The first
label may be empty; only then it looks for the zero behind the last one.
-/
import SignalEventLoop.Network.DnsSolver

namespace SignalEventLoop

open Lib Lib.Dns

namespace DnsSolver

/-- A name with its first label, as `parseNAME` takes it, at the beginning of some bytes. -/
def BeginsWithName (first : Bytes) (labels : List Bytes) (bytes : Bytes) : Prop :=
  first.length ≤ 255 ∧ (∀ l ∈ labels, l ≠ [] ∧ l.length ≤ 255) ∧
    ∃ rest, bytes = encodeLabels (first :: labels) ++ 0 :: rest

variable {buffer Domain Domain' first : Bytes} {labels : List Bytes} {pos a num num' fuel : ℕ}
  {j : UInt8}

lemma length_lt_dotted (first : Bytes) (labels : List Bytes) :
    labels.length < (dotted (first :: labels)).length := by
  induction labels generalizing first with
  | nil => simp
  | cons l labels ih =>
    have hlt := ih l
    rw [dotted_cons, List.length_append, List.length_cons, List.length_cons]
    omega

/-- A label with its number. -/
lemma drop_eq_label (hj : buffer[pos]? = some j)
    (hload : load buffer (pos + 1) j.toNat = some first) :
    first.length = j.toNat ∧
      buffer.drop pos = encodeLabel first ++ buffer.drop (pos + j.toNat + 1) := by
  obtain ⟨hle, rfl⟩ := load_eq_some.mp hload
  have hlen := length_slice hle
  refine ⟨hlen, ?_⟩
  rw [encodeLabel, hlen, UInt8.ofNat_toNat, List.cons_append, Nat.add_right_comm,
    slice_append_drop, drop_of_getElem? hj]

lemma load_label (hlen : first.length ≤ 255) {rest : Bytes}
    (hdrop : buffer.drop pos = encodeLabel first ++ rest) :
    buffer[pos]? = some (UInt8.ofNat first.length) ∧
      load buffer (pos + 1) first.length = some first ∧
      buffer.drop (pos + first.length + 1) = rest := by
  have hlength := congrArg List.length hdrop
  rw [List.length_drop, encodeLabel, List.cons_append, List.length_cons, List.length_append]
    at hlength
  have htail : buffer.drop (pos + 1) = first ++ rest := by
    rw [← List.drop_drop, hdrop]
    rfl
  refine ⟨getElem?_of_drop hdrop, load_eq_some.mpr ⟨by omega, ?_⟩, ?_⟩
  · rw [slice, htail, List.take_left]
  · rw [Nat.add_right_comm, ← List.drop_drop, htail, List.drop_left]

/-- What the loop has read when it returns. -/
lemma name_of_nameLoop (hj : buffer[pos]? = some j)
    (h : nameLoop buffer fuel pos j Domain a num = some (num', Domain')) :
    ∃ first labels, first.length = j.toNat ∧ BeginsWithName first labels (buffer.drop pos) ∧
      num' = num + (dotted (first :: labels)).length + 5 ∧
      store Domain a (dotted (first :: labels)) = some Domain' := by
  induction fuel generalizing pos j Domain a num with
  | zero => simp [nameLoop] at h
  | succ fuel ih =>
    obtain ⟨first, hload, h⟩ := Option.bind_eq_some_iff.mp h
    obtain ⟨Domain₁, hstore, h⟩ := Option.bind_eq_some_iff.mp h
    obtain ⟨next, hnext, h⟩ := Option.bind_eq_some_iff.mp h
    obtain ⟨hlen, hdrop⟩ := drop_eq_label hj hload
    have hbyte := j.toNat_lt
    have hlast : (first ++ [46]).length = j.toNat + 1 := by
      rw [List.length_append, hlen]
      rfl
    dsimp only at h
    split_ifs at h with hzero
    · -- the end of the name
      obtain ⟨rfl, rfl⟩ := Prod.mk.inj (Option.some.inj h)
      refine ⟨first, [], hlen, ⟨by omega, by simp, buffer.drop (pos + j.toNat + 1 + 1), ?_⟩, ?_,
        by simpa using hstore⟩
      · rw [hdrop, drop_of_getElem? hnext, hzero]
        simp [encodeLabel]
      · simp only [dotted_cons, dotted_nil, hlast]
        omega
    · -- another label
      obtain ⟨second, labels, hlen', ⟨hle, hlabels, rest, hrest⟩, rfl, hstore'⟩ := ih hnext h
      have hne : second ≠ [] := by
        rintro rfl
        exact hzero (UInt8.toNat_inj.mp hlen'.symm)
      refine ⟨first, second :: labels, hlen, ⟨by omega, ?_, rest, ?_⟩, ?_, ?_⟩
      · exact List.forall_mem_cons.mpr ⟨⟨hne, hle⟩, hlabels⟩
      · rw [hdrop, hrest]
        simp [encodeLabel]
      · rw [dotted_cons first, List.length_append, List.length_cons, hlen]
        omega
      · have hsplit : dotted (first :: second :: labels) =
            (first ++ [46]) ++ dotted (second :: labels) := by simp
        rw [hsplit, store_append, hstore, Option.bind_some, hlast, ← Nat.add_assoc, hstore']

/-- A name with room for it is read. -/
lemma nameLoop_of_name (hname : BeginsWithName first labels (buffer.drop pos))
    (hstore : store Domain a (dotted (first :: labels)) = some Domain')
    (hfuel : labels.length < fuel) :
    nameLoop buffer fuel pos (UInt8.ofNat first.length) Domain a num =
      some (num + (dotted (first :: labels)).length + 5, Domain') := by
  obtain ⟨hle, hlabels, rest, hrest⟩ := hname
  induction labels generalizing first pos Domain a num fuel with
  | nil =>
    obtain ⟨fuel, rfl⟩ := Nat.exists_eq_succ_of_ne_zero (by omega : fuel ≠ 0)
    have hfirst : buffer.drop pos = encodeLabel first ++ 0 :: rest := by
      rw [hrest]
      simp [encodeLabel]
    obtain ⟨-, hload, hdrop⟩ := load_label hle hfirst
    have hnumber : (UInt8.ofNat first.length).toNat = first.length :=
      UInt8.toNat_ofNat_of_lt' (Nat.lt_succ_of_le hle)
    have hnext : buffer[pos + first.length + 1]? = some 0 := getElem?_of_drop hdrop
    rw [dotted_cons, dotted_nil] at hstore
    rw [nameLoop, hnumber, hload, Option.bind_some, hstore, Option.bind_some, hnext,
      Option.bind_some]
    simp [Nat.add_assoc]
  | cons second labels ih =>
    obtain ⟨fuel, rfl⟩ := Nat.exists_eq_succ_of_ne_zero (by omega : fuel ≠ 0)
    rw [List.forall_mem_cons] at hlabels
    obtain ⟨⟨hne, hle'⟩, hlabels⟩ := hlabels
    have hfirst : buffer.drop pos =
        encodeLabel first ++ (encodeLabels (second :: labels) ++ 0 :: rest) := by
      rw [hrest]
      simp [encodeLabel]
    obtain ⟨-, hload, hdrop⟩ := load_label hle hfirst
    have hnumber : (UInt8.ofNat first.length).toNat = first.length :=
      UInt8.toNat_ofNat_of_lt' (Nat.lt_succ_of_le hle)
    have hnext : buffer[pos + first.length + 1]? = some (UInt8.ofNat second.length) :=
      getElem?_of_drop hdrop
    -- the number of another label is not the end
    have hnonzero : UInt8.ofNat second.length ≠ 0 := by
      intro hzero
      have hlen := congrArg UInt8.toNat hzero
      rw [UInt8.toNat_ofNat_of_lt' (Nat.lt_succ_of_le hle')] at hlen
      exact hne (List.length_eq_zero_iff.mp hlen)
    have hsplit : dotted (first :: second :: labels) =
        (first ++ [46]) ++ dotted (second :: labels) := by simp
    rw [hsplit, store_append] at hstore
    obtain ⟨Domain₁, hstore, hstore'⟩ := Option.bind_eq_some_iff.mp hstore
    rw [List.length_append, List.length_singleton, ← Nat.add_assoc] at hstore'
    rw [nameLoop, hnumber, hload, Option.bind_some, hstore, Option.bind_some, hnext,
      Option.bind_some]
    dsimp only
    rw [if_neg hnonzero, ih hstore' (by simpa using hfuel) hle' hlabels hdrop, dotted_cons first]
    simp only [List.length_append, List.length_cons, Option.some.injEq, Prod.mk.injEq, and_true]
    omega

/-- **What `parseNAME` reads**: the names in the message that have room in the array. -/
theorem parseNAME_eq_some : parseNAME buffer pos Domain = some (num, Domain') ↔
    ∃ first labels, BeginsWithName first labels (buffer.drop pos) ∧
      num = (dotted (first :: labels)).length + 5 ∧
      store Domain 0 (dotted (first :: labels)) = some Domain' := by
  constructor
  · intro h
    obtain ⟨j, hj, h⟩ := Option.bind_eq_some_iff.mp h
    obtain ⟨first, labels, -, hname, hnum, hstore⟩ := name_of_nameLoop hj h
    exact ⟨first, labels, hname, by rw [hnum, Nat.zero_add], hstore⟩
  · rintro ⟨first, labels, hname, rfl, hstore⟩
    obtain ⟨rest, hrest⟩ := hname.2.2
    have hfirst : buffer.drop pos = encodeLabel first ++ (encodeLabels labels ++ 0 :: rest) := by
      rw [hrest]
      simp [encodeLabel]
    obtain ⟨hj, -⟩ := load_label hname.1 hfirst
    -- every label has a dot in the array, so that its size is fuel enough
    have hroom := (store_eq_some.mp hstore).1
    have hlt := length_lt_dotted first labels
    rw [parseNAME, hj, Option.bind_some, nameLoop_of_name hname hstore (by omega), Nat.zero_add]

end DnsSolver

end SignalEventLoop

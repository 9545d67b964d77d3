/-
# The keys of a head as a map

The entries of the `std::map` of a head are in the order of their names, and a name occurs once.
`emplace`, `set` and `erase` keep this, and `emplace` is that of `Lib.SortedMap`: of several
fields with one name, the first one is kept (`firstOf_foldl`), and a map is filled from its own
entries (`foldl_emplace_self`).
-/
import Mathlib.Data.List.Lex
import SignalEventLoop.Lib.CText
import SignalEventLoop.Lib.SortedMap
import SignalEventLoop.Network.ProtocalHttp

namespace SignalEventLoop.Network

namespace KeysMap

open scoped Lib.ByteOrder

/-- The entries are in the order of their names. -/
def IsMap (keys : KeysMap) : Prop := keys.Pairwise fun e e' => e.1 < e'.1

instance (keys : KeysMap) : Decidable (IsMap keys) :=
  inferInstanceAs (Decidable (List.Pairwise _ _))

/-- The map that has the first one of the fields with each name. -/
structure FirstOf (fields : List (Text × Text)) (keys : KeysMap) : Prop where
  isMap : IsMap keys
  mem_iff : ∀ e, e ∈ keys ↔ fields.find? (fun e' => e'.1 = e.1) = some e

variable {keys : KeysMap} {key value : Text} {e : Text × Text}

lemma emplace_eq (key value : Text) (keys : KeysMap) :
    keys.emplace key value = Lib.SortedMap.emplace key value keys := by
  induction keys with
  | nil => rfl
  | cons e keys ih =>
    rw [emplace, Lib.SortedMap.emplace, ih]
    split_ifs <;> rfl

lemma foldl_emplace_eq (fields : List (Text × Text)) (keys : KeysMap) :
    fields.foldl (fun keys e => keys.emplace e.1 e.2) keys =
      fields.foldl (fun keys e => Lib.SortedMap.emplace e.1 e.2 keys) keys := by
  simp only [emplace_eq]

/-- The first one of the fields with a name is kept. -/
lemma firstOf_foldl (fields : List (Text × Text)) :
    FirstOf fields (fields.foldl (fun keys e => keys.emplace e.1 e.2) []) := by
  rw [foldl_emplace_eq]
  constructor
  · exact Lib.SortedMap.foldl_emplace_sorted Lib.SortedMap.sorted_nil
  · intro e
    rw [Lib.SortedMap.mem_foldl_emplace_iff Lib.SortedMap.sorted_nil]
    simp only [List.not_mem_nil, false_or, IsEmpty.forall_iff, implies_true, and_true]
    convert Iff.rfl

/-- A map is filled from its own entries. -/
lemma foldl_emplace_self (h : IsMap keys) :
    keys.foldl (fun keys e => KeysMap.emplace e.1 e.2 keys) [] = keys := by
  rw [foldl_emplace_eq]
  exact Lib.SortedMap.foldl_emplace_self h

lemma IsMap.erase (h : IsMap keys) : IsMap (keys.erase key) := List.Pairwise.filter _ h

lemma mem_erase : e ∈ keys.erase key ↔ e ∈ keys ∧ e.1 ≠ key := by
  rw [KeysMap.erase, List.mem_filter, decide_eq_true_iff]

/-- The entries after `set`. -/
lemma mem_set (h : IsMap keys) :
    e ∈ KeysMap.set key value keys ↔ e = (key, value) ∨ e ∈ keys ∧ e.1 ≠ key := by
  induction keys with
  | nil => simp [KeysMap.set]
  | cons d keys ih =>
    obtain ⟨hd, hkeys⟩ := List.pairwise_cons.mp h
    rw [KeysMap.set]
    split_ifs with hlt heq
    · have hnew : ∀ e' ∈ d :: keys, e'.1 ≠ key := by
        rw [List.forall_mem_cons]
        exact ⟨hlt.ne', fun e' he' => (hlt.trans (hd e' he')).ne'⟩
      rw [List.mem_cons]
      exact or_congr_right ⟨fun he => ⟨he, hnew e he⟩, And.left⟩
    · have hnew : ∀ e' ∈ keys, e'.1 ≠ key := fun e' he' => by
        rw [heq]
        exact (hd e' he').ne'
      rw [List.mem_cons, List.mem_cons]
      refine or_congr_right ⟨fun he => ⟨Or.inr he, hnew e he⟩, ?_⟩
      rintro ⟨rfl | he, hne⟩
      · exact absurd heq.symm hne
      · exact he
    · rw [List.mem_cons, ih hkeys, List.mem_cons]
      have hdk : d.1 ≠ key := fun heq' => heq heq'.symm
      constructor
      · rintro (rfl | rfl | ⟨he, hne⟩)
        · exact Or.inr ⟨Or.inl rfl, hdk⟩
        · exact Or.inl rfl
        · exact Or.inr ⟨Or.inr he, hne⟩
      · rintro (rfl | ⟨rfl | he, hne⟩)
        · exact Or.inr (Or.inl rfl)
        · exact Or.inl rfl
        · exact Or.inr (Or.inr ⟨he, hne⟩)

lemma IsMap.set (h : IsMap keys) : IsMap (KeysMap.set key value keys) := by
  induction keys with
  | nil => exact List.pairwise_singleton _ _
  | cons d keys ih =>
    obtain ⟨hd, hkeys⟩ := List.pairwise_cons.mp h
    rw [KeysMap.set]
    split_ifs with hlt heq
    · refine List.pairwise_cons.mpr ⟨?_, h⟩
      rw [List.forall_mem_cons]
      exact ⟨hlt, fun e' he' => hlt.trans (hd e' he')⟩
    · exact List.pairwise_cons.mpr ⟨fun e' he' => heq.le.trans_lt (hd e' he'), hkeys⟩
    · refine List.pairwise_cons.mpr ⟨fun e' he' => ?_, ih hkeys⟩
      rcases (mem_set hkeys).mp he' with rfl | ⟨he', -⟩
      · exact lt_of_le_of_ne (not_lt.mp hlt) (Ne.symm heq)
      · exact hd e' he'

/-! ## Reading the map -/

lemma find_cons (key : Text) (e : Text × Text) (keys : KeysMap) :
    KeysMap.find key (e :: keys) = if key = e.1 then some e.2 else KeysMap.find key keys := by
  rw [KeysMap.find, List.lookup_cons]
  by_cases h : key = e.1
  · rw [if_pos h, beq_iff_eq.mpr h]
  · rw [if_neg h, beq_eq_false_iff_ne.mpr h]
    rfl

lemma find_set (key value : Text) (keys : KeysMap) :
    KeysMap.find key (KeysMap.set key value keys) = some value := by
  induction keys with
  | nil => rw [KeysMap.set, find_cons, if_pos rfl]
  | cons d keys ih =>
    rw [KeysMap.set]
    split_ifs with hlt heq
    · rw [find_cons, if_pos rfl]
    · rw [find_cons, if_pos rfl]
    · rw [find_cons, if_neg heq, ih]

lemma find_erase (key : Text) (keys : KeysMap) :
    KeysMap.find key (KeysMap.erase key keys) = none := by
  rw [KeysMap.find, List.lookup_eq_none_iff]
  intro e he
  rw [bne_iff_ne]
  exact (mem_erase.mp he).2.symm

end KeysMap

end SignalEventLoop.Network

/-
# The blocks of printed texts

`cJSON_Print` allocates a block for the text of each item, from the lengths of the texts of its
entries, and then copies these into it.  `spelled` is the text by itself.  The lengths are enough
for every item but a double: for those there are 64 bytes, and `%lf` may write more.
-/
import SignalEventLoop.Json.CJson

namespace SignalEventLoop

open Lib

namespace CJson

variable {D : Type}

/-! ## The text of an item -/

/-- A string with its quotes, and nothing for a null pointer. -/
def quoted : Option Bytes → Bytes
  | none => []
  | some str => 34 :: (cString str).flatMap escapeChar ++ [34]

section spelled

variable (lib : Doubles D) (fmt : Bool)

mutual

/-- The text of an item that is printed at some depth. -/
def Value.spelled : ℕ → Value D → Bytes
  | _, .null => text "null"
  | _, .bool b => if b then text "true" else text "false"
  | _, .int sign valueint =>
    if sign = -1 then signedText valueint.toInt else decimal valueint.toUInt64.toNat
  | _, .double valuedouble => lib.printf valuedouble
  | _, .string valuestring => quoted (some valuestring)
  | depth, .array child =>
    91 :: List.intercalate (separator fmt) (child.entries (depth + 1)) ++ [93]
  | depth, .object child =>
    123 :: (if fmt then [10] else []) ++ objectLines fmt (depth + 1) (child.members (depth + 1))
      ++ (if fmt then List.replicate depth 9 else []) ++ [125]

/-- The texts of some items. -/
def Items.entries : ℕ → Items D → List Bytes
  | _, .nil => []
  | depth, .cons _ item next => item.spelled depth :: next.entries depth

/-- The texts of some items with their names. -/
def Items.members : ℕ → Items D → List (Bytes × Bytes)
  | _, .nil => []
  | depth, .cons string item next => (quoted string, item.spelled depth) :: next.members depth

end

end spelled

mutual

/-- The doubles of an item and the items below it. -/
def Value.doubles : Value D → List D
  | .null => []
  | .bool _ => []
  | .int _ _ => []
  | .double valuedouble => [valuedouble]
  | .string _ => []
  | .array child => child.doubles
  | .object child => child.doubles

def Items.doubles : Items D → List D
  | .nil => []
  | .cons _ item next => item.doubles ++ next.doubles

end

/-- The text of a double fits into its block. -/
def Short (lib : Doubles D) (ds : List D) : Prop := ∀ d ∈ ds, (lib.printf d).length < 64

instance (lib : Doubles D) (ds : List D) : Decidable (Short lib ds) :=
  inferInstanceAs (Decidable (∀ d ∈ ds, (lib.printf d).length < 64))

/-! ## Blocks -/

lemma block_of_lt {len : ℕ} {s : Bytes} (hlen : len < 2 ^ 31) (hs : s.length < len) :
    block len s = .ok s := by
  rw [block, if_neg (by omega), if_neg (by omega)]

/-- The three ways to write a character. -/
lemma escapeChar_cases (c : UInt8) :
    (31 < c ∧ c ≠ 34 ∧ c ≠ 92 ∧ escapeChar c = [c]) ∨
    (∃ d, (c, d) ∈ letterEscapes ∧ escapeChar c = [92, d]) ∨
    (c < 32 ∧ c ∉ [92, 34, 8, 12, 10, 13, 9] ∧
      escapeChar c = 92 :: 117 :: hexText false 4 c.toNat) := by
  by_cases hplain : 31 < c ∧ c ≠ 34 ∧ c ≠ 92
  · exact Or.inl ⟨hplain.1, hplain.2.1, hplain.2.2, if_pos hplain⟩
  by_cases hletter : c ∈ [92, 34, 8, 12, 10, 13, 9]
  · refine Or.inr (Or.inl ?_)
    simp only [List.mem_cons, List.not_mem_nil, or_false] at hletter
    obtain rfl | rfl | rfl | rfl | rfl | rfl | rfl := hletter
    all_goals exact ⟨_, by simp [letterEscapes], rfl⟩
  · refine Or.inr (Or.inr ⟨?_, hletter, ?_⟩)
    · simp only [List.mem_cons, List.not_mem_nil, or_false, not_or] at hletter
      by_contra hle
      refine hplain ⟨?_, hletter.2.1, hletter.1⟩
      rw [UInt8.lt_iff_toNat_lt] at hle ⊢
      simp only [UInt8.reduceToNat] at hle ⊢
      omega
    · have hlookup : letterEscapes.lookup c = none := by
        simp only [List.mem_cons, List.not_mem_nil, or_false, not_or] at hletter
        simp [letterEscapes, List.lookup_eq_none_iff, hletter]
      rw [escapeChar, if_neg hplain, hlookup]
      rfl

/-- What the first loop of `print_string_ptr` counts is what the second one writes. -/
lemma length_escapeChar (c : UInt8) :
    (escapeChar c).length =
      1 + (if c ∈ [34, 92, 8, 12, 10, 13, 9] then 1 else if c < 32 then 5 else 0) := by
  obtain ⟨hc, hquote, hslash, h⟩ | ⟨d, hd, h⟩ | ⟨hc, hletter, h⟩ := escapeChar_cases c
  · have hnot : c ∉ [34, 92, 8, 12, 10, 13, 9] := by
      simp only [List.mem_cons, List.not_mem_nil, or_false, not_or]
      refine ⟨hquote, hslash, ?_, ?_, ?_, ?_, ?_⟩ <;>
      · rintro rfl
        exact absurd hc (by decide)
    have hlarge : ¬ c < 32 := by
      rw [UInt8.lt_iff_toNat_lt] at hc ⊢
      simp only [UInt8.reduceToNat] at hc ⊢
      omega
    rw [h, if_neg hnot, if_neg hlarge]
    rfl
  · rw [h]
    simp only [letterEscapes, List.mem_cons, Prod.mk.injEq, List.not_mem_nil, or_false] at hd
    obtain ⟨rfl, -⟩ | ⟨rfl, -⟩ | ⟨rfl, -⟩ | ⟨rfl, -⟩ | ⟨rfl, -⟩ | ⟨rfl, -⟩ | ⟨rfl, -⟩ := hd <;> rfl
  · have hnot : c ∉ [34, 92, 8, 12, 10, 13, 9] := by
      simp only [List.mem_cons, List.not_mem_nil, or_false] at hletter ⊢
      tauto
    rw [h, if_neg hnot, if_pos hc]
    simp

lemma escapedLen_eq (s : Bytes) : escapedLen s = (s.flatMap escapeChar).length := by
  induction s with
  | nil => rfl
  | cons c s ih =>
    rw [escapedLen, ih, List.flatMap_cons, List.length_append, length_escapeChar]

/-- The block of a string is filled to its last byte. -/
lemma print_string_ptr_eq {string : Option Bytes} (hlen : (quoted string).length + 1 < 2 ^ 31) :
    print_string_ptr string = .ok (quoted string) := by
  cases string with
  | none => rfl
  | some str =>
    have hescaped := escapedLen_eq (cString str)
    simp only [quoted, List.length_append, List.length_cons, List.length_nil] at hlen
    refine block_of_lt (by omega) ?_
    simp only [List.length_append, List.length_cons, List.length_nil]
    omega

lemma length_signedText_le {v : ℤ} {k : ℕ} (hk : 0 < k) (hv : v.natAbs < 10 ^ k) :
    (signedText v).length ≤ k + 1 := by
  have hlen := length_decimal_le hk hv
  rw [signedText]
  split_ifs
  · rw [List.length_cons]
    omega
  · omega

/-- The text of an integer; the two ways to print it agree. -/
lemma print_int_eq (sign : ℤ) (v : Int64) :
    print_int sign v =
      .ok (if sign = -1 then signedText v.toInt else decimal v.toUInt64.toNat) := by
  have hfits : ∀ s : Bytes, s.length ≤ 20 → block 22 s = .ok s :=
    fun s hs => block_of_lt (by norm_num) (by omega)
  have hlow := v.le_toInt
  have hhigh := v.toInt_lt
  have hunsigned := v.toUInt64.toNat_lt
  by_cases hsign : sign = -1
  · rw [print_int, if_pos hsign, if_pos hsign]
    have hsmall : (if v.toInt ≤ 2 ^ 31 - 1 ∧ - 2 ^ 31 ≤ v.toInt then signedText v.toInt32.toInt
        else signedText v.toInt) = signedText v.toInt := by
      split_ifs with h
      · rw [Int64.toInt_toInt32, Int.bmod_eq_of_le (by omega) (by omega)]
      · rfl
    rw [hsmall]
    exact hfits _ (length_signedText_le (k := 19) (by norm_num) (by norm_num; omega))
  · rw [print_int, if_neg hsign, if_neg hsign]
    have hsmall : (if v.toUInt64 ≤ 4294967295 then decimal v.toUInt64.toUInt32.toNat
        else decimal v.toUInt64.toNat) = decimal v.toUInt64.toNat := by
      split_ifs with h
      · rw [UInt64.le_iff_toNat_le] at h
        simp only [UInt64.reduceToNat] at h
        rw [UInt64.toNat_toUInt32, Nat.mod_eq_of_lt (by omega)]
      · rfl
    rw [hsmall]
    exact hfits _ (length_decimal_le (by norm_num) (by norm_num; omega))

/-! ## Arrays and objects -/

/-- The lengths that `print_array` adds up, and the text that it composes. -/
lemma length_intercalate (fmt : Bool) (entries : List Bytes) :
    entries.length ≤ (List.intercalate (separator fmt) entries).length + 1 ∧
      (List.intercalate (separator fmt) entries).length ≤
        (entries.map fun e => e.length + 2 + if fmt then 1 else 0).sum ∧
      (entries.map fun e => e.length + 2 + if fmt then 1 else 0).sum ≤
        (List.intercalate (separator fmt) entries).length + entries.length + 2 := by
  have hsep : (separator fmt).length = 1 + if fmt then 1 else 0 := by cases fmt <;> rfl
  induction entries with
  | nil => simp
  | cons e entries ih =>
    cases entries with
    | nil =>
      simp only [List.intercalate_singleton, List.map_cons, List.map_nil, List.sum_cons,
        List.sum_nil, List.length_cons, List.length_nil]
      split_ifs <;> omega
    | cons e' entries =>
      obtain ⟨hcount, hlow, hsum⟩ := ih
      simp only [List.intercalate_cons_cons, List.length_append, hsep, List.map_cons,
        List.sum_cons, List.length_cons] at hcount hlow hsum ⊢
      split_ifs at hcount hlow hsum ⊢ <;> omega

lemma arrayText_eq (fmt : Bool) (entries : List Bytes)
    (hlen : (List.intercalate (separator fmt) entries).length < 2 ^ 29) :
    arrayText fmt entries =
      .ok (91 :: List.intercalate (separator fmt) entries ++ [93]) := by
  obtain ⟨hcount, hlow, hsum⟩ := length_intercalate fmt entries
  refine block_of_lt (by omega) ?_
  simp only [List.length_append, List.length_cons, List.length_nil]
  omega

/-- The block of an object is computed from the same lengths. -/
lemma length_objectLines (fmt : Bool) (depth : ℕ) (entries : List (Bytes × Bytes)) :
    (objectLines fmt depth entries).length + (if entries = [] then 0 else 1) =
      (entries.map fun e => e.2.length + e.1.length + 2 + if fmt then 2 + depth else 0).sum := by
  induction entries with
  | nil => rfl
  | cons e entries ih =>
    obtain ⟨name, entry⟩ := e
    simp only [objectLines, List.map_cons, List.sum_cons, ← ih, List.length_append,
      List.length_cons, reduceCtorEq, if_false]
    cases fmt <;> split_ifs <;> simp <;> omega

lemma objectText_eq (fmt : Bool) (depth : ℕ) (entries : List (Bytes × Bytes))
    (hlen : (objectLines fmt (depth + 1) entries).length + (if fmt then depth else 0) < 2 ^ 29) :
    objectText fmt (depth + 1) entries =
      .ok (123 :: (if fmt then [10] else []) ++ objectLines fmt (depth + 1) entries
        ++ (if fmt then List.replicate depth 9 else []) ++ [125]) := by
  have hlines := length_objectLines fmt (depth + 1) entries
  cases fmt
  · simp only [Bool.false_eq_true, if_false] at hlines hlen ⊢
    refine block_of_lt ?_ ?_
    · simp only [Bool.false_eq_true, if_false, ← hlines]
      split_ifs <;> omega
    · simp only [Bool.false_eq_true, if_false, ← hlines, List.length_append, List.length_cons,
        List.length_nil]
      omega
  · simp only [if_true] at hlines hlen ⊢
    refine block_of_lt ?_ ?_
    · simp only [if_true, ← hlines]
      split_ifs <;> omega
    · simp only [if_true, ← hlines, List.length_append, List.length_cons, List.length_nil,
        List.length_replicate]
      omega

/-! ## Printing -/

section print

variable (lib : Doubles D) (fmt : Bool)

/-- What is printed for entries that are too long together is too long. -/
lemma sum_length_le (entries : List Bytes) :
    (entries.map List.length).sum ≤ (List.intercalate (separator fmt) entries).length := by
  induction entries with
  | nil => simp
  | cons e entries ih =>
    cases entries with
    | nil => simp
    | cons e' entries =>
      simp only [List.intercalate_cons_cons, List.length_append, List.map_cons,
        List.sum_cons] at ih ⊢
      omega

lemma sum_members_le (depth : ℕ) (entries : List (Bytes × Bytes)) :
    (entries.map fun e => e.1.length + e.2.length).sum ≤
      (objectLines fmt depth entries).length := by
  induction entries with
  | nil => simp
  | cons e entries ih =>
    obtain ⟨name, entry⟩ := e
    simp only [objectLines, List.map_cons, List.sum_cons, List.length_append,
      List.length_cons] at ih ⊢
    omega

/-- `x`, when all these doubles are short. -/
def ifShort {α : Type} (ds : List D) (x : α) : Except Fault α :=
  if Short lib ds then .ok x else .error .overrun

lemma ifShort_append {α β γ : Type} (ds ds' : List D) (x : α) (y : β) (f : α → β → γ) :
    ((ifShort lib ds x).bind fun a => (ifShort lib ds' y).map (f a)) =
      ifShort lib (ds ++ ds') (f x y) := by
  have hsplit : Short lib (ds ++ ds') ↔ Short lib ds ∧ Short lib ds' := List.forall_mem_append
  simp only [ifShort, hsplit]
  by_cases h : Short lib ds <;> by_cases h' : Short lib ds' <;>
    simp [h, h', Except.bind, Except.map]

lemma ifShort_bind {α β : Type} (ds : List D) (x : α) {f : α → Except Fault β} {y : β}
    (h : f x = .ok y) : (ifShort lib ds x).bind f = ifShort lib ds y := by
  simp only [ifShort]
  split_ifs
  · exact h
  · rfl

lemma ifShort_nil {α : Type} (x : α) : ifShort lib [] x = .ok x :=
  if_pos fun _ hd => absurd hd List.not_mem_nil

mutual

/-- An item. -/
theorem print_value_eq : ∀ (v : Value D) (depth : ℕ), (v.spelled lib fmt depth).length < 2 ^ 29 →
    print_value lib fmt depth v = ifShort lib v.doubles (v.spelled lib fmt depth)
  | .null, _, _ => by
    rw [Value.doubles, ifShort_nil]
    rfl
  | .bool b, _, _ => by
    rw [Value.doubles, ifShort_nil]
    cases b <;> rfl
  | .int sign v, _, _ => by
    rw [Value.doubles, ifShort_nil, print_value, print_int_eq]
    rfl
  | .double d, _, _ => by
    have hshort : Short lib [d] ↔ (lib.printf d).length < 64 := by simp [Short]
    simp only [print_value, Value.doubles, ifShort, hshort, Value.spelled]
    by_cases h : (lib.printf d).length < 64
    · rw [if_pos h, block_of_lt (by norm_num) h]
    · rw [if_neg h, block, if_neg (by norm_num), if_pos (by omega)]
  | .string s, _, hlen => by
    rw [Value.doubles, ifShort_nil, print_value, Value.spelled]
    rw [Value.spelled] at hlen
    exact print_string_ptr_eq (by omega)
  | .array child, depth, hlen => by
    simp only [Value.spelled, List.length_append, List.length_cons] at hlen
    have hchild := print_items_eq child (depth + 1)
      ((sum_length_le fmt _).trans_lt (by omega))
    rw [print_value, hchild]
    exact ifShort_bind lib _ _ (arrayText_eq fmt _ (by omega))
  | .object child, depth, hlen => by
    simp only [Value.spelled, List.length_append, List.length_cons] at hlen
    have hchild := print_members_eq child (depth + 1)
      ((sum_members_le fmt (depth + 1) _).trans_lt (by omega))
    rw [print_value, hchild]
    refine ifShort_bind lib _ _ (objectText_eq fmt depth _ ?_)
    cases fmt <;> simp only [Bool.false_eq_true, if_false, if_true, List.length_replicate,
      List.length_nil] at hlen ⊢ <;> omega

/-- The items of an array. -/
theorem print_items_eq : ∀ (child : Items D) (depth : ℕ),
    ((child.entries lib fmt depth).map List.length).sum < 2 ^ 29 →
    print_items lib fmt depth child = ifShort lib child.doubles (child.entries lib fmt depth)
  | .nil, _, _ => by
    rw [Items.doubles, ifShort_nil]
    rfl
  | .cons string item next, depth, hlen => by
    simp only [Items.entries, List.map_cons, List.sum_cons] at hlen
    rw [print_items, print_value_eq item _ (by omega), print_items_eq next _ (by omega)]
    exact ifShort_append lib _ _ _ _ _

/-- The members of an object. -/
theorem print_members_eq : ∀ (child : Items D) (depth : ℕ),
    ((child.members lib fmt depth).map fun e => e.1.length + e.2.length).sum < 2 ^ 29 →
    print_members lib fmt depth child = ifShort lib child.doubles (child.members lib fmt depth)
  | .nil, _, _ => by
    rw [Items.doubles, ifShort_nil]
    rfl
  | .cons string item next, depth, hlen => by
    simp only [Items.members, List.map_cons, List.sum_cons] at hlen
    rw [print_members, print_string_ptr_eq (by omega), print_value_eq item _ (by omega),
      print_members_eq next _ (by omega)]
    exact ifShort_append lib _ _ _ _ _

end

end print

/-- **Which items are printed inside their blocks**: the lengths that are computed for arrays,
objects, strings and integers are enough at every depth, formatted or not, and an item is printed
as its text if and only if the text of every double in it has less than 64 characters; otherwise a
block is overrun. -/
theorem print_in_blocks (lib : Doubles D) (fmt : Bool) (v : Value D) (depth : ℕ)
    (hlen : (v.spelled lib fmt depth).length < 2 ^ 29) :
    (print_value lib fmt depth v = .ok (v.spelled lib fmt depth) ↔
        ∀ d ∈ v.doubles, (lib.printf d).length < 64) ∧
      (print_value lib fmt depth v = .error .overrun ↔
        ∃ d ∈ v.doubles, 64 ≤ (lib.printf d).length) := by
  rw [print_value_eq lib fmt v _ hlen, ifShort]
  have hnot : (∃ d ∈ v.doubles, 64 ≤ (lib.printf d).length) ↔ ¬ Short lib v.doubles := by
    simp [Short]
  rw [hnot]
  constructor
  · change _ ↔ Short lib v.doubles
    split_ifs with h <;> simp [h]
  · split_ifs with h <;> simp [h]

/-- Doubles that are millionths of integers, for which `%lf` is exact. -/
def millionths : Doubles ℤ where
  printf n := (if n < 0 then [45] else []) ++ decimal (n.natAbs / 10 ^ 6) ++
    46 :: (decimal (10 ^ 6 + n.natAbs % 10 ^ 6)).tail
  number negative digits exponent :=
    let n := if 0 ≤ exponent + 6 then decimalValue digits * 10 ^ (exponent + 6).toNat
      else decimalValue digits / 10 ^ (- (exponent + 6)).toNat
    if negative then - (n : ℤ) else n

theorem print_in_blocks_large :
    print_value millionths true 0 (.array (.cons none (.double (10 ^ 70)) .nil)) =
      .error .overrun := by
  refine (print_in_blocks millionths true _ 0 (by decide +kernel)).2.mpr ⟨10 ^ 70, ?_, ?_⟩
  · exact List.mem_singleton_self _
  · decide +kernel

end CJson

end SignalEventLoop

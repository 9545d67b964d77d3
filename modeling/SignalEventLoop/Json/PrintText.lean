/-
# Printed texts are read back

What `cJSON_Print` and `cJSON_PrintUnformatted` write is a text of JSON, with the blanks of its
layout, that stands for the item that was printed.  So what is known of the parser applies to it,
and an item comes back whole.
-/
import SignalEventLoop.Json.ParseText
import SignalEventLoop.Json.PrintBlocks

namespace SignalEventLoop

open Lib
open scoped Bytes

namespace CJson

variable {D : Type}

/-! ## The items that come back -/

mutual

/-- An item as the parser would build it: the sign of a number is -1 when there is a minus sign,
a number has a magnitude of 63 bits, a double is what its text says, a string ends with its first
NUL, and the members of an object have names while the entries of an array have none. -/
def Value.Canonical (lib : Doubles D) : Value D → Prop
  | .null => True
  | .bool _ => True
  | .int sign v => sign = (if v.toInt < 0 then -1 else 1) ∧ - 2 ^ 63 < v.toInt
  | .double d => ∃ n : NumberText, n.text = lib.printf d ∧ n.Readable ∧ n.value lib = .double d
  | .string s => ∀ c ∈ s, c ≠ 0
  | .array child => child.CanonicalEntries lib
  | .object child => child.CanonicalMembers lib

def Items.CanonicalEntries (lib : Doubles D) : Items D → Prop
  | .nil => True
  | .cons string item next => string = none ∧ item.Canonical lib ∧ next.CanonicalEntries lib

def Items.CanonicalMembers (lib : Doubles D) : Items D → Prop
  | .nil => True
  | .cons string item next =>
    (∃ name, string = some name ∧ ∀ c ∈ name, c ≠ 0) ∧ item.Canonical lib ∧
      next.CanonicalMembers lib

end

/-! ## Strings and numbers -/

/-- The digits of an escape. -/
def hex4 (c : UInt8) : Hex4 :=
  ⟨hexText false 4 c.toNat, length_hexText false 4 _, fun _ => isHexDigit_of_mem_hexText⟩

lemma hex4_value (c : UInt8) : (hex4 c).value = c.toNat := by
  have hlt := c.toNat_lt
  rw [Hex4.value, hex4, hexValue_hexText, Nat.mod_eq_of_lt (hlt.trans (by norm_num))]

/-- A character is printed as a piece of a string. -/
lemma exists_piece {c : UInt8} (hc : c ≠ 0) :
    ∃ p : Piece, p.text = escapeChar c ∧ p.meaning = [c] ∧ p.Readable := by
  obtain ⟨hlarge, hquote, hslash, h⟩ | ⟨d, hd, h⟩ | ⟨hsmall, -, h⟩ := escapeChar_cases c
  · have h32 : 32 ≤ c := by
      rw [UInt8.lt_iff_toNat_lt] at hlarge
      rw [UInt8.le_iff_toNat_le]
      exact hlarge
    exact ⟨.plain c ⟨h32, hquote, hslash⟩, h.symm, rfl, trivial⟩
  · rw [h]
    simp only [letterEscapes, List.mem_cons, Prod.mk.injEq, List.not_mem_nil, or_false] at hd
    obtain ⟨rfl, rfl⟩ | ⟨rfl, rfl⟩ | ⟨rfl, rfl⟩ | ⟨rfl, rfl⟩ | ⟨rfl, rfl⟩ | ⟨rfl, rfl⟩ |
      ⟨rfl, rfl⟩ := hd
    all_goals exact ⟨.letter _ (by decide), rfl, rfl, trivial⟩
  · have h0 : c.toNat ≠ 0 := fun h => hc (UInt8.toNat_inj.mp h)
    have hlt : c.toNat < 32 := by
      rw [UInt8.lt_iff_toNat_lt] at hsmall
      exact hsmall
    have hunit : ¬ (0xD800 ≤ (hex4 c).value ∧ (hex4 c).value ≤ 0xDFFF) := by
      rw [hex4_value]
      omega
    have hreadable : (Piece.unit (hex4 c) hunit).Readable := by rwa [Piece.Readable, hex4_value]
    refine ⟨.unit (hex4 c) hunit, h.symm, ?_, hreadable⟩
    have hvalid : c.toNat.isValidChar := Or.inl (hlt.trans (by norm_num))
    rw [Piece.meaning, hex4_value, String.utf8EncodeChar, toNat_ofNat hvalid,
      if_pos (hlt.le.trans (by norm_num)), UInt8.ofNat_toNat]

/-- A string is printed as a string. -/
lemma exists_literal {s : Bytes} (hs : ∀ c ∈ s, c ≠ 0) :
    ∃ ps : List Piece, literal ps = quoted (some s) ∧ ps.flatMap Piece.meaning = s ∧
      ∀ p ∈ ps, p.Readable := by
  have key : ∃ ps : List Piece, ps.flatMap Piece.text = s.flatMap escapeChar ∧
      ps.flatMap Piece.meaning = s ∧ ∀ p ∈ ps, p.Readable := by
    induction s with
    | nil => exact ⟨[], rfl, rfl, fun p hp => absurd hp List.not_mem_nil⟩
    | cons c s ih =>
      obtain ⟨p, htext, hmeaning, hp⟩ := exists_piece (hs c List.mem_cons_self)
      obtain ⟨ps, htexts, hmeanings, hps⟩ := ih fun c hc => hs c (List.mem_cons_of_mem _ hc)
      refine ⟨p :: ps, ?_, ?_, List.forall_mem_cons.mpr ⟨hp, hps⟩⟩
      · rw [List.flatMap_cons, List.flatMap_cons, htext, htexts]
      · rw [List.flatMap_cons, hmeaning, hmeanings]
        rfl
  obtain ⟨ps, htext, hmeaning, hps⟩ := key
  exact ⟨ps, by rw [literal, quoted, cString_eq_self hs, htext], hmeaning, hps⟩

/-- The number with neither digits behind the point nor an exponent. -/
def integerText (v : ℤ) : NumberText where
  negative := v < 0
  whole := v.natAbs
  decimals := ⟨[], fun _ hc => absurd hc List.not_mem_nil⟩
  exponent := none

lemma integerText_text (v : ℤ) : (integerText v).text = signedText v := by
  simp only [NumberText.text, integerText, signedText]
  by_cases h : v < 0 <;> simp [h]

/-- An integer is printed as a number. -/
lemma exists_integer (lib : Doubles D) (v : Int64) (hv : - 2 ^ 63 < v.toInt) :
    (integerText v.toInt).Readable ∧
      (integerText v.toInt).value lib = .int (if v.toInt < 0 then -1 else 1) v := by
  have hlt := v.toInt_lt
  refine ⟨⟨fun _ => ?_, fun e he => absurd he (by simp [integerText])⟩, ?_⟩
  · simp only [integerText]
    omega
  · have hint : (integerText v.toInt).IsInt := ⟨rfl, rfl⟩
    rw [NumberText.value, if_pos hint]
    by_cases hneg : v.toInt < 0
    · have hwhole : - Int64.ofNat v.toInt.natAbs = v := by
        rw [Int64.neg_ofNat, show - (v.toInt.natAbs : ℤ) = v.toInt by omega, Int64.ofInt_toInt]
      simp [integerText, hneg, hwhole]
    · have hwhole : Int64.ofNat v.toInt.natAbs = v := by
        rw [← Int64.ofInt_eq_ofNat, show (v.toInt.natAbs : ℤ) = v.toInt by omega,
          Int64.ofInt_toInt]
      simp [integerText, hneg, hwhole]

/-- An integer with its own sign is printed with it. -/
lemma spelled_integer (lib : Doubles D) (fmt : Bool) (depth : ℕ) (v : Int64) :
    (Value.int (if v.toInt < 0 then -1 else 1) v).spelled lib fmt depth = signedText v.toInt := by
  by_cases hneg : v.toInt < 0
  · simp [Value.spelled, hneg]
  · have hnat : v.toUInt64.toNat = v.toInt.natAbs := by
      have hclamp : v.toNatClampNeg = v.toInt.toNat := rfl
      rw [Int64.toNat_toUInt64_of_le (Int64.le_iff_toInt_le.mpr (by simpa using hneg)), hclamp]
      omega
    simp [Value.spelled, hneg, signedText, hnat]

/-! ## The layout -/

/-- What is in front of an entry of an array. -/
def entryBlanks (fmt : Bool) : Blanks := if fmt then ⟨[32], by simp⟩ else noBlanks

/-- A new line with some tabs. -/
def lineBlanks (fmt : Bool) (depth : ℕ) : Blanks :=
  if fmt then ⟨10 :: List.replicate depth 9, by simp [List.mem_replicate]⟩ else noBlanks

/-- What is in front of a value in an object. -/
def tabBlanks (fmt : Bool) : Blanks := if fmt then ⟨[9], by simp⟩ else noBlanks

lemma lineBlanks_val (fmt : Bool) (depth : ℕ) :
    (lineBlanks fmt depth).1 =
      (if fmt then [10] else []) ++ if fmt then List.replicate depth 9 else [] := by
  cases fmt <;> rfl

section layout

variable (lib : Doubles D) (fmt : Bool)

/-- `t` is the text of an item, and stands for it. -/
structure Spells (lib : Doubles D) (t : JsonText) (s : Bytes) (v : Value D) : Prop where
  text : t.text = s
  value : t.value lib = v
  readable : t.Readable

mutual

/-- An item that comes back is printed as a text of JSON that stands for it. -/
theorem exists_text : ∀ (v : Value D) (depth : ℕ), v.Canonical lib →
    ∃ t : JsonText, Spells lib t (v.spelled lib fmt depth) v
  | .null, _, _ => ⟨.null, rfl, rfl, trivial⟩
  | .bool b, _, _ => ⟨.bool b, by cases b <;> rfl, rfl, trivial⟩
  | .int sign v, depth, ⟨hsign, hv⟩ => by
    subst hsign
    obtain ⟨hreadable, hvalue⟩ := exists_integer lib v hv
    exact ⟨.number (integerText v.toInt), by rw [spelled_integer, ← integerText_text]; rfl, hvalue,
      hreadable⟩
  | .double d, _, ⟨n, htext, hreadable, hvalue⟩ => ⟨.number n, htext, hvalue, hreadable⟩
  | .string s, _, hs => by
    obtain ⟨ps, htext, hmeaning, hps⟩ := exists_literal hs
    exact ⟨.string ps, htext, by rw [JsonText.value, hmeaning], hps⟩
  | .array child, depth, h => by
    by_cases hchild : child = .nil
    · subst hchild
      exact ⟨.emptyArray noBlanks, by cases fmt <;> rfl, rfl, trivial⟩
    · obtain ⟨es, htext, hvalue, hreadable⟩ :=
        exists_elements child (depth + 1) noBlanks h hchild
      refine ⟨.array es, ?_, by rw [JsonText.value, hvalue], hreadable⟩
      rw [JsonText.text, htext]
      rfl
  | .object child, depth, h => by
    by_cases hchild : child = .nil
    · subst hchild
      refine ⟨.emptyObject (lineBlanks fmt depth), ?_, rfl, trivial⟩
      rw [JsonText.text, lineBlanks_val]
      simp [Value.spelled, Items.members, objectLines]
    · obtain ⟨ms, htext, hvalue, hreadable⟩ := exists_members child depth h hchild
      refine ⟨.object ms, ?_, by rw [JsonText.value, hvalue], hreadable⟩
      rw [JsonText.text, htext]
      simp [Value.spelled]

/-- The entries of an array, with blanks in front of the first one. -/
theorem exists_elements : ∀ (child : Items D) (depth : ℕ) (before : Blanks),
    child.CanonicalEntries lib → child ≠ .nil →
    ∃ es : Elements,
      es.text = before.1 ++
        List.intercalate (separator fmt) (child.entries lib fmt depth) ++ [93] ∧
      es.value lib = child ∧ es.Readable
  | .nil, _, _, _, hne => absurd rfl hne
  | .cons string item next, depth, before, ⟨hname, hitem, hnext⟩, _ => by
    obtain ⟨t, htext, hvalue, hreadable⟩ := exists_text item depth hitem
    by_cases hend : next = .nil
    · subst hend
      refine ⟨.last before t noBlanks, ?_, ?_, hreadable⟩
      · simp [Elements.text, Items.entries, htext, noBlanks]
      · rw [Elements.value, hvalue, hname]
    · obtain ⟨es, htexts, hvalues, hreadables⟩ :=
        exists_elements next depth (entryBlanks fmt) hnext hend
      have hentries : next.entries lib fmt depth ≠ [] := by
        cases next with
        | nil => exact absurd rfl hend
        | cons string' item' next => simp [Items.entries]
      refine ⟨.cons before t noBlanks es, ?_, ?_, ⟨hreadable, hreadables⟩⟩
      · rw [Elements.text, htext, htexts, Items.entries,
          List.intercalate_cons_of_ne_nil hentries]
        cases fmt <;> simp [noBlanks, entryBlanks, separator]
      · rw [Elements.value, hvalue, hvalues, hname]

/-- The members of an object, from the new line on. -/
theorem exists_members : ∀ (child : Items D) (depth : ℕ),
    child.CanonicalMembers lib → child ≠ .nil →
    ∃ ms : Members,
      ms.text = (if fmt then [10] else []) ++
        (objectLines fmt (depth + 1) (child.members lib fmt (depth + 1)) ++
          ((if fmt then List.replicate depth 9 else []) ++ [125])) ∧
      ms.value lib = child ∧ ms.Readable
  | .nil, _, _, hne => absurd rfl hne
  | .cons string item next, depth, ⟨⟨name, hname, hzero⟩, hitem, hnext⟩, _ => by
    obtain ⟨t, htext, hvalue, hreadable⟩ := exists_text item (depth + 1) hitem
    obtain ⟨ps, hps, hmeaning, hpsReadable⟩ := exists_literal hzero
    by_cases hend : next = .nil
    · subst hend
      refine ⟨.last (lineBlanks fmt (depth + 1)) ps noBlanks (tabBlanks fmt) t
        (lineBlanks fmt depth), ?_, ?_, ⟨hpsReadable, hreadable⟩⟩
      · rw [Members.text, htext, hps, hname, lineBlanks_val, lineBlanks_val]
        cases fmt <;> simp [Items.members, objectLines, noBlanks, tabBlanks]
      · rw [Members.value, hvalue, hmeaning, hname]
    · obtain ⟨ms, htexts, hvalues, hreadables⟩ := exists_members next depth hnext hend
      have hmembers : next.members lib fmt (depth + 1) ≠ [] := by
        cases next with
        | nil => exact absurd rfl hend
        | cons string' item' next => simp [Items.members]
      refine ⟨.cons (lineBlanks fmt (depth + 1)) ps noBlanks (tabBlanks fmt) t noBlanks ms, ?_, ?_,
        ⟨hpsReadable, hreadable, hreadables⟩⟩
      · rw [Members.text, htext, hps, hname, htexts, lineBlanks_val]
        cases fmt <;> simp [Items.members, objectLines, noBlanks, tabBlanks, hmembers]
      · rw [Members.value, hvalue, hvalues, hmeaning, hname]

end

end layout

/-- **A printed item is read back**: formatted or not, an item that is printed inside its blocks
comes back from its text, with whatever the memory holds behind the NUL. -/
theorem cJSON_Parse_print (lib : Doubles D) (fmt : Bool) {v : Value D} (hv : v.Canonical lib)
    (hlen : (v.spelled lib fmt 0).length < 2 ^ 29)
    (hshort : ∀ d ∈ v.doubles, (lib.printf d).length < 64) (memory : Bytes) :
    ∃ s, print_value lib fmt 0 v = .ok s ∧
      cJSON_Parse lib (s ++ 0 :: memory) = .item v (0 :: memory) := by
  obtain ⟨t, htext, hvalue, hreadable⟩ := exists_text lib fmt v 0 hv
  have hparse := cJSON_Parse_blanks lib noBlanks t noBlanks memory
  rw [(t.read_eq_iff lib).mpr hreadable] at hparse
  refine ⟨_, (print_value_eq lib fmt v _ hlen).trans (if_pos hshort), ?_⟩
  simpa [noBlanks, htext, hvalue] using hparse

/-- `{"a\n":[-5,null,2.5],"b":{}}` -/
def sampleItem : Value ℤ :=
  .object (.cons (some [97, 10])
    (.array (.cons none (.int (-1) (-5)) (.cons none .null (.cons none (.double 2500000) .nil))))
    (.cons (some [98]) (.object .nil) .nil))

/-- The text of 2.5 -/
def sampleNumber : NumberText where
  negative := false
  whole := 2
  decimals := ⟨[53, 48, 48, 48, 48, 48], by decide⟩
  exponent := none

theorem cJSON_Parse_print_sample :
    ∃ s, cJSON_Print millionths sampleItem = .ok s ∧
      cJSON_Parse millionths (s ++ [0]) = .item sampleItem [0] := by
  refine cJSON_Parse_print millionths true ?_ (by decide +kernel) (by decide +kernel) []
  refine ⟨⟨_, rfl, by decide⟩, ⟨rfl, ⟨by decide, by decide⟩, rfl, trivial, rfl, ?_, trivial⟩,
    ⟨_, rfl, by decide⟩, trivial, trivial⟩
  exact ⟨sampleNumber, by decide, by decide, rfl⟩

end CJson

end SignalEventLoop

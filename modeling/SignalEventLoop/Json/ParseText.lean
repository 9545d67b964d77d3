/-
# Texts that are read

`cJSON_Parse` of a text of JSON.  The parser calls itself along the text, so that what it does is
said once for a value, once for the elements of an array from one on, and once for the members of
an object, each with any text behind it; the induction is on the text, and two calls inside each
other for a character are enough.
-/
import SignalEventLoop.Json.ParseNumbers
import SignalEventLoop.Json.ParseStrings

namespace SignalEventLoop

open Lib

namespace CJson

variable {D : Type}

/-! ## What a text is read as -/

section read

variable (lib : Doubles D)

mutual

/-- The item that `parse_value` makes of a text, or the step of a number that is not defined. -/
def JsonText.read : JsonText → Except Fault (Value D)
  | .null => .ok .null
  | .bool b => .ok (.bool b)
  | .number n => if n.Readable then .ok (n.value lib) else .error .outOfRange
  | .string s => .ok (.string (s.flatMap Piece.read))
  | .emptyArray _ => .ok (.array .nil)
  | .array es => es.read.map .array
  | .emptyObject _ => .ok (.object .nil)
  | .object ms => ms.read.map .object

def Elements.read : Elements → Except Fault (Items D)
  | .last _ v _ => v.read.map fun x => .cons none x .nil
  | .cons _ v _ next => v.read.bind fun x => next.read.map (.cons none x)

def Members.read : Members → Except Fault (Items D)
  | .last _ name _ _ v _ => v.read.map fun x => .cons (some (name.flatMap Piece.read)) x .nil
  | .cons _ name _ _ v _ next =>
    v.read.bind fun x => next.read.map (.cons (some (name.flatMap Piece.read)) x)

end

end read

/-- The result of a parser that gets as far as `rest`, if it gets anywhere. -/
def parsedUpTo {α : Type} (rest : Bytes) : Except Fault α → Parsed α
  | .ok a => .item a rest
  | .error e => .fault e

@[simp] lemma parsedUpTo_ok {α : Type} (rest : Bytes) (a : α) :
    parsedUpTo rest (.ok a) = .item a rest := rfl

@[simp] lemma parsedUpTo_error {α : Type} (rest : Bytes) (e : Fault) :
    parsedUpTo rest (.error e : Except Fault α) = .fault e := rfl

lemma parsedUpTo_map {α β : Type} (rest : Bytes) (f : α → β) (x : Except Fault α) :
    parsedUpTo rest (x.map f) = (parsedUpTo rest x).map f := by
  cases x <;> rfl

/-! ## Blanks and first characters -/

/-- A character that `skip` stops at. -/
def Solid (c : UInt8) : Prop := c = 0 ∨ 32 < c

lemma skip_append (b : Blanks) {c : UInt8} (hc : Solid c) (s : Bytes) :
    skip (b.1 ++ c :: s) = .item () (c :: s) := by
  obtain ⟨b, hb⟩ := b
  induction b with
  | nil =>
    have hstop : ¬ (c ≠ 0 ∧ c ≤ 32) := by
      rintro ⟨h0, hle⟩
      obtain rfl | hlt := hc
      · exact h0 rfl
      · rw [UInt8.lt_iff_toNat_lt] at hlt
        rw [UInt8.le_iff_toNat_le] at hle
        omega
    simp only [List.nil_append, skip, if_neg hstop]
  | cons d b ih =>
    have hd : d ≠ 0 ∧ d ≤ 32 := by
      have hin := hb d List.mem_cons_self
      simp only [List.mem_cons, List.not_mem_nil, or_false] at hin
      obtain rfl | rfl | rfl | rfl := hin <;> decide
    simp only [List.cons_append, skip, if_pos hd]
    exact ih fun c hc => hb c (List.mem_cons_of_mem _ hc)

/-- The first character of a number is no letter, bracket or blank. -/
lemma numberHead {c : UInt8} (hc : c = 45 ∨ isDecimalDigit c = true) :
    45 ≤ c.toNat ∧ c.toNat ≤ 57 := by
  obtain rfl | hc := hc
  · decide
  · rw [isDecimalDigit_iff] at hc
    omega

/-- The first character of a value. -/
lemma text_head (t : JsonText) : ∃ c s, t.text = c :: s ∧ Solid c ∧ c ≠ 93 ∧ c ≠ 125 := by
  cases t with
  | number n =>
    obtain ⟨c, s, htext, hc⟩ := n.text_head
    refine ⟨c, s, htext, ?_⟩
    have hle := numberHead hc
    simp only [Solid, UInt8.lt_iff_toNat_lt, ne_eq, ← UInt8.toNat_inj, UInt8.reduceToNat]
    omega
  | bool b => cases b <;> exact ⟨_, _, rfl, Or.inr (by decide), by decide, by decide⟩
  | null => exact ⟨_, _, rfl, Or.inr (by decide), by decide, by decide⟩
  | string s => exact ⟨_, _, rfl, Or.inr (by decide), by decide, by decide⟩
  | emptyArray inner => exact ⟨_, _, rfl, Or.inr (by decide), by decide, by decide⟩
  | array es => exact ⟨_, _, rfl, Or.inr (by decide), by decide, by decide⟩
  | emptyObject inner => exact ⟨_, _, rfl, Or.inr (by decide), by decide, by decide⟩
  | object ms => exact ⟨_, _, rfl, Or.inr (by decide), by decide, by decide⟩

lemma skip_text (b : Blanks) (t : JsonText) (s : Bytes) :
    skip (b.1 ++ (t.text ++ s)) = .item () (t.text ++ s) := by
  obtain ⟨c, s', htext, hc, -⟩ := text_head t
  rw [htext, List.cons_append]
  exact skip_append b hc _

/-- Blanks and a character that is no part of a number end one. -/
lemma ends_append (b : Blanks) {c : UInt8} {s : Bytes} (h0 : 0 ∈ c :: s)
    (hc : isDecimalDigit c = false ∧ c ≠ 46 ∧ c ≠ 101 ∧ c ≠ 69) : Ends (b.1 ++ c :: s) := by
  refine ⟨List.mem_append_right _ h0, ?_⟩
  obtain ⟨b, hb⟩ := b
  cases b with
  | nil =>
    intro x hx
    obtain rfl := Option.some.inj hx
    exact hc
  | cons d b =>
    intro x hx
    obtain rfl := Option.some.inj hx
    have hin := hb d List.mem_cons_self
    simp only [List.mem_cons, List.not_mem_nil, or_false] at hin
    obtain rfl | rfl | rfl | rfl := hin <;> decide

section words

variable {α : Type} {w s : Bytes} {c d : UInt8} {k : Bool → Parsed α}

lemma startsWith_append (k : Bool → Parsed α) (w s : Bytes) :
    startsWith w (w ++ s) k = k true := by
  induction w with
  | nil => rfl
  | cons c w ih => simp [startsWith, look, ih]

lemma startsWith_ne (h : d ≠ c) : startsWith (c :: w) (d :: s) k = k false := by
  simp [startsWith, look, h]

end words

/-- What `parse_value` does with a character that begins none of the words. -/
lemma parse_value_cons (lib : Doubles D) (fuel : ℕ) {c : UInt8} (s : Bytes)
    (hc : c ≠ 110 ∧ c ≠ 102 ∧ c ≠ 116) :
    parse_value lib (fuel + 1) (c :: s) =
      if c = 34 then (parse_string (c :: s)).map .string
      else if c = 45 ∨ isDecimalDigit c then parse_number lib (c :: s)
      else if c = 91 then parseList 93 .array (parse_items lib fuel) (c :: s)
      else if c = 123 then parseList 125 .object (parse_members lib fuel) (c :: s)
      else .failed (c :: s) := by
  have hnull : text "null" = [110, 117, 108, 108] := by decide
  have hfalse : text "false" = [102, 97, 108, 115, 101] := by decide
  have htrue : text "true" = [116, 114, 117, 101] := by decide
  rw [parse_value, hnull, startsWith_ne hc.1, if_neg Bool.false_ne_true, hfalse,
    startsWith_ne hc.2.1, if_neg Bool.false_ne_true, htrue, startsWith_ne hc.2.2,
    if_neg Bool.false_ne_true]
  rfl

/-! ## Lists -/

lemma skip_cons {c : UInt8} (hc : Solid c) (s : Bytes) : skip (c :: s) = .item () (c :: s) :=
  skip_append noBlanks hc s

section lists

variable (lib : Doubles D)

/-- The parser of the elements begins with `skip`. -/
lemma parse_items_skip (fuel : ℕ) {s s' : Bytes} (h : skip s = .item () s')
    (h' : skip s' = .item () s') : parse_items lib fuel s' = parse_items lib fuel s := by
  cases fuel with
  | zero => rfl
  | succ fuel => simp only [parse_items, h, h']

lemma parse_members_skip (fuel : ℕ) {s s' : Bytes} (h : skip s = .item () s')
    (h' : skip s' = .item () s') : parse_members lib fuel s' = parse_members lib fuel s := by
  cases fuel with
  | zero => rfl
  | succ fuel => simp only [parse_members, h, h']

/-- A list that is not empty. -/
lemma parseList_of_skip (close o : UInt8) (make : Items D → Value D) {c : UInt8}
    {entries : Bytes → Parsed (Items D)} {s s' : Bytes} (hskip : skip s = .item () (c :: s'))
    (hc : c ≠ close) (hentries : entries (c :: s') = entries s) :
    parseList close make entries (o :: s) = (entries s).map make := by
  simp only [parseList, List.tail_cons, hskip, Parsed.andThen, look, if_neg hc, hentries]

/-- An empty list. -/
lemma parseList_empty {close : UInt8} (o : UInt8) (make : Items D → Value D)
    (entries : Bytes → Parsed (Items D)) (inner : Blanks) (hclose : Solid close) (s : Bytes) :
    parseList close make entries (o :: (inner.1 ++ close :: s)) = .item (make .nil) s := by
  simp only [parseList, List.tail_cons, skip_append inner hclose, Parsed.andThen, look, if_true]

/-- What the first element begins with. -/
lemma Elements.skip_text (es : Elements) (rest : Bytes) :
    ∃ c s, skip (es.text ++ rest) = .item () (c :: s) ∧ Solid c ∧ c ≠ 93 := by
  have key : ∀ (b : Blanks) (v : JsonText) (tail : Bytes),
      ∃ c s, skip (b.1 ++ (v.text ++ tail)) = .item () (c :: s) ∧ Solid c ∧ c ≠ 93 := by
    intro b v tail
    obtain ⟨c, s, htext, hc, hclose, -⟩ := text_head v
    exact ⟨c, s ++ tail, by rw [CJson.skip_text, htext, List.cons_append], hc, hclose⟩
  cases es with
  | last before v after =>
    simp only [Elements.text, List.append_assoc]
    exact key _ _ _
  | cons before v after next =>
    simp only [Elements.text, List.append_assoc]
    exact key _ _ _

lemma solid_quote : Solid 34 := Or.inr (by decide)

lemma skip_literal (b : Blanks) (ps : List Piece) (s : Bytes) :
    skip (b.1 ++ (literal ps ++ s)) = .item () (literal ps ++ s) :=
  skip_append b solid_quote _

lemma Members.skip_text (ms : Members) (rest : Bytes) :
    ∃ s, skip (ms.text ++ rest) = .item () (34 :: s) := by
  cases ms with
  | last before name colon middle v after =>
    simp only [Members.text, List.append_assoc]
    exact ⟨_, skip_literal before name _⟩
  | cons before name colon middle v after next =>
    simp only [Members.text, List.append_assoc]
    exact ⟨_, skip_literal before name _⟩

end lists

/-! ## The parser -/

section parse

variable (lib : Doubles D)

mutual

/-- A value. -/
theorem parse_value_text : ∀ (t : JsonText) (fuel : ℕ), 2 * t.text.length ≤ fuel →
    ∀ {rest : Bytes}, Ends rest →
    parse_value lib fuel (t.text ++ rest) = parsedUpTo rest (t.read lib)
  | t, 0, hfuel, rest, _ => by
    obtain ⟨c, s, htext, -⟩ := text_head t
    rw [htext] at hfuel
    simp at hfuel
  | .null, fuel + 1, _, rest, _ => by
    rw [JsonText.text, parse_value, startsWith_append, if_pos rfl]
    rfl
  | .bool false, fuel + 1, _, rest, _ => by
    have hnull : text "null" = [110, 117, 108, 108] := by decide
    have hfalse : text "false" = [102, 97, 108, 115, 101] := by decide
    rw [JsonText.text, parse_value, hnull, hfalse, List.cons_append, startsWith_ne (by decide),
      if_neg Bool.false_ne_true, ← List.cons_append, startsWith_append, if_pos rfl]
    rfl
  | .bool true, fuel + 1, _, rest, _ => by
    have hnull : text "null" = [110, 117, 108, 108] := by decide
    have hfalse : text "false" = [102, 97, 108, 115, 101] := by decide
    have htrue : text "true" = [116, 114, 117, 101] := by decide
    rw [JsonText.text, parse_value, hnull, hfalse, htrue, List.cons_append,
      startsWith_ne (by decide), if_neg Bool.false_ne_true, startsWith_ne (by decide),
      if_neg Bool.false_ne_true, ← List.cons_append, startsWith_append, if_pos rfl]
    rfl
  | .number n, fuel + 1, _, rest, hrest => by
    obtain ⟨c, s, htext, hc⟩ := n.text_head
    have hle := numberHead hc
    have hword : c ≠ 110 ∧ c ≠ 102 ∧ c ≠ 116 ∧ c ≠ 34 := by
      simp only [ne_eq, ← UInt8.toNat_inj, UInt8.reduceToNat]
      omega
    have hnumber := parse_number_text lib n hrest
    rw [htext, List.cons_append] at hnumber
    rw [JsonText.text, htext, List.cons_append,
      parse_value_cons lib fuel _ ⟨hword.1, hword.2.1, hword.2.2.1⟩, if_neg hword.2.2.2, if_pos hc,
      hnumber, JsonText.read]
    split_ifs <;> rfl
  | .string s, fuel + 1, _, rest, hrest => by
    have hstring := parse_string_literal s hrest.1
    rw [literal, List.append_assoc, List.cons_append] at hstring
    rw [JsonText.text, literal, List.append_assoc, List.cons_append,
      parse_value_cons lib fuel _ (by decide), if_pos rfl, hstring]
    rfl
  | .emptyArray inner, fuel + 1, _, rest, _ => by
    have hempty := parseList_empty 91 .array (parse_items lib fuel) inner
      (Or.inr (by decide) : Solid 93) rest
    rw [JsonText.text, List.append_assoc, List.cons_append, List.singleton_append,
      parse_value_cons lib fuel _ (by decide)]
    exact hempty
  | .array es, fuel + 1, hfuel, rest, hrest => by
    have hes := parse_items_text es fuel (by
      simp only [JsonText.text, List.length_cons] at hfuel
      omega) hrest.1
    obtain ⟨c, s, hskip, hsolid, hclose⟩ := es.skip_text rest
    have hlist := parseList_of_skip 93 91 .array hskip hclose
      (parse_items_skip lib fuel hskip (skip_cons hsolid s))
    rw [JsonText.text, List.cons_append, parse_value_cons lib fuel _ (by decide)]
    refine hlist.trans ?_
    rw [hes, JsonText.read, parsedUpTo_map]
  | .emptyObject inner, fuel + 1, _, rest, _ => by
    have hempty := parseList_empty 123 .object (parse_members lib fuel) inner
      (Or.inr (by decide) : Solid 125) rest
    rw [JsonText.text, List.append_assoc, List.cons_append, List.singleton_append,
      parse_value_cons lib fuel _ (by decide)]
    exact hempty
  | .object ms, fuel + 1, hfuel, rest, hrest => by
    have hms := parse_members_text ms fuel (by
      simp only [JsonText.text, List.length_cons] at hfuel
      omega) hrest.1
    obtain ⟨s, hskip⟩ := ms.skip_text rest
    have hlist := parseList_of_skip 125 123 .object hskip (by decide)
      (parse_members_skip lib fuel hskip (skip_cons solid_quote s))
    rw [JsonText.text, List.cons_append, parse_value_cons lib fuel _ (by decide)]
    refine hlist.trans ?_
    rw [hms, JsonText.read, parsedUpTo_map]

/-- The elements of an array, from one on. -/
theorem parse_items_text : ∀ (es : Elements) (fuel : ℕ), 2 * es.text.length ≤ fuel →
    ∀ {rest : Bytes}, 0 ∈ rest →
    parse_items lib fuel (es.text ++ rest) = parsedUpTo rest (es.read lib)
  | es, 0, hfuel, rest, h0 => by
    cases es <;> simp [Elements.text] at hfuel
  | .last before v after, fuel + 1, hfuel, rest, h0 => by
    have hv := parse_value_text v fuel (by
      simp only [Elements.text, List.length_append, List.length_singleton] at hfuel
      omega) (ends_append after (c := 93) (List.mem_cons_of_mem _ h0) (by decide))
    simp only [Elements.text, List.append_assoc, List.singleton_append, parse_items, skip_text,
      Parsed.andThen, hv, Elements.read]
    cases v.read lib with
    | error e => rfl
    | ok x => simp [skip_append after (Or.inr (by decide) : Solid 93), look, Except.map]
  | .cons before v after next, fuel + 1, hfuel, rest, h0 => by
    simp only [Elements.text, List.length_append, List.length_cons] at hfuel
    have hv := parse_value_text v fuel (by omega)
      (ends_append after (c := 44) (s := next.text ++ rest) (by simp [h0]) (by decide))
    have hnext := parse_items_text next fuel (by omega) h0
    simp only [Elements.text, List.append_assoc, List.cons_append, parse_items, skip_text,
      Parsed.andThen, hv, Elements.read]
    cases v.read lib with
    | error e => rfl
    | ok x =>
      simp only [parsedUpTo_ok, skip_append after (Or.inr (by decide) : Solid 44), look, if_true,
        List.tail_cons, hnext, Except.bind, parsedUpTo_map]

/-- The members of an object, from one on. -/
theorem parse_members_text : ∀ (ms : Members) (fuel : ℕ), 2 * ms.text.length ≤ fuel →
    ∀ {rest : Bytes}, 0 ∈ rest →
    parse_members lib fuel (ms.text ++ rest) = parsedUpTo rest (ms.read lib)
  | ms, 0, hfuel, rest, h0 => by
    cases ms <;> simp [Members.text] at hfuel
  | .last before name colon middle v after, fuel + 1, hfuel, rest, h0 => by
    simp only [Members.text, List.length_append, List.length_cons, List.length_nil] at hfuel
    have hv := parse_value_text v fuel (by omega)
      (ends_append after (c := 125) (List.mem_cons_of_mem _ h0) (by decide))
    have hname := parse_string_literal name (s := colon.1 ++ 58 :: (middle.1 ++ (v.text ++
      (after.1 ++ 125 :: rest)))) (by simp [h0])
    simp only [Members.text, List.append_assoc, List.cons_append, List.nil_append, parse_members,
      skip_literal, Parsed.andThen, hname, skip_append colon (Or.inr (by decide) : Solid 58), look,
      ne_eq, not_true_eq_false, if_false, List.tail_cons, skip_text, hv, Members.read]
    cases v.read lib with
    | error e => rfl
    | ok x => simp [skip_append after (Or.inr (by decide) : Solid 125), Except.map]
  | .cons before name colon middle v after next, fuel + 1, hfuel, rest, h0 => by
    simp only [Members.text, List.length_append, List.length_cons] at hfuel
    have hv := parse_value_text v fuel (by omega)
      (ends_append after (c := 44) (s := next.text ++ rest) (by simp [h0]) (by decide))
    have hnext := parse_members_text next fuel (by omega) h0
    have hname := parse_string_literal name (s := colon.1 ++ 58 :: (middle.1 ++ (v.text ++
      (after.1 ++ 44 :: (next.text ++ rest))))) (by simp [h0])
    simp only [Members.text, List.append_assoc, List.cons_append, parse_members,
      skip_literal, Parsed.andThen, hname, skip_append colon (Or.inr (by decide) : Solid 58), look,
      ne_eq, not_true_eq_false, if_false, List.tail_cons, skip_text, hv, Members.read]
    cases v.read lib with
    | error e => rfl
    | ok x =>
      simp only [parsedUpTo_ok, skip_append after (Or.inr (by decide) : Solid 44), if_true,
        List.tail_cons, hnext, Except.bind, parsedUpTo_map]

end

end parse

/-! ## Texts that are read as what they stand for -/

section readable

variable (lib : Doubles D)

mutual

lemma JsonText.read_eq_iff : ∀ t : JsonText, t.read lib = .ok (t.value lib) ↔ t.Readable
  | .null => by simp [JsonText.read, JsonText.value, JsonText.Readable]
  | .bool b => by simp [JsonText.read, JsonText.value, JsonText.Readable]
  | .number n => by
    simp only [JsonText.read, JsonText.value, JsonText.Readable]
    split_ifs with h <;> simp [h]
  | .string s => by
    simp only [JsonText.read, JsonText.value, JsonText.Readable, Except.ok.injEq,
      Value.string.injEq]
    exact flatMap_read_eq_iff s
  | .emptyArray inner => by simp [JsonText.read, JsonText.value, JsonText.Readable]
  | .array es => by
    rw [JsonText.Readable, ← Elements.read_eq_iff es, JsonText.read, JsonText.value]
    cases es.read lib <;> simp [Except.map]
  | .emptyObject inner => by simp [JsonText.read, JsonText.value, JsonText.Readable]
  | .object ms => by
    rw [JsonText.Readable, ← Members.read_eq_iff ms, JsonText.read, JsonText.value]
    cases ms.read lib <;> simp [Except.map]

lemma Elements.read_eq_iff : ∀ es : Elements, es.read lib = .ok (es.value lib) ↔ es.Readable
  | .last before v after => by
    rw [Elements.Readable, ← JsonText.read_eq_iff v, Elements.read, Elements.value]
    cases v.read lib <;> simp [Except.map]
  | .cons before v after next => by
    rw [Elements.Readable, ← JsonText.read_eq_iff v, ← Elements.read_eq_iff next, Elements.read,
      Elements.value]
    cases v.read lib <;> cases next.read lib <;> simp [Except.map, Except.bind]

lemma Members.read_eq_iff : ∀ ms : Members, ms.read lib = .ok (ms.value lib) ↔ ms.Readable
  | .last before name colon middle v after => by
    rw [Members.Readable, ← JsonText.read_eq_iff v, ← flatMap_read_eq_iff, Members.read,
      Members.value]
    cases v.read lib <;> simp [Except.map]
  | .cons before name colon middle v after next => by
    rw [Members.Readable, ← JsonText.read_eq_iff v, ← Members.read_eq_iff next,
      ← flatMap_read_eq_iff, Members.read, Members.value]
    cases v.read lib <;> cases next.read lib <;> simp [Except.map, Except.bind]

end

end readable

/-- A text between blanks, as it is read. -/
lemma cJSON_Parse_blanks (lib : Doubles D) (before : Blanks) (t : JsonText) (after : Blanks)
    (memory : Bytes) :
    cJSON_Parse lib (before.1 ++ t.text ++ after.1 ++ 0 :: memory) =
      parsedUpTo (after.1 ++ 0 :: memory) (t.read lib) := by
  have hrest : Ends (after.1 ++ 0 :: memory) :=
    ends_append after List.mem_cons_self (by decide)
  have hfuel : 2 * t.text.length ≤ 2 * (t.text ++ (after.1 ++ 0 :: memory)).length + 1 := by
    rw [List.length_append]
    omega
  rw [List.append_assoc, List.append_assoc, cJSON_Parse, skip_text, Parsed.andThen,
    parse_value_text lib t _ hfuel hrest]

end CJson

end SignalEventLoop

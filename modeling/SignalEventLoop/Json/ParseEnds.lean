/-
# The parser on any text

Whatever is in memory, `cJSON_Parse` comes to an end, and the pointers that it gives back lie in
the text: the one behind an item, and `ep` when it fails.  Each part of the parser is described by
how far it moves the pointer at least; two calls inside each other move it by one.
-/
import SignalEventLoop.Json.CJson

namespace SignalEventLoop

open Lib

namespace CJson

variable {α β D : Type}

/-- The pointers that come back lie in `s`, and the one behind an item has moved by `n`; the model
has not been stopped. -/
def Within (s : Bytes) (n : ℕ) : Parsed α → Prop
  | .item _ rest => rest <:+ s ∧ rest.length + n ≤ s.length
  | .failed ep => ep <:+ s
  | .fault f => f ≠ .fuel

variable {s t : Bytes} {n m : ℕ} {x : Parsed α}

lemma Within.andThen {f : α → Bytes → Parsed β} (hx : Within s n x)
    (hf : ∀ a rest, rest <:+ s → rest.length + n ≤ s.length → Within rest m (f a rest)) :
    Within s (n + m) (x.andThen f) := by
  cases x with
  | item a rest =>
    obtain ⟨hsuffix, hlen⟩ := hx
    have hrest := hf a rest hsuffix hlen
    rw [Parsed.andThen]
    cases hres : f a rest with
    | item b rest' =>
      rw [hres] at hrest
      exact ⟨hrest.1.trans hsuffix, by have := hrest.2; omega⟩
    | failed ep =>
      rw [hres] at hrest
      exact hrest.trans hsuffix
    | fault e =>
      rw [hres] at hrest
      exact hrest
  | failed ep => exact hx
  | fault e => exact hx

lemma Within.map {f : α → β} (hx : Within s n x) : Within s n (x.map f) :=
  hx.andThen (m := 0) fun _ _ _ _ => ⟨List.suffix_rfl, le_refl _⟩

/-- From a later pointer, and with less to move. -/
lemma Within.mono (hx : Within t n x) (hsuffix : t <:+ s) (hlen : t.length + m ≤ s.length + n) :
    Within s m x := by
  cases x with
  | item a rest => exact ⟨hx.1.trans hsuffix, by have := hx.2; omega⟩
  | failed ep => exact hx.trans hsuffix
  | fault e => exact hx

lemma within_item (a : α) (ht : t <:+ s) (hlen : t.length + n ≤ s.length) :
    Within s n (.item a t) := ⟨ht, hlen⟩

lemma within_look {k : UInt8 → Parsed α} (h : ∀ c r, t = c :: r → Within s n (k c)) :
    Within s n (look t k) := by
  cases t with
  | nil => exact Fault.noConfusion
  | cons c r => exact h c r rfl

lemma startsWith_within {k : Bool → Parsed α} {w : Bytes} (h : ∀ b, Within s n (k b)) :
    ∀ r : Bytes, Within s n (startsWith w r k) := by
  induction w with
  | nil => exact fun r => h true
  | cons c w ih =>
    intro r
    rw [startsWith]
    cases r with
    | nil => exact Fault.noConfusion
    | cons d r =>
      rw [look]
      split_ifs
      · exact ih _
      · exact h false

lemma skip_within : ∀ s : Bytes, Within s 0 (skip s)
  | [] => Fault.noConfusion
  | c :: s => by
    rw [skip]
    split_ifs
    · exact (skip_within s).mono (List.suffix_cons c s) (by simp)
    · exact within_item _ List.suffix_rfl (le_refl _)

/-! ## Numbers -/

lemma digitRun_within : ∀ s : Bytes, Within s 0 (digitRun s)
  | [] => Fault.noConfusion
  | c :: s => by
    rw [digitRun]
    split_ifs
    · exact (digitRun_within s).map.mono (List.suffix_cons c s) (by simp)
    · exact within_item _ List.suffix_rfl (le_refl _)

lemma digitRun_within_cons {c : UInt8} (hc : isDecimalDigit c = true) (s : Bytes) :
    Within (c :: s) 1 (digitRun (c :: s)) := by
  rw [digitRun, if_pos hc]
  exact (digitRun_within s).map.mono (List.suffix_cons c s) (by simp)

/-- Digits, if the first character is one that they may begin with. -/
lemma within_digits (p : UInt8 → Prop) [DecidablePred p] (s : Bytes) :
    Within s 0 (look s fun c => if p c then digitRun s else .item [] s) := by
  refine within_look fun c r _ => ?_
  split_ifs
  · exact digitRun_within s
  · exact within_item _ List.suffix_rfl (le_refl _)

lemma wholePart_within (s : Bytes) : Within s 0 (wholePart s) := by
  refine within_look fun c r hs => ?_
  have hnum : (if c = 48 then s.tail else s) <:+ s := by
    split_ifs
    · exact List.tail_suffix s
    · exact List.suffix_rfl
  exact (within_digits (fun c => 49 ≤ c ∧ c ≤ 57) _).mono hnum hnum.length_le

/-- A first digit is passed. -/
lemma wholePart_within_cons {c : UInt8} (hc : isDecimalDigit c = true) (s : Bytes) :
    Within (c :: s) 1 (wholePart (c :: s)) := by
  rw [wholePart, look]
  by_cases hzero : c = 48
  · simp only [if_pos hzero, List.tail_cons]
    exact (within_digits (fun c => 49 ≤ c ∧ c ≤ 57) s).mono (List.suffix_cons c s) (by simp)
  · have hrange : 49 ≤ c ∧ c ≤ 57 := by
      rw [isDecimalDigit_iff] at hc
      rw [UInt8.le_iff_toNat_le, UInt8.le_iff_toNat_le]
      have : c.toNat ≠ 48 := fun h => hzero (UInt8.toNat_inj.mp h)
      simp only [UInt8.reduceToNat]
      omega
    simp only [if_neg hzero, look, if_pos hrange]
    exact digitRun_within_cons hc s

lemma fraction_within (s : Bytes) : Within s 0 (fraction s) := by
  refine within_look fun c r hs => ?_
  split_ifs
  · refine within_look fun d r' _ => ?_
    split_ifs
    · exact (digitRun_within _).mono (List.tail_suffix s) s.tail_suffix.length_le
    · exact within_item _ List.suffix_rfl (le_refl _)
  · exact within_item _ List.suffix_rfl (le_refl _)

lemma exponent_within (s : Bytes) : Within s 0 (exponent s) := by
  refine within_look fun c r hs => ?_
  split_ifs
  · refine within_look fun d r' _ => ?_
    have hnum : (if d = 43 ∨ d = 45 then s.tail.tail else s.tail) <:+ s := by
      split_ifs
      · exact (List.tail_suffix _).trans (List.tail_suffix s)
      · exact List.tail_suffix s
    refine Within.mono (Within.andThen (m := 0) (digitRun_within _) fun digits rest _ _ => ?_) hnum
      (by simpa using hnum.length_le)
    split_ifs
    · exact Fault.noConfusion
    · exact within_item _ List.suffix_rfl (le_refl _)
    · exact within_item _ List.suffix_rfl (le_refl _)
  · exact within_item _ List.suffix_rfl (le_refl _)

lemma parse_number_within (lib : Doubles D) {c : UInt8} (hc : c = 45 ∨ isDecimalDigit c = true)
    (s : Bytes) : Within (c :: s) 1 (parse_number lib (c :: s)) := by
  have hwhole : Within (c :: s) 1 (wholePart (if c = 45 then s else c :: s)) := by
    by_cases hminus : c = 45
    · rw [if_pos hminus]
      exact (wholePart_within s).mono (List.suffix_cons c s) (by simp)
    · rw [if_neg hminus]
      exact wholePart_within_cons (hc.resolve_left hminus) s
  rw [parse_number, look]
  refine hwhole.andThen (m := 0) fun whole num _ _ => ?_
  refine (fraction_within num).andThen (m := 0) fun decimals num _ _ => ?_
  refine (exponent_within num).andThen (m := 0) fun subscale num _ _ => ?_
  split_ifs
  · exact Fault.noConfusion
  · exact within_item _ List.suffix_rfl (le_refl _)
  · exact within_item _ List.suffix_rfl (le_refl _)
  · exact within_item _ List.suffix_rfl (le_refl _)

/-! ## Strings -/

lemma scanCode_ne_fuel (code : Option UInt32) (s : Bytes) : scanCode code s ≠ .error .fuel := by
  rw [scanCode]
  split_ifs
  · cases scanHex 4 (cString s) with
    | some r => exact fun h => nomatch h
    | none => cases code <;> exact fun h => nomatch h
  · exact fun h => nomatch h

/-- The escape and its letter are passed. -/
lemma unicodeEscape_within (codes : Codes) (c : UInt8) (s : Bytes) :
    Within (c :: s) 1 (unicodeEscape codes (c :: s)) := by
  have hdrop : ∀ k, 1 ≤ k → (List.drop k (c :: s)) <:+ c :: s ∧
      (List.drop k (c :: s)).length + 1 ≤ (c :: s).length := by
    intro k hk
    refine ⟨List.drop_suffix k _, ?_⟩
    simp only [List.length_drop, List.length_cons]
    omega
  rw [unicodeEscape]
  cases h : scanCode codes.1 ((c :: s).drop 1) with
  | error e =>
    intro he
    subst he
    exact scanCode_ne_fuel _ _ h
  | ok uc =>
    simp only [List.drop_drop]
    split_ifs
    · exact hdrop _ (by norm_num)
    · refine within_look fun a _ _ => ?_
      split_ifs
      · exact hdrop _ (by norm_num)
      refine within_look fun b _ _ => ?_
      split_ifs
      · exact hdrop _ (by norm_num)
      cases h' : scanCode codes.2 (List.drop (4 + 3) (c :: s)) with
      | error e =>
        intro he
        subst he
        exact scanCode_ne_fuel _ _ h'
      | ok uc2 =>
        simp only
        split_ifs
        · exact hdrop _ (by norm_num)
        · exact hdrop _ (by norm_num)
    · exact hdrop _ (by norm_num)

lemma unescape_within {fuel : ℕ} (codes : Codes) (s : Bytes) (hfuel : s.length < fuel) :
    Within s 0 (unescape fuel codes s) := by
  induction fuel generalizing codes s with
  | zero => exact absurd hfuel (Nat.not_lt_zero _)
  | succ fuel ih =>
    rw [unescape]
    refine within_look fun c r hs => ?_
    subst hs
    simp only [List.length_cons] at hfuel
    split_ifs
    · exact within_item _ List.suffix_rfl (le_refl _)
    · exact (ih codes r (by omega)).map.mono (List.suffix_cons c r) (by simp)
    · simp only [List.tail_cons]
      refine within_look fun d r' hr => ?_
      subst hr
      simp only [List.length_cons] at hfuel
      split_ifs
      · refine Within.mono (n := 1) (Within.andThen (m := 0) (unicodeEscape_within codes d r')
          fun x rest _ hrest => ?_) (List.suffix_cons c _) (by simp)
        rw [List.length_cons] at hrest
        exact (ih x.2 rest (by omega)).map
      · exact (ih codes r' (by omega)).map.mono
          ((List.suffix_cons d r').trans (List.suffix_cons c _)) (by simp [Nat.add_assoc])

lemma parse_string_within (s : Bytes) : Within s 1 (parse_string s) := by
  refine within_look fun c r hs => ?_
  subst hs
  split_ifs
  · exact List.suffix_rfl
  · simp only [List.tail_cons]
    cases stringLen r with
    | none => exact Fault.noConfusion
    | some len =>
      refine Within.mono (Within.andThen (m := 0)
        (unescape_within (none, none) r (by simp)) fun out ptr _ _ => ?_)
        (List.suffix_cons c r) (by simp)
      split_ifs
      · exact Fault.noConfusion
      · refine within_look fun d r' hr => ?_
        subst hr
        split_ifs
        · exact within_item _ (List.suffix_cons d r') (by simp)
        · exact within_item _ List.suffix_rfl (le_refl _)

/-! ## Values -/

lemma parseList_within {close : UInt8} {make : Items D → Value D}
    {entries : Bytes → Parsed (Items D)} {c : UInt8}
    (h : ∀ t, t <:+ s → Within t 0 (entries t)) :
    Within (c :: s) 1 (parseList close make entries (c :: s)) := by
  refine Within.mono (Within.andThen (m := 0) (skip_within s) fun _ value hvalue _ => ?_)
    (List.suffix_cons c s) (by simp)
  refine within_look fun d r hd => ?_
  split_ifs
  · subst hd
    exact within_item _ (List.suffix_cons d r) (by simp)
  · exact (h value hvalue).map

/-- Two calls inside each other move the pointer by one. -/
lemma parser_within (lib : Doubles D) (fuel : ℕ) :
    (∀ s : Bytes, 2 * s.length < fuel → Within s 1 (parse_value lib fuel s)) ∧
    (∀ s : Bytes, 2 * s.length + 1 < fuel → Within s 0 (parse_items lib fuel s)) ∧
    (∀ s : Bytes, 2 * s.length + 1 < fuel → Within s 0 (parse_members lib fuel s)) := by
  induction fuel with
  | zero => exact ⟨fun s h => absurd h (by omega), fun s h => absurd h (by omega),
      fun s h => absurd h (by omega)⟩
  | succ fuel ih =>
    obtain ⟨hvalue, hitems, hmembers⟩ := ih
    refine ⟨fun s hfuel => ?_, fun s hfuel => ?_, fun s hfuel => ?_⟩
    · cases s with
      | nil => exact Fault.noConfusion
      | cons c s =>
        simp only [List.length_cons] at hfuel
        have hword : ∀ k v,
            Within (c :: s) 1 (.item v ((c :: s).drop (k + 1)) : Parsed (Value D)) :=
          fun k v => within_item v (List.drop_suffix _ _) (by simp)
        have hentries : ∀ t, t <:+ s → 2 * t.length + 1 < fuel := fun t ht => by
          have := ht.length_le
          omega
        rw [parse_value]
        refine startsWith_within (fun isNull => ?_) _
        split_ifs
        · exact hword 3 _
        refine startsWith_within (fun isFalse => ?_) _
        split_ifs
        · exact hword 4 _
        refine startsWith_within (fun isTrue => ?_) _
        split_ifs
        · exact hword 3 _
        rw [look]
        split_ifs with hquote hnumber
        · exact (parse_string_within _).map
        · exact parse_number_within lib hnumber s
        · exact parseList_within fun t ht => hitems t (hentries t ht)
        · exact parseList_within fun t ht => hmembers t (hentries t ht)
        · exact List.suffix_rfl
    · rw [parse_items]
      refine (skip_within s).andThen (m := 0) fun _ v hv hvlen => ?_
      refine Within.mono (Within.andThen (m := 0) (hvalue v (by omega))
        fun child w hw hwlen => ?_) List.suffix_rfl (by simp)
      refine (skip_within w).andThen (m := 0) fun _ u hu hulen => ?_
      refine within_look fun c r hr => ?_
      subst hr
      simp only [List.length_cons] at hulen
      split_ifs
      · exact (hitems r (by omega)).map.mono (List.suffix_cons c r) (by simp)
      · exact within_item _ (List.suffix_cons c r) (by simp)
      · exact List.suffix_rfl
    · rw [parse_members]
      refine (skip_within s).andThen (m := 0) fun _ v hv hvlen => ?_
      refine Within.mono (Within.andThen (m := 0) (parse_string_within v)
        fun string w hw hwlen => ?_) List.suffix_rfl (by simp)
      refine (skip_within w).andThen (m := 0) fun _ u hu hulen => ?_
      refine within_look fun c r hr => ?_
      subst hr
      simp only [List.length_cons] at hulen
      split_ifs
      · exact List.suffix_rfl
      refine Within.mono (Within.andThen (m := 0) (skip_within r)
        fun _ v' hv' hvlen' => ?_) (List.suffix_cons c r) (by simp)
      refine Within.mono (Within.andThen (m := 0) (hvalue v' (by omega))
        fun child w' hw' hwlen' => ?_) List.suffix_rfl (by simp)
      refine (skip_within w').andThen (m := 0) fun _ u' hu' hulen' => ?_
      refine within_look fun d r' hr' => ?_
      subst hr'
      simp only [List.length_cons] at hulen'
      split_ifs
      · exact (hmembers r' (by omega)).map.mono (List.suffix_cons d r') (by simp)
      · exact within_item _ (List.suffix_cons d r') (by simp)
      · exact List.suffix_rfl

/-- **The parser comes to an end on every text**, and what it points to lies in it: an item takes
at least one character, and otherwise `ep` is in the text or a step was not defined; the number of
calls inside each other is never the reason to stop. -/
theorem cJSON_Parse_within (lib : Doubles D) (s : Bytes) : Within s 1 (cJSON_Parse lib s) := by
  refine (skip_within s).andThen (m := 1) fun _ value _ _ => ?_
  exact (parser_within lib _).1 value (by omega)

end CJson

end SignalEventLoop

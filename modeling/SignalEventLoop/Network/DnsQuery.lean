/-
# The query that is sent

`Package_Sendbuf` (`imp/dns-solver.cpp`) writes the characters of a name where they will stand,
and the number of a label in front of it when the label has ended.  The name becomes its labels
with their lengths, and `parseNAME` reads it back.  The text itself is copied to an array of
thirty bytes in `DNSInfo`: a longer one leaves it.
-/
import SignalEventLoop.Network.DnsName

namespace SignalEventLoop

open Lib Lib.Dns

namespace DnsSolver

variable {labels : List Bytes} {l : Bytes}

/-! ## Labels -/

lemma packLoop_append (hne : l ≠ []) (hl : 46 ∉ l) (rest : Bytes) (i j Position : ℕ)
    (buffer : Bytes) :
    packLoop (l ++ rest) i j Position buffer = (store buffer (12 + i + 1) l).bind fun buffer =>
      packLoop rest (i + l.length) (j + l.length) Position buffer := by
  induction l generalizing i j buffer with
  | nil => exact absurd rfl hne
  | cons c l ih =>
    rw [List.mem_cons, not_or] at hl
    rw [List.cons_append, packLoop, if_neg (Ne.symm hl.1)]
    cases l with
    | nil => rfl
    | cons c' l =>
      have hcons : c :: c' :: l = [c] ++ c' :: l := rfl
      rw [hcons, store_append, Option.bind_assoc]
      refine Option.bind_congr fun buffer _ => ?_
      rw [ih (by simp) hl.2, List.length_append, List.length_singleton, Nat.add_assoc i,
        Nat.add_assoc j]
      rfl

/-- A label is written with its number when its dot comes. -/
lemma packLoop_label (hl : 46 ∉ l) (rest : Bytes) (i : ℕ) (buffer : Bytes) :
    packLoop (l ++ 46 :: rest) i 0 (12 + i) buffer =
      (store buffer (12 + i) (encodeLabel l)).bind fun buffer =>
        packLoop rest (i + l.length + 1) 0 (12 + (i + l.length + 1)) buffer := by
  rcases eq_or_ne l [] with rfl | hne
  · rfl
  · have hlabel : encodeLabel l = [UInt8.ofNat l.length] ++ l := rfl
    rw [packLoop_append hne hl, hlabel, store_append', List.length_singleton, Option.bind_assoc]
    refine Option.bind_congr fun buffer _ => ?_
    rw [packLoop, if_pos rfl, Nat.zero_add, Nat.add_assoc 12, Nat.add_assoc 12]

/-- The last one is written behind the loop. -/
lemma packName_label (hl : 46 ∉ l) (i : ℕ) (buffer : Bytes) :
    packName l i buffer = (store buffer (12 + i) (encodeLabel l)).map fun buffer =>
      (12 + i + l.length + 1, buffer) := by
  rcases eq_or_ne l [] with rfl | hne
  · rfl
  · have hlabel : encodeLabel l = [UInt8.ofNat l.length] ++ l := rfl
    have hloop := packLoop_append hne hl [] i 0 (12 + i) buffer
    rw [List.append_nil] at hloop
    rw [packName, hloop, hlabel, store_append', List.length_singleton, Option.bind_assoc,
      Option.map_bind]
    refine Option.bind_congr fun buffer _ => ?_
    rw [packLoop, Option.bind_some, Nat.zero_add]
    rfl

/-- A name is written as its labels with their numbers. -/
lemma packName_intercalate (hne : labels ≠ []) (hlabels : ∀ l ∈ labels, 46 ∉ l) (i : ℕ)
    (buffer : Bytes) :
    packName (([46] : Bytes).intercalate labels) i buffer =
      (store buffer (12 + i) (encodeLabels labels)).map fun buffer =>
        (12 + i + (dotted labels).length, buffer) := by
  induction labels generalizing i buffer with
  | nil => exact absurd rfl hne
  | cons l labels ih =>
    obtain ⟨hl, hlabels⟩ := List.forall_mem_cons.mp hlabels
    cases labels with
    | nil =>
      rw [List.intercalate_singleton, packName_label hl]
      simp [encodeLabels, Nat.add_assoc]
    | cons l' labels =>
      -- the loop writes the first label with its dot, and goes on behind it
      have hsplit : encodeLabels (l :: l' :: labels) =
          encodeLabel l ++ encodeLabels (l' :: labels) := rfl
      rw [List.intercalate_cons_cons, packName, List.append_assoc, List.singleton_append,
        packLoop_label hl, hsplit, store_append, Option.bind_assoc, Option.map_bind]
      refine Option.bind_congr fun buffer _ => ?_
      have ih := ih (by simp) hlabels (i + l.length + 1) buffer
      have hlength : (encodeLabel l).length = l.length + 1 := rfl
      have hend : 12 + (i + l.length + 1) + (dotted (l' :: labels)).length =
          12 + i + (dotted (l :: l' :: labels)).length := by
        rw [dotted_cons l, List.length_append, List.length_cons]
        omega
      rw [packName, hend] at ih
      rw [ih, hlength, Nat.add_assoc, Nat.add_assoc, Nat.add_assoc]
      rfl

/-! ## The whole query -/

variable {rand Position : ℕ} {Domain buffer buffer' : Bytes} {dns : DNSInfo}

/-- The query for the text of some labels. -/
def query (rand : ℕ) (labels : List Bytes) : Bytes :=
  queryHeader (UInt16.ofNat rand) ++ (encodeLabels labels ++ [0, 0, 1, 0, 1])

@[simp] lemma length_queryHeader (randid : UInt16) : (queryHeader randid).length = 12 := by
  simp [queryHeader, memoryBytes]

@[simp] lemma length_query (rand : ℕ) (labels : List Bytes) :
    (query rand labels).length = (dotted labels).length + 17 := by
  simp [query, length_encodeLabels]
  omega

/-- The text is copied, and the query is written from the front of the buffer on. -/
theorem Package_Sendbuf_eq (hne : labels ≠ []) (hlabels : ∀ l ∈ labels, 46 ∉ l)
    (htext : cString Domain = ([46] : Bytes).intercalate labels) (rand : ℕ) (dns : DNSInfo)
    (buffer : Bytes) :
    Package_Sendbuf rand Domain dns buffer =
      (store dns.Domain 0 (cString Domain ++ [0])).bind fun copied =>
        (store buffer 0 (query rand labels)).map fun buffer =>
          ((cString Domain).length + 18, ⟨copied, (cString Domain).length, UInt16.ofNat rand⟩,
            buffer) := by
  have hlength := length_dotted hne
  rw [← htext] at hlength
  rw [Package_Sendbuf]
  refine Option.bind_congr fun copied _ => ?_
  dsimp only
  -- the header, the labels and the end are stored one behind the other
  rw [query, store_append, Option.map_bind]
  refine Option.bind_congr fun buffer _ => ?_
  rw [Function.comp_apply, htext, packName_intercalate hne hlabels, length_queryHeader,
    Option.bind_map, store_append, Option.map_bind]
  refine Option.bind_congr fun buffer _ => ?_
  rw [Function.comp_apply, Function.comp_apply, length_encodeLabels]
  have hend : 12 + 0 + (dotted labels).length + 5 = (cString Domain).length + 18 := by omega
  rw [← htext, ← hend, Nat.zero_add]

/-- Only the copy of the text may leave its block. -/
lemma exists_Package_Sendbuf (hbuffer : buffer.length = SEND_SIZE)
    (hlen : (cString Domain).length < DOMAIN_SIZE) (hne : labels ≠ [])
    (hlabels : ∀ l ∈ labels, 46 ∉ l) (htext : cString Domain = ([46] : Bytes).intercalate labels)
    (rand : ℕ) :
    ∃ copied buffer', store buffer 0 (query rand labels) = some buffer' ∧
      Package_Sendbuf rand Domain DNSInfo.new buffer = some ((cString Domain).length + 18,
        ⟨copied, (cString Domain).length, UInt16.ofNat rand⟩, buffer') := by
  obtain ⟨copied, hcopied⟩ : ∃ copied, store DNSInfo.new.Domain 0 (cString Domain ++ [0]) =
      some copied := by
    refine exists_store_replicate.mpr ?_
    rwa [List.length_append, List.length_singleton]
  have hroom : 0 + (query rand labels).length ≤ buffer.length := by
    rw [length_query, length_dotted hne, ← htext, hbuffer, SEND_SIZE]
    rw [DOMAIN_SIZE] at hlen
    omega
  obtain ⟨buffer', hstore⟩ := exists_store hroom
  refine ⟨copied, buffer', hstore, ?_⟩
  rw [Package_Sendbuf_eq hne hlabels htext, hcopied, Option.bind_some, hstore]
  rfl

lemma length_lt_of_Package_Sendbuf
    (h : Package_Sendbuf rand Domain DNSInfo.new buffer = some (Position, dns, buffer')) :
    (cString Domain).length < DOMAIN_SIZE := by
  obtain ⟨copied, hcopied, -⟩ := Option.bind_eq_some_iff.mp h
  have hroom := exists_store_replicate.mp ⟨copied, hcopied⟩
  rwa [List.length_append, List.length_singleton] at hroom

/-! ## What is read back -/

/-- A name of at most 253 characters is read from a message with one dot more. -/
theorem parseNAME_encode (name : DomainName) {pos : ℕ} {rest : Bytes}
    (hdrop : buffer.drop pos = name.encode ++ rest) :
    ∃ Domain, parseNAME buffer pos (List.replicate NAME_SIZE 0) =
      some (name.encode.length + 4, Domain) ∧ cString Domain = name.text ++ [46] := by
  obtain ⟨first, labels, hlabels⟩ := List.exists_cons_of_ne_nil name.ne_nil
  have hlabel (l : Bytes) (hl : l ∈ first :: labels) : l ≠ [] ∧ l.length ≤ 255 := by
    have hl := name.isLabel l (hlabels ▸ hl)
    exact ⟨hl.ne_nil, hl.length_le.trans (by decide)⟩
  have hname : BeginsWithName first labels (buffer.drop pos) := by
    refine ⟨(hlabel first List.mem_cons_self).2,
      fun l hl => hlabel l (List.mem_cons_of_mem first hl), rest, ?_⟩
    rw [hdrop, DomainName.encode, hlabels, List.append_assoc]
    rfl
  have hdotted : dotted (first :: labels) = name.text ++ [46] := by
    rw [name.text_append_dot, hlabels]
  have hle : name.text.length ≤ 253 := name.length_le
  obtain ⟨Domain, hstore⟩ : ∃ Domain, store (List.replicate NAME_SIZE 0) 0 (name.text ++ [46]) =
      some Domain := by
    refine exists_store_replicate.mpr ?_
    rw [List.length_append, List.length_singleton, NAME_SIZE]
    omega
  refine ⟨Domain, parseNAME_eq_some.mpr ⟨first, labels, hname, ?_, hdotted ▸ hstore⟩, ?_⟩
  · rw [hdotted, name.length_encode, List.length_append, List.length_singleton]
  · obtain ⟨-, rfl⟩ := store_eq_some.mp hstore
    have hzeros : NAME_SIZE - (0 + (name.text ++ [46]).length) = 254 - name.text.length + 1 := by
      rw [List.length_append, List.length_singleton, NAME_SIZE]
      omega
    have hnonzero (c : UInt8) (hc : c ∈ name.text ++ [46]) : c ≠ 0 := by
      rcases List.mem_append.mp hc with hc | hc
      · exact name.ne_zero_of_mem_text hc
      · rw [List.mem_singleton.mp hc]
        decide
    rw [List.take_zero, List.nil_append, List.drop_replicate, hzeros, List.replicate_succ,
      cString_append hnonzero]
    simp [cString]

/-- The query for a name holds it behind the header, and it is read back from there with one dot
more, up to the end of the query. -/
def QueryHoldsName (name : DomainName) (rand : ℕ) (buffer : Bytes) : Prop :=
  ∃ dns buffer' Domain,
    Package_Sendbuf rand name.text DNSInfo.new buffer =
      some (12 + (name.encode.length + 4), dns, buffer') ∧
    slice buffer' 12 name.encode.length = name.encode ∧
    parseNAME buffer' 12 (List.replicate NAME_SIZE 0) = some (name.encode.length + 4, Domain) ∧
    cString Domain = name.text ++ [46]

/-- **The query**: the names of less than thirty characters are written and read back. -/
theorem queryHoldsName_iff (name : DomainName) (rand : ℕ) (buffer : List.Vector UInt8 SEND_SIZE) :
    QueryHoldsName name rand buffer.toList ↔ name.text.length < DOMAIN_SIZE := by
  have htext : cString name.text = name.text := cString_eq_self fun c => name.ne_zero_of_mem_text
  constructor
  · rintro ⟨dns, buffer', Domain, hpackage, -⟩
    have hlen := length_lt_of_Package_Sendbuf hpackage
    rwa [htext] at hlen
  · intro hlen
    obtain ⟨copied, buffer', hstore, hpackage⟩ := exists_Package_Sendbuf buffer.toList_length
      (htext.symm ▸ hlen) name.ne_nil (fun l hl => (name.isLabel l hl).dot_notMem) htext rand
    have hquery : query rand name.labels = queryHeader (UInt16.ofNat rand) ++ name.encode ++
        [0, 1, 0, 1] := by
      simp [query, DomainName.encode]
    obtain ⟨-, hbuffer⟩ := store_eq_some.mp hstore
    generalize List.drop _ buffer.toList = rest at hbuffer
    have hdrop : buffer'.drop 12 = name.encode ++ ([0, 1, 0, 1] ++ rest) := by
      rw [hbuffer, List.take_zero, List.nil_append, hquery, List.append_assoc, List.append_assoc]
      exact List.drop_left' (length_queryHeader _)
    obtain ⟨Domain, hparse, hDomain⟩ := parseNAME_encode name hdrop
    have hPosition : 12 + (name.encode.length + 4) = (cString name.text).length + 18 := by
      rw [htext, name.length_encode]
      omega
    refine ⟨_, buffer', Domain, hPosition ▸ hpackage, ?_, hparse, hDomain⟩
    rw [slice, hdrop, List.take_left]

/-- A name of one label. -/
def thirtyLetters : DomainName where
  labels := [List.replicate 30 97]
  ne_nil := by simp
  isLabel := by
    intro l hl
    rw [List.mem_singleton] at hl
    subst hl
    exact ⟨by decide, by decide, by decide, by decide⟩
  length_le := by decide

/-- Its end is written behind the array. -/
theorem not_queryHoldsName_thirtyLetters :
    ¬QueryHoldsName thirtyLetters 0 (List.replicate SEND_SIZE 0) := by
  rintro ⟨dns, buffer', Domain, hpackage, -⟩
  have hnone : Package_Sendbuf 0 thirtyLetters.text DNSInfo.new (List.replicate SEND_SIZE 0) =
      none := by decide
  rw [hnone] at hpackage
  cases hpackage

end DnsSolver

end SignalEventLoop

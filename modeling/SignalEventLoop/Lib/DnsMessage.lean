/-
# Messages of the domain name system

A domain name is a list of labels.  As a text it has dots between them; in a message every label
has its length in front of it, and a zero stands behind the last one.  A name may also end with a
pointer to a name that stands elsewhere in the message.

A message has a header with four numbers, the questions and then three sections of records, the
first of which has the answers.
-/
import SignalEventLoop.Lib.BigEndian
import SignalEventLoop.Lib.ByteMem
import SignalEventLoop.Lib.CText

namespace SignalEventLoop.Lib.Dns

variable {labels : List Bytes} {l : Bytes}

/-! ## Labels -/

/-- A label with its length. -/
def encodeLabel (l : Bytes) : Bytes := UInt8.ofNat l.length :: l

def encodeLabels (labels : List Bytes) : Bytes := labels.flatMap encodeLabel

/-- The text of the labels, with a dot behind each of them. -/
def dotted (labels : List Bytes) : Bytes := labels.flatMap (· ++ [46])

@[simp] lemma encodeLabels_nil : encodeLabels [] = [] := rfl

@[simp] lemma encodeLabels_cons (l : Bytes) (labels : List Bytes) :
    encodeLabels (l :: labels) = UInt8.ofNat l.length :: (l ++ encodeLabels labels) := rfl

@[simp] lemma dotted_nil : dotted [] = [] := rfl

@[simp] lemma dotted_cons (l : Bytes) (labels : List Bytes) :
    dotted (l :: labels) = l ++ 46 :: dotted labels := by
  simp [dotted]

/-- A length takes the place of a dot. -/
lemma length_encodeLabels (labels : List Bytes) :
    (encodeLabels labels).length = (dotted labels).length := by
  induction labels with
  | nil => rfl
  | cons l labels ih =>
    simp only [encodeLabels_cons, dotted_cons, List.length_cons, List.length_append, ih]
    omega

/-- The text of a name is that of its labels without the last dot. -/
lemma intercalate_append_dot (hne : labels ≠ []) :
    ([46] : Bytes).intercalate labels ++ [46] = dotted labels := by
  induction labels with
  | nil => exact absurd rfl hne
  | cons l labels ih =>
    cases labels with
    | nil => simp
    | cons l' labels =>
      rw [List.intercalate_cons_cons, dotted_cons, ← ih (by simp)]
      simp

lemma length_dotted (hne : labels ≠ []) :
    (dotted labels).length = (([46] : Bytes).intercalate labels).length + 1 := by
  rw [← intercalate_append_dot hne, List.length_append]
  rfl

/-- Every text is that of some labels without dots. -/
lemma exists_labels (text : Bytes) :
    ∃ labels : List Bytes, labels ≠ [] ∧ (∀ l ∈ labels, 46 ∉ l) ∧
      ([46] : Bytes).intercalate labels = text := by
  induction text with
  | nil => exact ⟨[[]], by simp, by simp, rfl⟩
  | cons c text ih =>
    obtain ⟨labels, hne, hlabels, rfl⟩ := ih
    obtain ⟨l, labels, rfl⟩ := List.exists_cons_of_ne_nil hne
    obtain ⟨hl, htail⟩ := List.forall_mem_cons.mp hlabels
    by_cases hdot : c = 46
    · refine ⟨[] :: l :: labels, by simp, List.forall_mem_cons.mpr ⟨by simp, hlabels⟩, ?_⟩
      simp [hdot]
    · refine ⟨(c :: l) :: labels, by simp, List.forall_mem_cons.mpr ⟨?_, htail⟩, ?_⟩
      · exact fun hmem => (List.mem_cons.mp hmem).elim (fun h => hdot h.symm) hl
      · cases labels with
        | nil => simp
        | cons l' labels => simp

/-! ## Domain names -/

/-- A label of a name. -/
structure IsLabel (l : Bytes) : Prop where
  ne_nil : l ≠ []
  length_le : l.length ≤ 63
  dot_notMem : 46 ∉ l
  nul_notMem : 0 ∉ l

/-- A domain name of at most 253 characters. -/
structure DomainName where
  labels : List Bytes
  ne_nil : labels ≠ []
  isLabel : ∀ l ∈ labels, IsLabel l
  length_le : (([46] : Bytes).intercalate labels).length ≤ 253

namespace DomainName

variable (name : DomainName)

/-- The text of the name. -/
def text : Bytes := ([46] : Bytes).intercalate name.labels

/-- The name in a message. -/
def encode : Bytes := encodeLabels name.labels ++ [0]

lemma text_append_dot : name.text ++ [46] = dotted name.labels :=
  intercalate_append_dot name.ne_nil

lemma length_dotted : (dotted name.labels).length = name.text.length + 1 :=
  Dns.length_dotted name.ne_nil

@[simp] lemma length_encode : name.encode.length = name.text.length + 2 := by
  rw [encode, List.length_append, length_encodeLabels, length_dotted]
  rfl

/-- There is no NUL in the text. -/
lemma ne_zero_of_mem_text {c : UInt8} (hc : c ∈ name.text) : c ≠ 0 := by
  rintro rfl
  have hmem : (0 : UInt8) ∈ dotted name.labels := by
    rw [← name.text_append_dot]
    exact List.mem_append_left _ hc
  obtain ⟨l, hl, hzero⟩ := List.mem_flatMap.mp hmem
  rcases List.mem_append.mp hzero with hzero | hzero
  · exact (name.isLabel l hl).nul_notMem hzero
  · simp at hzero

end DomainName

/-! ## Messages -/

/-- A name in a message: labels, and then the root or a pointer. -/
inductive IsName : Bytes → Prop
  | root : IsName [0]
  | pointer {a b : UInt8} (ha : 192 ≤ a) : IsName [a, b]
  | label {l w : Bytes} (hne : l ≠ []) (hlen : l.length ≤ 63) (hw : IsName w) :
      IsName (encodeLabel l ++ w)

/-- An entry of the question section. -/
structure Question where
  name : Bytes
  type : UInt16
  cls : UInt16
  isName : IsName name

def Question.bytes (q : Question) : Bytes :=
  q.name ++ toBE 2 q.type.toNat ++ toBE 2 q.cls.toNat

/-- An entry of one of the other sections. -/
structure Record where
  name : Bytes
  type : UInt16
  cls : UInt16
  ttl : UInt32
  rdata : Bytes
  isName : IsName name
  length_rdata : rdata.length < 2 ^ 16

namespace Record

def bytes (r : Record) : Bytes :=
  r.name ++ toBE 2 r.type.toNat ++ toBE 2 r.cls.toNat ++ toBE 4 r.ttl.toNat ++
    toBE 2 r.rdata.length ++ r.rdata

/-- The record of an address: type 1 and length 4. -/
def IsAddress (r : Record) : Prop := r.type = 1 ∧ r.rdata.length = 4

end Record

/-- The record is one of those that the header counts as answers. -/
def InAnswers (message : Bytes) (r : Record) : Prop :=
  ∃ (header : Bytes) (questions : List Question) (before : List Record) (rest : Bytes),
    header.length = 12 ∧ questions.length = ofBE (slice header 4 2) ∧
    before.length < ofBE (slice header 6 2) ∧
    message = header ++ questions.flatMap Question.bytes ++ before.flatMap Record.bytes ++
      r.bytes ++ rest

/-! ## Addresses -/

/-- The text of an address: the numbers of its bytes with dots between them. -/
def addressText (address : Bytes) : Bytes :=
  ([46] : Bytes).intercalate (address.map fun c => decimal c.toNat)

lemma addressText_injective {a b : Bytes} (ha : a ≠ []) (hb : b ≠ [])
    (h : addressText a = addressText b) : a = b := by
  have hdots (address : Bytes) : ∀ w ∈ address.map (fun c => decimal c.toNat), 46 ∉ w := by
    intro w hw
    obtain ⟨c, -, rfl⟩ := List.mem_map.mp hw
    exact notMem_decimal (by decide)
  have hsplit := congrArg (List.splitOn 46) h
  rw [addressText, addressText, List.splitOn_intercalate 46 (hdots a) (by simpa using ha),
    List.splitOn_intercalate 46 (hdots b) (by simpa using hb)] at hsplit
  refine List.map_injective_iff.mpr (fun c d hcd => ?_) hsplit
  exact UInt8.toNat_inj.mp (decimal_injective hcd)

end SignalEventLoop.Lib.Dns

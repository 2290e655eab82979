/-
GvisorTapVsock.Services.DnsTruncate — the length of a DNS message and `Truncate`
(`msg.go`, `msg_truncate.go` and the `len` methods of the vendored DNS library).

A name that has been written before, or a suffix of it that starts at a label,
is replaced by a pointer of two bytes. The library computes lengths with a set
of the suffixes seen so far, which every `len` reads and extends; nil stands for
no compression. So lengths are threaded: each function takes the offset it is
at and the set, and returns its length with the set after it.

Names are in presentation form, a backslash before a byte or three digits.
Lists of characters stand for them; a dot, a backslash and a digit are one byte
each, and the other bytes are only counted (`byteLength`).

`Truncate` takes a message that fits without compression as it is. Otherwise it
turns compression on and keeps the records up to the first that does not fit
(`truncate_keeps_iff`).
-/
import GvisorTapVsock.Services.Dns

namespace GvisorTapVsock.Services.Dns

open GvisorTapVsock.Go

/-- `dns.MinMsgSize`. -/
def minMsgSize : Nat := 512

/-- `dns.MaxMsgSize`. -/
def maxMsgSize : Nat := 65535

/-- `dns.MsgHdr`; the response code is part of `Msg`, and the bits the handler
never sets are left out. -/
structure MsgHdr where
  id : UInt16
  response : Bool
  opcode : Nat
  truncated : Bool
  recursionDesired : Bool
  recursionAvailable : Bool
  checkingDisabled : Bool
  deriving DecidableEq, Repr

/-- A reply. It has neither authority nor additional records, hence no TSIG and
no OPT record of its own. -/
structure Message where
  header : MsgHdr
  compress : Bool
  msg : Msg
  deriving DecidableEq, Repr

/-! ## Names -/

/-- `isDDD(s)`. -/
def isDDD : List Char → Bool
  | a :: b :: c :: _ => a.isDigit && b.isDigit && c.isDigit
  | _ => false

/-- What the escapes of a name take away from its length; `skip` characters
belong to the escape before. -/
def escapes : Nat → List Char → Nat
  | _, [] => 0
  | skip + 1, _ :: s => escapes skip s
  | 0, c :: s =>
      if c = '\\' then if isDDD s then 3 + escapes 3 s else 1 + escapes 1 s
      else escapes 0 s

/-- `escapedNameLen(s)`. -/
def escapedNameLen (s : List Char) : Nat := byteLength s - escapes 0 s

/-- The labels `NextLabel` finds, each with what follows it: the rests behind a
dot that is not escaped and not the last character. `odd` is set behind an odd
number of backslashes. -/
def labelRests : Bool → List Char → List (List Char)
  | _, [] => []
  | odd, c :: s =>
      if c = '.' ∧ odd = false ∧ s ≠ [] then s :: labelRests false s
      else labelRests (c = '\\' && !odd) s

/-- The suffixes seen so far; `none` is the nil map. -/
abbrev Compression := Option (List (List Char))

/-- `maxCompressionOffset`. -/
def maxCompressionOffset : Nat := 2 <<< 13

/-- The loop of `compressionLenSearch`, over the suffixes still to be tried. -/
def searchSuffixes (s : List Char) (msgOff : Nat) :
    List (List Char) → List (List Char) → Option (List Char) × List (List Char)
  | [], seen => (none, seen)
  | suffix :: suffixes, seen =>
      let before := s.take (s.length - suffix.length)
      if suffix ∈ seen then (some before, seen)
      else if msgOff + byteLength before < maxCompressionOffset then
        searchSuffixes s msgOff suffixes (suffix :: seen)
      else searchSuffixes s msgOff suffixes seen

/-- `compressionLenSearch(c, s, msgOff)`: what is left of the name in front of
the first suffix that was seen before, and the set with the others. -/
def compressionLenSearch (seen : List (List Char)) (s : List Char) (msgOff : Nat) :
    Option (List Char) × List (List Char) :=
  searchSuffixes s msgOff (s :: labelRests false s) seen

/-- The length of a text, escaped or not. -/
def textLen (escaped : Bool) (s : List Char) : Nat :=
  if escaped then escapedNameLen s else byteLength s

/-- `domainNameLen(s, off, compression, compress)`. -/
def domainNameLen (name : String) (off : Nat) (compression : Compression) (compress : Bool) :
    Nat × Compression :=
  let s := name.toList
  let escaped := s.contains '\\'
  if s = [] ∨ s = ['.'] then (1, compression)
  else
    match compression with
    | none => (textLen escaped s + 1, none)
    | some seen =>
        if compress || off < maxCompressionOffset then
          match compressionLenSearch seen s off with
          | (some before, seen) =>
              if compress then (textLen escaped before + 2, some seen)
              else (textLen escaped s + 1, some seen)
          | (none, seen) => (textLen escaped s + 1, some seen)
        else (textLen escaped s + 1, some seen)

/-! ## Records and messages -/

/-- `h.len(off, compression)`. -/
def RRHeader.len (hdr : RRHeader) (off : Nat) (compression : Compression) : Nat × Compression :=
  let (l, compression) := domainNameLen hdr.name off compression true
  (l + 10, compression)

/-- `q.len(off, compression)`. -/
def Question.len (q : Question) (off : Nat) (compression : Compression) : Nat × Compression :=
  let (l, compression) := domainNameLen q.name off compression true
  (l + 4, compression)

/-- The strings of a TXT record, each after its length. -/
def txtLen : List String → Nat
  | [] => 0
  | s :: txt => s.utf8ByteSize + 1 + txtLen txt

/-- The length of a record that has `fixed` bytes and then a name behind its
header. -/
def namedLen (hdr : RRHeader) (fixed : Nat) (target : String) (compress : Bool) (off : Nat)
    (compression : Compression) : Nat × Compression :=
  let (l, compression) := hdr.len off compression
  let (t, compression) := domainNameLen target (off + l + fixed) compression compress
  (l + fixed + t, compression)

/-- `rr.len(off, compression)`. The target of an SRV record is not compressed,
but its suffixes are kept. -/
def RR.len (off : Nat) (compression : Compression) : RR → Nat × Compression
  | .a hdr ip =>
      let (l, compression) := hdr.len off compression
      (if ip = [] then l else l + 4, compression)
  | .cname hdr target => namedLen hdr 0 target true off compression
  | .mx hdr host _ => namedLen hdr 2 host true off compression
  | .ns hdr host => namedLen hdr 0 host true off compression
  | .srv hdr _ _ target _ => namedLen hdr 6 target false off compression
  | .txt hdr records =>
      let (l, compression) := hdr.len off compression
      (l + txtLen records, compression)

/-- `headerSize`. -/
def headerSize : Nat := 12

/-- The loop over the questions, from the offset `l`. -/
def questionsLen : List Question → Nat → Compression → Nat × Compression
  | [], l, compression => (l, compression)
  | q :: qs, l, compression =>
      let (n, compression) := q.len l compression
      questionsLen qs (l + n) compression

/-- The loop over the records. -/
def recordsLen : List RR → Nat → Compression → Nat
  | [], l, _ => l
  | rr :: rrs, l, compression =>
      let (n, compression) := rr.len l compression
      recordsLen rrs (l + n) compression

/-- `msgLenWithCompressionMap(dns, compression)`. -/
def msgLenWithCompressionMap (m : Msg) (compression : Compression) : Nat :=
  let (l, compression) := questionsLen m.question headerSize compression
  recordsLen m.answer l compression

/-- The message takes at most `size` bytes, without compression or with it. -/
def Msg.Fits (m : Msg) (size : Nat) : Prop :=
  msgLenWithCompressionMap m none ≤ size ∨ msgLenWithCompressionMap m (some []) ≤ size

instance (m : Msg) (size : Nat) : Decidable (m.Fits size) :=
  inferInstanceAs (Decidable (_ ∨ _))

/-! ## `Truncate` -/

/-- `truncateLoop(rrs, size, l, compression)`: the number of records that stay. -/
def truncateLoop (size : Nat) : List RR → Nat → Compression → Nat
  | [], _, _ => 0
  | rr :: rrs, l, compression =>
      let (n, compression) := rr.len l compression
      if size < l + n then 0
      else if l + n = size then 1
      else truncateLoop size rrs (l + n) compression + 1

/-- The records `Truncate` keeps of a message it compresses. -/
def numAnswer (size : Nat) (m : Msg) : Nat :=
  let (l, compression) := questionsLen m.question headerSize (some [])
  if l < size then truncateLoop size m.answer l compression else 0

/-- `dns.Truncate(size)`. -/
def truncate (size : Nat) (m : Message) : Message :=
  let size := max size minMsgSize
  if msgLenWithCompressionMap m.msg none ≤ size then { m with compress := false }
  else
    { header :=
        { m.header with
          truncated := m.header.truncated || numAnswer size m.msg < m.msg.answer.length }
      compress := true
      msg := { m.msg with answer := m.msg.answer.take (numAnswer size m.msg) } }

/-! ## What is kept -/

theorem domainNameLen_pos (name : String) (off : Nat) (compression : Compression)
    (compress : Bool) : 1 ≤ (domainNameLen name off compression compress).1 := by
  simp only [domainNameLen]
  split
  · exact Nat.le_refl 1
  · split
    · exact Nat.le_add_left ..
    · split
      · split
        · split
          · exact Nat.le_trans (by decide) (Nat.le_add_left 2 _)
          · exact Nat.le_add_left ..
        · exact Nat.le_add_left ..
      · exact Nat.le_add_left ..

/-- Every record has a length. -/
theorem RR.len_pos (off : Nat) (compression : Compression) (rr : RR) :
    1 ≤ (rr.len off compression).1 := by
  have hhdr : ∀ hdr : RRHeader, 1 ≤ (hdr.len off compression).1 := fun hdr =>
    Nat.le_trans (domainNameLen_pos hdr.name off compression true) (Nat.le_add_right _ 10)
  cases rr with
  | a hdr ip =>
    have h := hhdr hdr
    simp only [RR.len]
    split <;> omega
  | cname hdr target | mx hdr target | ns hdr target | srv hdr _ _ target | txt hdr records =>
    have h := hhdr hdr
    simp only [RR.len, namedLen]
    omega

theorem le_recordsLen (rrs : List RR) (l : Nat) (compression : Compression) :
    l + rrs.length ≤ recordsLen rrs l compression := by
  induction rrs generalizing l compression with
  | nil => exact Nat.le_refl l
  | cons rr rrs ih =>
    have hpos := rr.len_pos l compression
    have hrest := ih (l + (rr.len l compression).1) (rr.len l compression).2
    simp only [recordsLen, List.length_cons]
    omega

theorem truncateLoop_le (size : Nat) (rrs : List RR) (l : Nat) (compression : Compression) :
    truncateLoop size rrs l compression ≤ rrs.length := by
  induction rrs generalizing l compression with
  | nil => exact Nat.le_refl 0
  | cons rr rrs ih =>
    have hrest := ih (l + (rr.len l compression).1) (rr.len l compression).2
    simp only [truncateLoop, List.length_cons]
    repeat' split
    all_goals omega

/-- The loop keeps all records exactly if they fit together. -/
theorem truncateLoop_eq_length_iff {size : Nat} (rrs : List RR) {l : Nat}
    (compression : Compression) (hl : l < size) :
    truncateLoop size rrs l compression = rrs.length ↔ recordsLen rrs l compression ≤ size := by
  induction rrs generalizing l compression with
  | nil => simp [truncateLoop, recordsLen, Nat.le_of_lt hl]
  | cons rr rrs ih =>
    have hrest := le_recordsLen rrs (l + (rr.len l compression).1) (rr.len l compression).2
    simp only [truncateLoop, recordsLen, List.length_cons]
    split
    · omega
    · split
      · -- nothing fits behind a record that ends at the limit
        constructor
        · intro hlen
          have hnil : rrs = [] := List.length_eq_zero_iff.mp (by omega)
          rw [hnil, recordsLen]
          omega
        · omega
      · rw [Nat.add_right_cancel_iff]
        exact ih _ (by omega)

theorem numAnswer_le (size : Nat) (m : Msg) : numAnswer size m ≤ m.answer.length := by
  simp only [numAnswer]
  split
  · exact truncateLoop_le ..
  · exact Nat.zero_le _

/-- All records are kept exactly if there are none, or they fit with compression. -/
theorem numAnswer_eq_length_iff (size : Nat) (m : Msg) :
    numAnswer size m = m.answer.length ↔
      m.answer = [] ∨ msgLenWithCompressionMap m (some []) ≤ size := by
  simp only [numAnswer, msgLenWithCompressionMap]
  split
  · next hl =>
    rw [truncateLoop_eq_length_iff _ _ hl]
    constructor
    · exact Or.inr
    · rintro (hnil | hfits)
      · rw [hnil, recordsLen]
        exact Nat.le_of_lt hl
      · exact hfits
  · next hl =>
    have hlen := le_recordsLen m.answer (questionsLen m.question headerSize (some [])).1
      (questionsLen m.question headerSize (some [])).2
    constructor
    · intro hzero
      exact Or.inl (List.length_eq_zero_iff.mp hzero.symm)
    · rintro (hnil | hfits)
      · rw [hnil]
        rfl
      · omega

/-- Every answer is there, and TC is clear. -/
def Message.Intact (written full : Message) : Prop :=
  written.msg.answer = full.msg.answer ∧ written.header.truncated = false

/-- A message that does not fit loses a record at least, and has TC. -/
theorem truncate_exceeds (size : Nat) {m : Message} (hanswer : m.msg.answer ≠ [])
    (hexceeds : ¬ m.msg.Fits (max size minMsgSize)) :
    (truncate size m).header.truncated = true ∧
      ∃ k < m.msg.answer.length, (truncate size m).msg.answer = m.msg.answer.take k := by
  obtain ⟨hplain, hcompressed⟩ := not_or.mp hexceeds
  have hlt : numAnswer (max size minMsgSize) m.msg < m.msg.answer.length := by
    refine Nat.lt_of_le_of_ne (numAnswer_le _ _) fun hall => ?_
    exact ((numAnswer_eq_length_iff _ _).mp hall).elim hanswer hcompressed
  simp only [truncate, hplain, if_false]
  exact ⟨by simp [hlt], _, hlt, rfl⟩

/-- **`Truncate` leaves a message that fits alone**, but for the compression, and
cuts any other and sets TC; without answers there is nothing to cut. -/
theorem truncate_keeps_iff (size : Nat) {m : Message} (hm : m.header.truncated = false) :
    (truncate size m).Intact m ↔
      m.msg.answer = [] ∨ m.msg.Fits (max size minMsgSize) := by
  constructor
  · intro hintact
    by_contra hnot
    obtain ⟨hanswer, hexceeds⟩ := not_or.mp hnot
    have htc := (truncate_exceeds size hanswer hexceeds).1
    rw [hintact.2] at htc
    cases htc
  · intro hkept
    simp only [truncate]
    split
    · exact ⟨rfl, hm⟩
    · next hplain =>
      have hall := (numAnswer_eq_length_iff (max size minMsgSize) m.msg).mpr
        (hkept.imp_right fun hfits => hfits.resolve_left hplain)
      exact ⟨List.take_of_length_le (Nat.le_of_eq hall.symm), by simp [hm, hall]⟩

end GvisorTapVsock.Services.Dns

/-
GvisorTapVsock.Tap.FramingTheorems — what `rxStream` reads is what `txBuf`
writes.

`rxStream_feed` reduces the loop, on a reader fragmented in any way, to the
length-prefix decoder of `Go.LengthPrefix` on the concatenated bytes:
the frames it hands on are `(decodeAll content).1`, in order, up to the
first panic of the receiver. `rxFrames` is the loop with a receiver that
records; the facts of `LengthPrefix` then become facts about the two loops
of the source:

* `rxStream_framing` — every byte string splits uniquely into whole frames,
  spelled as `txBuf` spells them, and a rest that begins with none; the loop
  yields exactly that split for every fragmentation, undoes `txBuf` on every
  list of frames whose lengths fit the header, and on a cut stream yields
  the frames wholly contained in the cut.
-/
import GvisorTapVsock.Tap.RxPath

namespace GvisorTapVsock.Tap

open GvisorTapVsock.Go

variable {σ : Type}

/-! ## One iteration of the loop -/

/-- The two `ReadFull` calls of one iteration take one frame off the stream. -/
theorem decodeOne?_of_readFull (p : StreamProtocol) {reader afterSize afterBuf : Reader}
    {sizeBuf buf : List UInt8} (hsize : reader.readFull p.buf.length = some (sizeBuf, afterSize))
    (hbuf : afterSize.readFull (p.read sizeBuf) = some (buf, afterBuf)) :
    p.format.decodeOne? reader.content = some (buf, afterBuf.content) := by
  obtain ⟨hle, rfl, hrest⟩ := Reader.readFull_eq_some hsize
  obtain ⟨hle', rfl, hrest'⟩ := Reader.readFull_eq_some hbuf
  rw [hrest, List.length_drop] at hle'
  unfold Format.decodeOne?
  rw [if_pos ⟨by simp only [StreamProtocol.format] at *; omega, hle⟩, hrest', hrest]
  rfl

/-- Without a whole header there is no frame. -/
theorem decodeOne?_of_readFull_size (p : StreamProtocol) {reader : Reader}
    (hsize : reader.readFull p.buf.length = none) :
    p.format.decodeOne? reader.content = none := by
  have hlt : reader.content.length < p.buf.length := by
    by_contra hle
    obtain ⟨r, hr, -⟩ := reader.readFull_of_le (Nat.le_of_not_lt hle)
    rw [hsize] at hr
    exact absurd hr (by simp)
  unfold Format.decodeOne?
  rw [if_neg (fun h => absurd h.2 (Nat.not_le_of_lt hlt))]

/-- With a whole header and too few bytes behind it there is no frame. -/
theorem decodeOne?_of_readFull_buf (p : StreamProtocol) {reader afterSize : Reader}
    {sizeBuf : List UInt8} (hsize : reader.readFull p.buf.length = some (sizeBuf, afterSize))
    (hbuf : afterSize.readFull (p.read sizeBuf) = none) :
    p.format.decodeOne? reader.content = none := by
  obtain ⟨hle, rfl, hrest⟩ := Reader.readFull_eq_some hsize
  have hlt : afterSize.content.length < p.read (reader.content.take p.buf.length) := by
    by_contra hle'
    obtain ⟨r, hr, -⟩ := afterSize.readFull_of_le (Nat.le_of_not_lt hle')
    rw [hbuf] at hr
    exact absurd hr (by simp)
  rw [hrest, List.length_drop] at hlt
  unfold Format.decodeOne?
  rw [if_neg]
  intro h
  have h1 := h.1
  simp only [StreamProtocol.format] at h1
  omega

/-! ## The loop -/

/-- Hand slices to a receiver, one after the other, until it panics. -/
def feed (recv : Receiver σ) : List (Slice UInt8) → σ → σ × Option Panic
  | [], st => (st, none)
  | b :: bs, st =>
      match recv st b with
      | (st', some panic) => (st', some panic)
      | (st', none) => feed recv bs st'

/-- The end of a loop that handed on `fed` and would have left `rest`. -/
def RxRun.Ends (run : RxRun σ) (fed : σ × Option Panic) (rest : List UInt8) : Prop :=
  run.state = fed.1 ∧
    match fed.2 with
    | some panic => run.reason = .panicked panic
    | none => run.rest = rest ∧ (run.reason = .readSize ∨ run.reason = .readPacket)

/-- **The loop is the decoder**: whatever the fragmentation, `rxStream` hands
on the frames of the byte stream, until the receiver panics. -/
theorem rxStream_feed (p : StreamProtocol) (recv : Receiver σ) (reader : Reader) (st : σ) :
    (rxStream p recv reader st).Ends
      (feed recv ((p.format.decodeAll reader.content).1.map Slice.exact) st)
      (p.format.decodeAll reader.content).2 := by
  -- along the loop's own recursion; each iteration is one `decodeOne?`
  fun_induction rxStream p recv reader st with
  | case1 reader st hsize =>
    rw [Format.decodeAll_of_none _ (decodeOne?_of_readFull_size p hsize)]
    exact ⟨rfl, rfl, Or.inl rfl⟩
  | case2 reader st sizeBuf afterSize hsize hbuf =>
    rw [Format.decodeAll_of_none _ (decodeOne?_of_readFull_buf p hsize hbuf)]
    exact ⟨rfl, rfl, Or.inr rfl⟩
  | case3 reader st sizeBuf afterSize hsize buf afterBuf hbuf st' panic hrecv =>
    rw [Format.decodeAll_of_some _ (decodeOne?_of_readFull p hsize hbuf)]
    simp only [List.map_cons, feed, hrecv]
    exact ⟨rfl, rfl⟩
  | case4 reader st sizeBuf afterSize hsize buf afterBuf hbuf st' hrecv ih =>
    rw [Format.decodeAll_of_some _ (decodeOne?_of_readFull p hsize hbuf)]
    simp only [List.map_cons, feed, hrecv]
    exact ih

/-! ## Frames on the wire -/

/-- The receiver that records what it is given, in the place of `rxBuf`; it never
panics. -/
def recordFrame : Receiver (List (List UInt8)) := fun fs b => (fs ++ [b.toList], none)

/-- `rxStream` until the read error: the frames it handed on and the rest. -/
def rxFrames (p : StreamProtocol) (reads : List (List UInt8)) :
    List (List UInt8) × List UInt8 :=
  ((rxStream p recordFrame (Reader.newReader reads) []).state,
    (rxStream p recordFrame (Reader.newReader reads) []).rest)

theorem feed_recordFrame : ∀ (bs : List (Slice UInt8)) (acc : List (List UInt8)),
    feed recordFrame bs acc = (acc ++ bs.map Slice.toList, none)
  | [], acc => by simp [feed]
  | b :: bs, acc => by
      rw [feed]
      simp only [recordFrame]
      rw [feed_recordFrame bs (acc ++ [b.toList])]
      simp

theorem map_toList_map_exact (fs : List (List UInt8)) :
    (fs.map Slice.exact).map Slice.toList = fs := by
  simp [List.map_map, Function.comp_def]

theorem rxFrames_eq (p : StreamProtocol) (reads : List (List UInt8)) :
    rxFrames p reads = p.format.decodeAll reads.flatten := by
  have h := rxStream_feed p recordFrame (Reader.newReader reads) []
  rw [Reader.content_newReader, feed_recordFrame, List.nil_append, map_toList_map_exact] at h
  obtain ⟨hstate, hrest, -⟩ := h
  rw [rxFrames, hstate, hrest]

/-- What `txBuf` puts on the wire for a list of frames. -/
def txFrames (p : StreamProtocol) (fs : List (List UInt8)) : List UInt8 :=
  fs.flatMap (txBufBytes p.impl)

theorem txFrames_eq (p : StreamProtocol) (fs : List (List UInt8)) :
    txFrames p fs = p.format.encodeAll fs := by
  have henc : txBufBytes p.impl = p.format.encode := funext p.txBufBytes_impl
  rw [txFrames, Format.encodeAll, henc]

/-- **Framing.** The loop splits every stream in the one possible way, undoes
`txBuf`, and never hands on part of a frame. Here `recordFrame` stands in the
place of `rxBuf`; by `rxStream_feed` the loop hands the same frames to any other
receiver, up to its first panic. -/
theorem rxStream_framing (p : StreamProtocol) (s : List UInt8) :
    ∃ fs r,
      -- the run, for every fragmentation of the stream
      (∀ reads : List (List UInt8), reads.flatten = s → rxFrames p reads = (fs, r))
      -- the split, and that it is the only one
      ∧ s = txFrames p fs ++ r
      ∧ (∀ f ∈ fs, f.length < 256 ^ p.buf.length)
      ∧ (¬ ∃ f rest, r = txBufBytes p.impl f ++ rest)
      ∧ (∀ fs' r', (∀ f ∈ fs', f.length < 256 ^ p.buf.length) → s = txFrames p fs' ++ r' →
          (¬ ∃ f rest, r' = txBufBytes p.impl f ++ rest) → fs' = fs ∧ r' = r)
      -- decoding undoes encoding
      ∧ (∀ gs, (∀ f ∈ gs, f.length < 256 ^ p.buf.length) →
          ∀ reads : List (List UInt8), reads.flatten = txFrames p gs →
            rxFrames p reads = (gs, []))
      -- a cut stream delivers the frames wholly contained in the cut
      ∧ (∀ n, ∀ reads : List (List UInt8), reads.flatten = s.take n →
          ∃ k ≤ fs.length, (rxFrames p reads).1 = fs.take k
            ∧ (txFrames p (fs.take k)).length ≤ n
            ∧ (k < fs.length → n < (txFrames p (fs.take (k + 1))).length)) := by
  refine ⟨(p.format.decodeAll s).1, (p.format.decodeAll s).2, ?_, ?_, ?_, ?_, ?_, ?_, ?_⟩
  · intro reads hreads
    rw [rxFrames_eq, hreads]
  · rw [txFrames_eq, p.format.encodeAll_decodeAll]
  · exact p.format.fits_of_mem_decodeAll s
  · simp only [StreamProtocol.txBufBytes_impl]
    exact (p.format.decodeOne?_eq_none_iff _).mp (p.format.decodeAll_rest s)
  · intro fs' r' hfit hs hr
    simp only [StreamProtocol.txBufBytes_impl] at hr
    rw [txFrames_eq] at hs
    have huniq := p.format.decodeAll_unique hfit hs ((p.format.decodeOne?_eq_none_iff r').mpr hr)
    rw [huniq]
    exact ⟨rfl, rfl⟩
  · intro gs hfit reads hreads
    rw [rxFrames_eq, hreads, txFrames_eq, p.format.decodeAll_encodeAll gs hfit]
  · intro n reads hreads
    simp only [rxFrames_eq, hreads, txFrames_eq]
    exact p.format.decodeAll_take s n

end GvisorTapVsock.Tap

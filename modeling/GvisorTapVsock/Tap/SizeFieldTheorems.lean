/-
GvisorTapVsock.Tap.SizeFieldTheorems — when the 16-bit size field says how
long the frame is.

Both 16-bit encoders, `hyperkitProtocol.Write` in `txBuf` and `PutUint16` in
gvforwarder's `rx`, convert the length with `uint16` and no check. The field
is exact for a frame of at most 65535 bytes and for no other
(`sizeFieldExact_iff`), and frames beyond that do reach the encoders: a qemu
connection may carry one of 65536 bytes (`qemu_frame_not_exact`), after which
a hyperkit peer reads a size of zero and loses its place in the stream.
-/
import GvisorTapVsock.Tap.FramingTheorems
import GvisorTapVsock.Vm.Forwarder

namespace GvisorTapVsock.Tap

open GvisorTapVsock.Go

/-- The size fields written before `f` decode to its length, and a peer that
reads `f` off its stream is left with exactly what follows. -/
def SizeFieldExact (f : List UInt8) : Prop :=
  StreamProtocol.read .hyperkitProtocol ((txBufBytes .hyperkitProtocol f).take 2) = f.length
    ∧ StreamProtocol.read .hyperkitProtocol ((Vm.rxBytes f).take 2) = f.length
    ∧ ∀ rest : List UInt8,
      (StreamProtocol.format .hyperkitProtocol).decodeOne?
          (txBufBytes .hyperkitProtocol f ++ rest) = some (f, rest)
        ∧ (StreamProtocol.format .hyperkitProtocol).decodeOne? (Vm.rxBytes f ++ rest)
          = some (f, rest)

/-- What a hyperkit header says of a frame. -/
theorem read_txBufBytes (f : List UInt8) :
    StreamProtocol.read .hyperkitProtocol ((txBufBytes .hyperkitProtocol f).take 2)
      = f.length % 2 ^ 16 := by
  have hread := StreamProtocol.read_write .hyperkitProtocol f.length
  have htake : (txBufBytes .hyperkitProtocol f).take 2
      = StreamProtocol.write .hyperkitProtocol (StreamProtocol.buf .hyperkitProtocol) f.length := by
    simp [txBufBytes, ProtocolImpl.streamProtocol?, StreamProtocol.write_buf]
  rw [htake, hread]
  rfl

/-- A peer reads back a frame whose length the header can carry. -/
theorem decodeOne?_txBufBytes {f : List UInt8} (h : f.length < 2 ^ 16) (rest : List UInt8) :
    (StreamProtocol.format .hyperkitProtocol).decodeOne?
      (txBufBytes .hyperkitProtocol f ++ rest) = some (f, rest) := by
  have henc : txBufBytes .hyperkitProtocol f = (StreamProtocol.format .hyperkitProtocol).encode f :=
    StreamProtocol.txBufBytes_impl .hyperkitProtocol f
  rw [henc]
  exact Format.decodeOne?_encode_append _ (StreamProtocol.fits_hyperkit.mpr h) rest

/-- **The size field is exact for a frame of at most 65535 bytes, and for no
other.** -/
theorem sizeFieldExact_iff (f : List UInt8) : SizeFieldExact f ↔ f.length < 2 ^ 16 := by
  constructor
  · intro h
    have hread := read_txBufBytes f
    rw [h.1] at hread
    exact hread ▸ Nat.mod_lt _ (by decide)
  · intro h
    have hone := decodeOne?_txBufBytes h
    refine ⟨?_, ?_, ?_⟩
    · rw [read_txBufBytes, Nat.mod_eq_of_lt h]
    · rw [Vm.rxBytes_eq, read_txBufBytes, Nat.mod_eq_of_lt h]
    · intro rest
      rw [Vm.rxBytes_eq]
      exact ⟨hone rest, hone rest⟩

/-- A qemu connection accepts a frame whose hyperkit size field is wrong. -/
theorem qemu_frame_not_exact :
    ¬ ∀ (reads : List (List UInt8)), ∀ f ∈ (rxFrames .qemuProtocol reads).1,
      SizeFieldExact f := by
  intro hall
  have hfit : ∀ f ∈ [List.replicate 65536 (0 : UInt8)],
      (StreamProtocol.format .qemuProtocol).Fits f := by
    intro f hf
    rw [List.mem_singleton] at hf
    subst hf
    show (List.replicate 65536 (0 : UInt8)).length < 256 ^ 4
    rw [List.length_replicate]
    decide
  have hrun : rxFrames .qemuProtocol [txFrames .qemuProtocol [List.replicate 65536 0]]
      = ([List.replicate 65536 0], []) := by
    rw [rxFrames_eq, List.flatten_singleton, txFrames_eq, Format.decodeAll_encodeAll _ _ hfit]
  have hbad := hall [txFrames .qemuProtocol [List.replicate 65536 0]] (List.replicate 65536 0)
    (by rw [hrun]; exact List.mem_singleton.mpr rfl)
  have hsize := hbad.1
  rw [read_txBufBytes, List.length_replicate] at hsize
  exact absurd hsize (by decide)

end GvisorTapVsock.Tap

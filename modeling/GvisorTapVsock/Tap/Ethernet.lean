/-
GvisorTapVsock.Tap.Ethernet — the header accessors of `header.Ethernet` and
the packet views the switch applies them to.

The accessors slice without a length check of their own. On a slice `b`

* `SourceAddress` is `b[6:][:6]` and needs 6 bytes of length and 12 of
  capacity;
* `DestinationAddress` is `b[0:][:6]` and needs 6 of capacity;
* `Type` is `Uint16(b[12:])` and needs 14 of length.

Between length and capacity they return bytes that are not the frame's, so
the lemmas below give the exact range of each and, on 14 bytes or more, the
frame's own fields.
-/
import GvisorTapVsock.Go.Slice
import GvisorTapVsock.Go.Binary

namespace GvisorTapVsock.Tap

open GvisorTapVsock.Go

/-- `tcpip.LinkAddress`, a byte string. -/
abbrev LinkAddress := List UInt8

/-- `header.EthernetMinimumSize`. -/
def ethernetMinimumSize : Nat := 14

/-- `header.EthernetAddressSize`. -/
def ethernetAddressSize : Nat := 6

/-- `header.EthernetBroadcastAddress`. -/
def ethernetBroadcastAddress : LinkAddress := List.replicate 6 0xff

/-- `b[srcMAC:][:EthernetAddressSize]`. -/
def sourceAddress (b : Slice UInt8) : Except Panic LinkAddress :=
  (b.dropFront 6 >>= fun t => t.reslice ethernetAddressSize).map Slice.toList

/-- `b[dstMAC:][:EthernetAddressSize]`. -/
def destinationAddress (b : Slice UInt8) : Except Panic LinkAddress :=
  (b.dropFront 0 >>= fun t => t.reslice ethernetAddressSize).map Slice.toList

/-- `binary.BigEndian.Uint16(b[ethType:])`: the bounds check reads `b[1]` first. -/
def ethernetType (b : Slice UInt8) : Except Panic Nat := do
  let t ← b.dropFront 12
  let low ← t.index 1
  let high ← t.index 0
  return beNat [high, low]

/-- The backing array size of `newChunk(size)`: the pooled power of two from
64 bytes on, or `size` itself above 64 KiB. -/
def chunkSize (size : Nat) : Nat :=
  if 64 * 1024 < size then size
  else ((List.range 11).map (fun i => 64 * 2 ^ i)).find? (fun c => size ≤ c) |>.getD size

/-- `pkt.ToView().AsSlice()` for a packet with these bytes: a zeroed chunk
behind the data, or `nil` when there is none. -/
def viewSlice (pkt : List UInt8) : Slice UInt8 :=
  if pkt = [] then Slice.exact []
  else Slice.withSpare pkt (List.replicate (chunkSize pkt.length - pkt.length) 0)

/-! ## Exact ranges -/

theorem sourceAddress_eq (b : Slice UInt8) :
    sourceAddress b =
      if 6 ≤ b.len ∧ 12 ≤ b.cap then .ok ((b.mem.drop 6).take 6) else .error .sliceBounds :=
  Slice.dropFront_bind_reslice b 6 6

theorem destinationAddress_eq (b : Slice UInt8) :
    destinationAddress b =
      if 6 ≤ b.cap then .ok (b.mem.take 6) else .error .sliceBounds := by
  have h := Slice.dropFront_bind_reslice b 0 6
  simpa [destinationAddress, ethernetAddressSize] using h

theorem ethernetType_of_le (b : Slice UInt8) (h : 14 ≤ b.len) :
    ethernetType b = .ok (beNat ((b.toList.drop 12).take 2)) := by
  have hle := b.len_le
  have hdrop : b.dropFront 12 = .ok ⟨b.mem.drop 12, b.len - 12, by
      simp only [List.length_drop]; omega⟩ := by
    rw [Slice.dropFront, if_pos (by omega)]
  have h12 : 12 < b.mem.length := by omega
  have h13 : 13 < b.mem.length := by omega
  have hpair : (b.toList.drop 12).take 2 = [b.mem[12], b.mem[13]] := by
    rw [Slice.toList, List.drop_take, List.take_take, Nat.min_eq_left (by omega),
      List.drop_eq_getElem_cons h12, List.drop_eq_getElem_cons h13]
    rfl
  rw [hpair, ethernetType, hdrop]
  simp only [bind, Except.bind, pure, Except.pure, Slice.index]
  rw [dif_pos (by omega), dif_pos (by omega)]
  simp

theorem ethernetType_of_lt (b : Slice UInt8) (h : b.len < 14) :
    ∃ p, ethernetType b = .error p := by
  unfold ethernetType Slice.dropFront
  by_cases h12 : 12 ≤ b.len
  · -- `b[12:]` succeeds with at most one byte, the bounds check fails
    refine ⟨.indexRange, ?_⟩
    rw [if_pos h12]
    simp only [bind, Except.bind, Slice.index]
    rw [dif_neg (by omega)]
  · exact ⟨.sliceBounds, by rw [if_neg h12]; rfl⟩

/-! ## Frames of at least twelve bytes: only the frame's own fields -/

theorem sourceAddress_of_le (b : Slice UInt8) (h : 12 ≤ b.len) :
    sourceAddress b = .ok ((b.toList.drop 6).take 6) := by
  have hle := b.len_le
  rw [sourceAddress_eq, if_pos ⟨by omega, by simp only [Slice.cap]; omega⟩, Slice.toList,
    List.drop_take, List.take_take, Nat.min_eq_left (by omega)]

theorem destinationAddress_of_le (b : Slice UInt8) (h : 6 ≤ b.len) :
    destinationAddress b = .ok (b.toList.take 6) := by
  have hle := b.len_le
  rw [destinationAddress_eq, if_pos (by simp only [Slice.cap]; omega), Slice.toList,
    List.take_take, Nat.min_eq_left (by omega)]

@[simp] theorem toList_viewSlice (pkt : List UInt8) : (viewSlice pkt).toList = pkt := by
  unfold viewSlice
  split
  · rename_i h; subst h; rfl
  · simp

theorem chunkSize_of_le {size : Nat} (h : size ≤ 64) : chunkSize size = 64 := by
  have hbig : ¬ 64 * 1024 < size := by omega
  rw [chunkSize, if_neg hbig, List.range_succ_eq_map, List.map_cons,
    List.find?_cons_of_pos (by simpa using h)]
  rfl

/-- The view of a short packet reaches over the whole smallest chunk. -/
theorem cap_viewSlice_of_le {pkt : List UInt8} (hne : pkt ≠ []) (h : pkt.length ≤ 64) :
    (viewSlice pkt).cap = 64 := by
  rw [viewSlice, if_neg hne, chunkSize_of_le h, Slice.cap, Slice.mem_withSpare, List.length_append,
    List.length_replicate]
  omega

@[simp] theorem len_viewSlice (pkt : List UInt8) : (viewSlice pkt).len = pkt.length := by
  rw [← Slice.length_toList, toList_viewSlice]

end GvisorTapVsock.Tap

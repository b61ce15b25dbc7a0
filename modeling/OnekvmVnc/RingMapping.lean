import OnekvmVnc.Client
import OnekvmVnc.Ring

/-! The memory of the media ring in `src/protocol_ipc.cpp`: the layout that `ReceiveSharedRing` accepts, and where
    `TakeLatestFrame` then finds a slot. Addresses in the mapping are numbers, with those of a slot computed in
    32-bit arithmetic as the source does. -/

namespace OnekvmVnc

def maxPayloadBytes : Nat := 8 <<< 20

def ringMagic : List UInt8 := [0x4f, 0x4b, 0x56, 0x52]

def ringVersion : UInt32 := 1

def ringHeaderSize : UInt32 := 64

def ringSlotHeaderSize : UInt32 := 64

def readLE16 (memory : Nat → UInt8) (i : Nat) : UInt16 := (memory i).toUInt16 ||| ((memory (i + 1)).toUInt16 <<< 8)

def readLE32 (memory : Nat → UInt8) (i : Nat) : UInt32 :=
  (memory i).toUInt32 ||| ((memory (i + 1)).toUInt32 <<< 8) ||| ((memory (i + 2)).toUInt32 <<< 16) |||
    ((memory (i + 3)).toUInt32 <<< 24)

def readLE64 (memory : Nat → UInt8) (i : Nat) : UInt64 :=
  (readLE32 memory i).toUInt64 ||| ((readLE32 memory (i + 4)).toUInt64 <<< 32)

/-- `RingMapping`, without its descriptors. -/
structure RingMapping where
  memory : Nat → UInt8
  size : UInt64
  slotCount : UInt32
  slotCapacity : UInt32
  stride : UInt32

/-- What `TakeLatestFrame` reads of a slot: its state and its header. -/
structure SlotHeader where
  state : UInt32
  payloadSize : UInt32
  sequence : UInt64
  durationUs : UInt32
  width : UInt16
  height : UInt16
  codec : UInt8
  deriving DecidableEq, Repr

/-- The end of `ReceiveSharedRing`, once the memory of `stSize` bytes is mapped: its header gives the layout. -/
def receiveSharedRing (memory : Nat → UInt8) (stSize : Int64) : Except String RingMapping :=
  if stSize < ringHeaderSize.toUInt64.toInt64 then .error "invalid shared media ring size"
  else
    let ring : RingMapping :=
      { memory, size := stSize.toUInt64, slotCount := readLE32 memory 8, slotCapacity := readLE32 memory 12,
        stride := readLE32 memory 16 }
    let headerSize := readLE32 memory 20
    if (List.range 4).map memory = ringMagic ∧ readLE32 memory 4 = ringVersion ∧ headerSize = ringHeaderSize ∧
        2 ≤ ring.slotCount ∧ ring.slotCount ≤ 16 ∧ 0 < ring.slotCapacity ∧
        ring.slotCapacity.toNat ≤ maxPayloadBytes ∧ ring.stride ≥ ringSlotHeaderSize + ring.slotCapacity ∧
        ring.slotCount.toUInt64 ≤ (ring.size - headerSize.toUInt64) / ring.stride.toUInt64 then
      .ok ring
    else .error "invalid shared media ring layout"

namespace RingMapping
variable (r : RingMapping)

/-- The offset of a slot in the mapping. -/
def slotOffset (index : UInt32) : UInt32 := ringHeaderSize + index * r.stride

/-- Where the slot begins. -/
def slotStart (index : Nat) : Nat := (r.slotOffset (UInt32.ofNat index)).toNat

/-- A slot's header and its payload at most. -/
def slotLength : Nat := ringSlotHeaderSize.toNat + r.slotCapacity.toNat

/-- The addresses of a slot. -/
def slotRegion (index : Nat) : Finset Nat := Finset.Ico (r.slotStart index) (r.slotStart index + r.slotLength)

def header (index : Nat) : SlotHeader :=
  let offset := r.slotStart index
  { state := readLE32 r.memory offset
    payloadSize := readLE32 r.memory (offset + 4)
    sequence := readLE64 r.memory (offset + 8)
    durationUs := readLE32 r.memory (offset + 24)
    width := readLE16 r.memory (offset + 28)
    height := readLE16 r.memory (offset + 30)
    codec := r.memory (offset + 32) }

/-- The end of `TakeLatestFrame`, for the slot that it has claimed. -/
def takeFrame (index : Nat) : Option JPEGFrame :=
  let header := r.header index
  if header.payloadSize = 0 ∨ header.payloadSize > r.slotCapacity ∨ header.width = 0 ∨ header.height = 0 ∨
      header.codec ≠ kMJPEG then none
  else
    let payload := r.slotStart index + ringSlotHeaderSize.toNat
    some
      { data := (List.range header.payloadSize.toNat).map fun i => r.memory (payload + i)
        width := header.width
        height := header.height
        durationUs := header.durationUs }

end RingMapping

end OnekvmVnc

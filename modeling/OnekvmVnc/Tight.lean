import OnekvmVnc.Client
import OnekvmVnc.Lib.Decoder

/-! Tight JPEG rectangles: `tightJPEGEncoding` of `internal/vnc/sink.go`, and how a viewer reads a
    `FramebufferUpdate` with one of them. -/

namespace OnekvmVnc

def tightLength (length : Nat) : List UInt8 :=
  let first := (length &&& 0x7f).toUInt8
  if length > 0x7f then
    let first := first ||| 0x80
    let second := ((length >>> 7) &&& 0x7f).toUInt8
    if length > 0x3fff then [first, second ||| 0x80, ((length >>> 14) &&& 0xff).toUInt8] else [first, second]
  else [first]

/-- `tightJPEGEncoding.Write`, on a connection that takes what it writes. -/
def tightJPEGEncodingWrite (payload : List UInt8) : Except String (List UInt8) :=
  if payload.length > 0x3fffff then
    .error ("Tight JPEG payload exceeds protocol limit: " ++ toString payload.length)
  else .ok ([0x90] ++ tightLength payload.length ++ payload)

/-- A rectangle as the viewer reads it. -/
structure TightUpdate where
  x : UInt16
  y : UInt16
  width : UInt16
  height : UInt16
  payload : List UInt8
  deriving DecidableEq, Repr

namespace TightUpdate
open Decoder

def readU16 : Decoder UInt8 UInt16 := do
  let high ← unit
  let low ← unit
  return UInt16.ofNat (high.toNat * 256 + low.toNat)

def readU32 : Decoder UInt8 UInt32 := do
  let high ← readU16
  let low ← readU16
  return UInt32.ofNat (high.toNat * 65536 + low.toNat)

/-- A compact length: seven bits from each of the first two bytes, the lowest first, and eight from the third; the
    top bit of the first two says that another byte follows. -/
def readLength : Decoder UInt8 Nat := do
  let first ← unit
  if first.toNat < 128 then return first.toNat
  let second ← unit
  if second.toNat < 128 then return first.toNat - 128 + 128 * second.toNat
  let third ← unit
  return first.toNat - 128 + 128 * (second.toNat - 128) + 16384 * third.toNat

/-- A `FramebufferUpdate` of one rectangle, with Tight encoding and JPEG compression. -/
def read : Decoder UInt8 TightUpdate := do
  expect unit 0
  let _ ← unit
  expect readU16 1
  let x ← readU16
  let y ← readU16
  let width ← readU16
  let height ← readU16
  expect readU32 7
  expect unit 0x90
  let length ← readLength
  let payload ← units length
  return { x, y, width, height, payload }

end TightUpdate

end OnekvmVnc

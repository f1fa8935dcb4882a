/-
Flash maps. A flash map is a table anywhere in an image that gives names to areas of it. Names have
a fixed width and end at the first zero byte, or at the full width. The map of an image is the
first table in it that can be read.
-/
import VerifiedBoot.Slot
import VerifiedBoot.Text.Utf8

namespace VerifiedBoot

/-! ## Names -/

def flashNameSize : Nat := 32

abbrev FlashName := ByteBlock flashNameSize

namespace FlashName

def trimmed (n : FlashName) : Bytes := n.bytes.untilZero

def ofText (s : String) : FlashName := ByteBlock.ofBytes flashNameSize (Bytes.ofText s)

def text (n : FlashName) : String := Utf8.decodeLossy n.trimmed

end FlashName

/-! ## Areas -/

/-- An entry of a flash map. -/
structure FlashArea where
  offset : UInt32
  size : UInt32
  name : FlashName
  flags : UInt16
deriving DecidableEq

namespace FlashArea

def byteLength : Nat := 42

def named (name : String) (offset size : UInt32) : FlashArea :=
  { offset, size, name := FlashName.ofText name, flags := 0 }

def hasName (a : FlashArea) (name : String) : Bool := a.name.trimmed == Bytes.ofText name

/-- The area, or an empty one at the start if it does not fit into an image of `length` bytes. -/
def clamp (a : FlashArea) (length : Nat) : FlashArea :=
  let stop := a.offset.toNat + a.size.toNat
  if stop < word32Bound ∧ stop ≤ length then a else { a with offset := 0, size := 0 }

def isEmpty (a : FlashArea) : Bool := a.size == 0

def toArea (a : FlashArea) : Area := ⟨a.offset.toNat, a.size.toNat⟩

def read : Read FlashArea := do
  let offset ← Read.word32
  let size ← Read.word32
  let name ← Read.block flashNameSize
  let flags ← Read.word16
  return { offset, size, name, flags }

def encode (a : FlashArea) : Bytes :=
  Bytes.le32 a.offset ++ Bytes.le32 a.size ++ a.name.bytes ++ Bytes.le16 a.flags

end FlashArea

/-! ## Maps -/

/-- The fields of a flash map before its areas. -/
structure FlashHeader where
  majorVersion : UInt8
  minorVersion : UInt8
  base : UInt64
  size : UInt32
  name : FlashName
deriving DecidableEq

/-- A flash map and where in an image it was found. -/
structure FlashMap extends FlashHeader where
  position : Nat
  areas : List FlashArea
deriving DecidableEq

namespace FlashMap

def signature : Bytes := Bytes.ofAscii ['_', '_', 'F', 'M', 'A', 'P', '_', '_']

def currentMajor : UInt8 := 1

def currentMinor : UInt8 := 1

def headerSize : Nat := 56

/-- The encoded size of a map with `count` areas. -/
def encodedSize (count : Nat) : Nat := headerSize + count * FlashArea.byteLength

/-! ## Reading -/

/-- Reads the fields before the areas, and the number of areas, in `available` bytes. -/
def readHeader (available : Nat) : Read (FlashHeader × Nat) := do
  let start ← Read.fixed 8
  Read.require (start = signature) .badMagic
  let majorVersion ← Read.word8
  Read.require (majorVersion = currentMajor) (.unsupportedVersion majorVersion.toUInt32)
  let minorVersion ← Read.word8
  let base ← Read.word64
  let size ← Read.word32
  let name ← Read.block flashNameSize
  let count := (← Read.word16).toNat
  Read.require (encodedSize count ≤ available) (.outOfBounds (encodedSize count) available)
  return ({ majorVersion, minorVersion, base, size, name }, count)

/-- Reads a map in `available` bytes; `position` is where it was found. -/
def read (available position : Nat) : Read FlashMap := do
  let (header, count) ← readHeader available
  let areas ← (List.replicate count ()).mapM fun _ => FlashArea.read
  return { header with position, areas }

def parseAt (image : Bytes) (position : Nat) : Except CodecError FlashMap :=
  if image.length < position then .error .truncated
  else (read (image.length - position) position).parseFrom image position

/-- The first map at `position` or later that can be read, in an image of `size` bytes of which
those from `position` on are given. -/
def findFrom (size position : Nat) (ahead : Bytes) (h : ahead.length = size - position) :
    Option FlashMap :=
  match ahead, h with
  | [], _ => none
  | b :: bs, h =>
    match (read (size - position) position).start ⟨size, position, b :: bs, h⟩ with
    | (.ok map, _) => some map
    | (.error _, _) => findFrom size (position + 1) bs (by simp at h; omega)

/-- The map of an image: the first that can be read. -/
def find (image : Bytes) : Option FlashMap := findFrom image.length 0 image rfl

/-! ## Looking up and writing -/

def findArea (m : FlashMap) (name : String) : Option FlashArea := m.areas.find? (·.hasName name)

/-- The part of an image of `length` bytes that has a name; empty if it does not fit. -/
def clampedArea (m : FlashMap) (name : String) (length : Nat) : Option Area :=
  (m.findArea name).map fun a => (a.clamp length).toArea

def encodeHeader (h : FlashHeader) (count : UInt16) : Bytes :=
  signature ++ [h.majorVersion, h.minorVersion] ++ Bytes.le64 h.base ++ Bytes.le32 h.size
    ++ h.name.bytes ++ Bytes.le16 count

/-- The encoding of a map, if its areas can be counted. -/
def encode (m : FlashMap) : Except CodecError Bytes :=
  if m.areas.length < word16Bound then
    .ok (encodeHeader m.toFlashHeader (UInt16.ofNat m.areas.length)
      ++ m.areas.flatMap FlashArea.encode)
  else
    .error (.nonCanonical .areaCount)

def build (name : String) (base : UInt64) (size : UInt32) (areas : List FlashArea) : FlashMap :=
  { majorVersion := currentMajor, minorVersion := currentMinor, base, size,
    name := FlashName.ofText name, position := 0, areas }

end FlashMap
end VerifiedBoot

/-
Slots. A slot is a body and the trust chain that signs it, each in an area of an image. A layout
says where an image keeps the areas of its slots, and what they are called.
-/
import VerifiedBoot.Payload

namespace VerifiedBoot

/-! ## Areas -/

structure Area where
  offset : Nat
  length : Nat
deriving DecidableEq, Repr

namespace Area

def isEmpty (a : Area) : Bool := a.length == 0

/-- The offset where an area ends. -/
def stop (a : Area) : Nat := saturatingSum a.offset a.length

/-- The bytes of an area, if the image has them all. -/
def slice (a : Area) (image : Bytes) : Option Bytes := image.slice a.offset a.length

/-- Whether an area lies inside an image. -/
def fits (a : Area) (image : Bytes) : Bool := (a.slice image).isSome

end Area

/-! ## Slots -/

inductive SlotId where
  | a
  | b
deriving DecidableEq, Repr

namespace SlotId

def all : List SlotId := [.a, .b]

def letter : SlotId → String
  | a => "A"
  | b => "B"

def name (id : SlotId) : String := "slot " ++ id.letter

end SlotId

/-- A slot made ready for signing. -/
structure Slot where
  id : SlotId
  body : Area
  chain : Area
  version : UInt16
  flags : UInt32
  /-- How many bytes of the body its signature covers. -/
  bodyLength : Nat
  metadataHash : Option MetadataHash
deriving DecidableEq, Repr

namespace Slot

/-- A slot in two areas, before anything is known of what they hold. -/
def ofAreas (id : SlotId) (body chain : Area) : Slot :=
  { id, body, chain, version := 1, flags := 0, bodyLength := body.length, metadataHash := none }

def signedBody (s : Slot) : Area := ⟨s.body.offset, min s.bodyLength s.body.length⟩

end Slot

/-! ## Layouts -/

structure SlotLayout where
  /-- The slots, in the order in which they are signed. -/
  ids : List SlotId
  bodyName : SlotId → String
  chainName : SlotId → String
  bodyArea : SlotId → Option Area
  chainArea : SlotId → Option Area

namespace SlotLayout

/-- The body area of a slot, if it is there and has bytes. -/
def presentBody (l : SlotLayout) (id : SlotId) : Option Area :=
  (l.bodyArea id).filter (!·.isEmpty)

/-- The trust chain area of a slot, if it is there and has bytes. -/
def presentChain (l : SlotLayout) (id : SlotId) : Option Area :=
  (l.chainArea id).filter (!·.isEmpty)

/-- A slot both of whose areas are there. -/
def locate (l : SlotLayout) (id : SlotId) : Option Slot := do
  let chain ← l.presentChain id
  let body ← l.presentBody id
  return Slot.ofAreas id body chain

end SlotLayout
end VerifiedBoot

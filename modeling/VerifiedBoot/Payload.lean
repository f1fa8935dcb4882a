/-
Bodies that describe themselves. A payload format says how much of a body is in use, and which part
of it is integrity metadata: a description of the content, whose digest can be signed in place of
the body. Raw bodies have neither. An indexed body starts with a header and an index of the digests
of its content blocks, and the two together are its metadata.
-/
import VerifiedBoot.Trust

namespace VerifiedBoot

structure MetadataHash where
  algorithm : Algorithm
  digest : Bytes
deriving DecidableEq, Repr

def MetadataHash.compute (metadata : Bytes) (primitives : TrustPrimitives) : Option MetadataHash :=
  match primitives.digest .sha256 metadata with
  | .ok digest => some { algorithm := .sha256, digest }
  | .error _ => none

/-- What can be asked of the bodies of a format. -/
structure PayloadFormat where
  /-- Whether a body says that its integrity metadata must be signed. -/
  integrityDeclared : Bytes → Bool
  /-- The length of the content at the start of a body. -/
  contentLength : Bytes → Option Nat
  metadata : Bytes → Option Bytes
  /-- Whether a body, which is exactly the signed range, matches its integrity metadata. -/
  contentMatches : Bytes → TrustPrimitives → Bool
  metadataHash : Bytes → TrustPrimitives → Option MetadataHash := fun body primitives =>
    (metadata body).bind (MetadataHash.compute · primitives)

def PayloadFormat.raw : PayloadFormat where
  integrityDeclared _ := false
  contentLength _ := none
  metadata _ := none
  contentMatches _ _ := false

/-! ## Indexed bodies -/

structure IndexedHeader where
  flags : UInt32
  metadataSize : UInt32
  /-- The size of header, index and content together. -/
  contentSize : UInt32
deriving DecidableEq, Repr

namespace IndexedHeader

def magic : Bytes := Bytes.ofAscii ['P', 'L', 'D', '1']

def headerSize : Nat := 16

/-- The size of header and index together. -/
def metadataEnd (h : IndexedHeader) : Nat := headerSize + h.metadataSize.toNat

/-- Whether the digest of the metadata is what gets signed. -/
def declaresIntegrity (h : IndexedHeader) : Bool := h.flags &&& 1 == 1

def read : Read IndexedHeader := do
  let start ← Read.fixed 4
  Read.require (start = magic) .badMagic
  let flags ← Read.word32
  let metadataSize ← Read.word32
  let contentSize ← Read.word32
  return { flags, metadataSize, contentSize }

/-- Reads the header of a body that holds all the content. -/
def parse (body : Bytes) : Except CodecError IndexedHeader := do
  let h ← read.parse body
  if h.contentSize.toNat < h.metadataEnd then
    throw (.sizeMismatch h.contentSize.toNat h.metadataEnd)
  if body.length < h.contentSize.toNat then
    throw (.outOfBounds h.contentSize.toNat body.length)
  return h

def encode (h : IndexedHeader) : Bytes :=
  magic ++ Bytes.le32 h.flags ++ Bytes.le32 h.metadataSize ++ Bytes.le32 h.contentSize

end IndexedHeader

namespace IndexedPayload

/-- The content bytes that one entry of the index describes. -/
def blockSize : Nat := 1024

def entrySize : Nat := 32

/-- The index of a content: the digest of each of its blocks. -/
def indexOf (content : Bytes) : Bytes :=
  (Bytes.chunks blockSize content).flatMap fun block => (sha256 block).bytes

def build (content : Bytes) (flags : UInt32) : Except CodecError Bytes := do
  let index := indexOf content
  let metadataSize ← toLength .indexSize index.length
  let contentSize ← toLength .contentSize (IndexedHeader.headerSize + index.length + content.length)
  let header : IndexedHeader := { flags, metadataSize, contentSize }
  return header.encode ++ index ++ content

/-- The header of a body, if it has one. -/
def header? (body : Bytes) : Option IndexedHeader := (IndexedHeader.parse body).toOption

/-- The header of a body, if it declares integrity metadata. -/
def integrityHeader? (body : Bytes) : Option IndexedHeader :=
  (header? body).filter (·.declaresIntegrity)

/-- Whether an index has one entry for each block of a content. -/
def describesAll (index content : Bytes) : Bool :=
  index.length == (content.length + (blockSize - 1)) / blockSize * entrySize

/-- Whether every block of a content has the digest that the index holds for it. -/
def blocksMatch (index content : Bytes) (primitives : TrustPrimitives) : Bool :=
  (List.zip (Bytes.chunks blockSize content) (Bytes.chunks entrySize index)).all
    fun (block, expected) =>
      match primitives.digest .sha256 block with
      | .ok digest => digest == expected
      | .error _ => false

/-- Whether the content of a body, which ends where the body ends, is what its index describes. -/
def contentMatches (body : Bytes) (primitives : TrustPrimitives) : Bool :=
  match integrityHeader? body with
  | none => false
  | some header =>
    let index := body.between IndexedHeader.headerSize header.metadataEnd
    let content := body.drop header.metadataEnd
    header.contentSize.toNat == body.length && describesAll index content
      && blocksMatch index content primitives

end IndexedPayload

/-- Bodies that start with a header and an index; a body without header is a raw one. -/
def PayloadFormat.indexed : PayloadFormat where
  integrityDeclared body := (IndexedPayload.integrityHeader? body).isSome
  contentLength body := (IndexedPayload.header? body).map (·.contentSize.toNat)
  metadata body := (IndexedPayload.integrityHeader? body).map fun h => body.take h.metadataEnd
  contentMatches := IndexedPayload.contentMatches

end VerifiedBoot

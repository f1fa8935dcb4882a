/-
The signing of slots. A signer holds one keyblock and the data key in it. For each slot of an image
it decides version, flags and signed length, builds the chain from the image as it was given, and
only when all chains are built writes them, each at the start of its trust chain area.
-/
import VerifiedBoot.Chain.TrustChain
import VerifiedBoot.Slot

namespace VerifiedBoot

/-! ## Keyblock source and options -/

/-- Where the keyblock of new chains comes from. -/
inductive ChainSource where
  /-- A new keyblock for a data key, signed with a root key. -/
  | fresh (rootKey : SigningKey) (dataKey : PackedKey) (flags : KeyblockFlags)
  /-- The bytes of a keyblock that is already signed. -/
  | reuse (bytes : Bytes)

def ChainSource.keyblock : ChainSource → Except Error Keyblock
  | fresh rootKey dataKey flags => Keyblock.create dataKey flags rootKey
  | reuse bytes => (Keyblock.parse bytes).mapError fun e => .policy (.invalidReusedChain e)

/-- Whether the digest of integrity metadata is signed instead of the body. -/
inductive IntegrityPolicy where
  /-- If a body of the image asks for it. -/
  | auto
  /-- For every slot. -/
  | required
  | disabled
deriving DecidableEq, Repr

/-- What the caller asks of a signing. What is left open is taken from the chain in place. -/
structure SignOptions where
  version : Option UInt16
  flags : Option UInt32
  /-- The key for the next stage, to be put into the preambles. -/
  subkey : Option PackedKey
  integrity : IntegrityPolicy
  /-- The signed length of each body. -/
  bodyLength : SlotId → Option Nat

def SignOptions.none : SignOptions := ⟨.none, .none, .none, .auto, fun _ => .none⟩

/-! ## Chains in place -/

/-- What a chain in place says of its body. -/
structure ExistingChain where
  version : UInt16
  flags : UInt32
  bodyLength : Nat
deriving DecidableEq, Repr

/-- The chain in place in an area, if it is intact by its own data key and its body has room. -/
def ExistingChain.inspect (area : Bytes) (bodySize : Nat) (primitives : TrustPrimitives) :
    Option ExistingChain := do
  let keyblock ← (Keyblock.parse area).toOption
  -- no root key is asked for: any intact chain has something to say
  guard (primitives.checkKey keyblock.dataKey).isOk
  let preamble ← (Preamble.parse area keyblock.size.toNat).toOption
  guard (preamble.verifySignature keyblock.dataKey primitives).isOk
  guard (preamble.bodyLength ≤ bodySize)
  return { version := preamble.version, flags := preamble.flags, bodyLength := preamble.bodyLength }

/-! ## Reports -/

structure SignedSlot where
  id : SlotId
  version : UInt16
  flags : UInt32
  bodyLength : Nat
  chainLength : Nat
  /-- The digest of metadata was signed, not the body. -/
  digestSigned : Bool
deriving DecidableEq, Repr

/-- What was done to an image, and its trust chain areas afterwards. -/
structure SignReport where
  slots : List SignedSlot
  vblocks : List (SlotId × Bytes)
deriving DecidableEq, Repr

/-! ## Signers -/

/-- A keyblock, the data key in it, and what the caller asks for. -/
structure Signer where
  keyblock : Keyblock
  dataKey : SigningKey
  options : SignOptions
  primitives : TrustPrimitives
  payload : PayloadFormat

namespace Signer

/-- A signer, if the data key is the one in the keyblock. -/
def make (source : ChainSource) (dataKey : SigningKey) (options : SignOptions)
    (primitives : TrustPrimitives) (payload : PayloadFormat) : Except Error Signer := do
  let keyblock ← source.keyblock
  if keyblock.dataKey.algorithm ≠ dataKey.algorithm.raw
      ∨ keyblock.dataKey.material ≠ dataKey.publicMaterial then
    throw (.policy .keyMismatch)
  return { keyblock, dataKey, options, primitives, payload }

/-- Whether the metadata of an image with these bodies are signed. -/
def integrityMode (s : Signer) (bodies : List Bytes) : Bool :=
  match s.options.integrity with
  | .required => true
  | .disabled => false
  | .auto => bodies.any s.payload.integrityDeclared

/-- The signed length that was asked for or that the body gives, if the body has that many
bytes. -/
def statedLength (s : Signer) (id : SlotId) (body : Bytes) : Option Nat :=
  s.options.bodyLength id <|> s.payload.contentLength body

/-- The signed length of a body: as stated, else all of it in integrity mode, else that of the
chain in place, else all of it. -/
def signedLength (s : Signer) (id : SlotId) (bodyName : String) (body : Bytes)
    (existing : Option ExistingChain) (integrity : Bool) : Except Error Nat :=
  match s.statedLength id body with
  | some length =>
    if body.length < length then
      .error (.policy (.bodySizeExceedsArea bodyName length body.length))
    else
      .ok length
  | none =>
    if integrity then .ok body.length
    else .ok (existing.elim body.length (·.bodyLength))

/-- The digest of the metadata in a signed range that matches them. -/
def checkedMetadata (s : Signer) (bodyName : String) (signed : Bytes) :
    Except Error MetadataHash := do
  let some hash := s.payload.metadataHash signed s.primitives
    | throw (.policy (.missingMetadata bodyName))
  if s.payload.contentMatches signed s.primitives then
    return hash
  else
    throw (.policy (.metadataMismatch bodyName))

/-- Decides version, flags and signed length of a slot. -/
def prepare (s : Signer) (image : Bytes) (slot : Slot) (bodyName chainName : String)
    (integrity : Bool) : Except Error Slot := do
  let some body := slot.body.slice image | throw (.policy (.missingArea bodyName))
  let some chain := slot.chain.slice image | throw (.policy (.missingArea chainName))
  let existing := ExistingChain.inspect chain body.length s.primitives
  let bodyLength ← s.signedLength slot.id bodyName body existing integrity
  -- the payload format is asked about the signed range, not about the whole area
  let metadataHash ←
    if integrity then some <$> s.checkedMetadata bodyName (body.take bodyLength)
    else pure slot.metadataHash
  return { slot with
    version := (s.options.version <|> existing.map (·.version)).getD 1
    flags := (s.options.flags <|> existing.map (·.flags)).getD 0
    bodyLength
    metadataHash }

/-- The signature that stands for a body: that of the body, or the digest of its metadata. -/
def bodySignature (s : Signer) (body : Bytes) : Option MetadataHash → Except Error Signature
  | some hash => do
    let dataSize ← liftCodec (toLength .bodyLength body.length)
    return { kind := .digest, algorithm := hash.algorithm.raw, dataSize, blob := hash.digest }
  | none => do
    let dataSize ← liftCodec (toLength .bodyLength body.length)
    return Signature.classical s.dataKey.algorithm dataSize (← liftTrust (s.dataKey.sign body))

/-- The chain that signs a body, if it fits into `capacity` bytes. -/
def chainFor (s : Signer) (body : Bytes) (metadataHash : Option MetadataHash) (version : UInt16)
    (flags : UInt32) (capacity : Nat) : Except Error Bytes := do
  let bodySignature ← s.bodySignature body metadataHash
  let preamble ← Preamble.create version flags bodySignature s.options.subkey s.dataKey
  liftCodec (TrustChain.encode { keyblock := s.keyblock, preamble } capacity)

def chainOf (s : Signer) (image : Bytes) (slot : Slot) : Except Error Bytes := do
  let some body := slot.signedBody.slice image
    | throw (.internal .slotBodyOutOfRange)
  s.chainFor body slot.metadataHash slot.version slot.flags slot.chain.length

/-! ## Signing an image -/

/-- Changes an image, and keeps what it has written when it fails. -/
abbrev Edit (α : Type) := EStateM Error Bytes α

/-- The slots of a layout that have to be signed. Only slots after the first may lack a body. -/
def locateSlots (layout : SlotLayout) : List SlotId → Bool → Except Error (List Slot)
  | [], _ => .ok []
  | id :: ids, isFirst =>
    match layout.presentBody id, layout.presentChain id with
    | some body, some chain => do
      return Slot.ofAreas id body chain :: (← locateSlots layout ids false)
    | none, _ =>
      if isFirst then .error (.policy (.missingArea (layout.bodyName id)))
      else locateSlots layout ids false
    | some _, none => .error (.policy (.missingArea (layout.chainName id)))

def build (s : Signer) (layout : SlotLayout) (image : Bytes) (integrity : Bool) (slot : Slot) :
    Except Error (Slot × Bytes) :=
  Except.mapError (Error.withArea (layout.chainName slot.id)) do
    let prepared ←
      s.prepare image slot (layout.bodyName slot.id) (layout.chainName slot.id) integrity
    return (prepared, ← s.chainOf image prepared)

def plan (s : Signer) (layout : SlotLayout) (image : Bytes) :
    Except Error (List (Slot × Bytes)) := do
  let located ← locateSlots layout layout.ids true
  let integrity := s.integrityMode (located.filterMap fun slot => slot.body.slice image)
  located.mapM (s.build layout image integrity)

def writeChain (slot : Slot) (chain : Bytes) : Edit (SignedSlot × Option Bytes) := do
  let image ← get
  unless (Area.mk slot.chain.offset chain.length).fits image do
    throw (.internal .chainAreaOutOfRange)
  let image := image.overwrite slot.chain.offset chain
  set image
  let entry : SignedSlot :=
    { id := slot.id, version := slot.version, flags := slot.flags, bodyLength := slot.bodyLength,
      chainLength := chain.length, digestSigned := slot.metadataHash.isSome }
  return (entry, slot.chain.slice image)

/-- Signs every slot of a layout. All chains are built before the first is written. -/
def sign (s : Signer) (layout : SlotLayout) : Edit SignReport := do
  match s.plan layout (← get) with
  | .error e => throw e
  | .ok chains =>
    let written ← chains.mapM fun (slot, chain) => writeChain slot chain
    return {
      slots := written.map (·.1)
      vblocks := written.filterMap fun (entry, area) => area.map fun bs => (entry.id, bs) }

end Signer
end VerifiedBoot

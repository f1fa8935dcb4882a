/-
Read-write images of embedded controllers. One signature covers the start of the read-write data,
and what follows the signed bytes must be padding. A full image has a flash map that names the
signature, the data and perhaps the public key; a bare one ends with the space for its signature.
-/
import VerifiedBoot.Chain.Signature
import VerifiedBoot.Image.FlashMap

namespace VerifiedBoot

/-! ## Layout -/

/-- Where the parts of a read-write image are. The data do not overlap the signature. -/
structure RwLayout where
  key : Option Area
  signature : Area
  data : Area
deriving DecidableEq, Repr

namespace RwLayout

/-- The space for the signature of a bare image, unless the caller gives another. -/
def defaultSignatureSize : Nat := 1024

def keyName : String := "KEY_RO"

def signatureName : String := "SIG_RW"

def dataName : String := "EC_RW"

/-- The area with a name in an image of `length` bytes, if it is there and has bytes. -/
def presentArea (map : FlashMap) (name : String) (length : Nat) : Option Area :=
  (map.clampedArea name length).filter (!·.isEmpty)

/-- Cuts the data off where the signature starts inside them. -/
def separate (signature data : Area) : Except CodecError Area :=
  if data.offset ≤ signature.offset ∧ signature.offset < data.stop then
    .ok ⟨data.offset, signature.offset - data.offset⟩
  else if signature.offset ≤ data.offset ∧ data.offset < signature.stop then
    .error (.nonCanonical .dataInsideSignature)
  else
    .ok data

/-- The layout that a flash map gives to an image of `length` bytes. -/
def ofMap (map : FlashMap) (length : Nat) : Except Error RwLayout := do
  let some signature := presentArea map signatureName length
    | throw (.policy (.missingArea signatureName))
  let some data := presentArea map dataName length
    | throw (.policy (.missingArea dataName))
  let data ← liftCodec (separate signature data)
  return { key := presentArea map keyName length, signature, data }

/-- The layout of a bare image of `length` bytes. -/
def bare (length signatureSize : Nat) : Except Error RwLayout :=
  if length < signatureSize then
    .error (.codec (.areaTooSmall signatureSize length))
  else
    .ok { key := none, signature := ⟨length - signatureSize, signatureSize⟩,
          data := ⟨0, length - signatureSize⟩ }

/-- The layout of an image: by its flash map if it has one, and else a bare one. -/
def ofImage (image : Bytes) (signatureSize : Nat) : Except Error RwLayout :=
  match FlashMap.find image with
  | some map => ofMap map image.length
  | none => bare image.length signatureSize

end RwLayout

/-! ## Verdicts -/

/-- Why a read-write image is not trusted. -/
inductive RwFailure where
  | signatureMalformed
  | keyUnavailable
  | keyMalformed
  | dataTooLarge
  | signatureInvalid
  | paddingInvalid
deriving DecidableEq, Repr

def RwFailure.text : RwFailure → String
  | signatureMalformed => "signature is malformed"
  | keyUnavailable => "no public key available"
  | keyMalformed => "public key is malformed"
  | dataTooLarge => "signed data is larger than the RW area"
  | signatureInvalid => "signature invalid"
  | paddingInvalid => "data after the signed range is not padding"

/-- The outcome of verifying a read-write image. -/
inductive RwVerdict where
  | trusted (dataSize : Nat) (keyVersion : UInt32)
  | untrusted (failure : RwFailure)
deriving DecidableEq, Repr

def RwVerdict.isTrusted : RwVerdict → Bool
  | trusted _ _ => true
  | untrusted _ => false

def RwVerdict.text : RwVerdict → String
  | trusted dataSize keyVersion =>
    "trusted (" ++ Text.hexNumber dataSize ++ " signed bytes, key version "
      ++ Text.decimal keyVersion.toNat ++ ")"
  | untrusted failure => "untrusted: " ++ failure.text

/-! ## Images -/

/-- A read-write image and where its parts are. -/
structure RwImage where
  bytes : Bytes
  layout : RwLayout
deriving DecidableEq, Repr

namespace RwImage

/-- The byte that follows signed data and records. -/
def padding : UInt8 := 0xFF

def parse (bytes : Bytes) (signatureSize : Nat) : Except Error RwImage := do
  return { bytes, layout := ← RwLayout.ofImage bytes signatureSize }

def part (i : RwImage) (area : Area) : Except Error Bytes :=
  match area.slice i.bytes with
  | some bs => .ok bs
  | none => .error (.internal .dataAreaOutOfRange)

def signature (i : RwImage) : Except Error Signature := do
  liftCodec (Signature.parse (← i.part i.layout.signature))

/-- The public key that the image holds, if it has room for one. -/
def storedKey (i : RwImage) : Option (Except Error PackedKey) :=
  i.layout.key.map fun area => do liftCodec (PackedKey.parse (← i.part area))

/-- The key to verify with: the one that the caller gives, or the stored one. -/
def verificationKey (i : RwImage) (key : Option PackedKey) : Except RwFailure PackedKey :=
  match key, i.storedKey with
  | some key, _ => .ok key
  | none, some (.ok key) => .ok key
  | none, some (.error _) => .error .keyMalformed
  | none, none => .error .keyUnavailable

/-- The signature, if it is one of data. -/
def classicalSignature (i : RwImage) : Except RwFailure Signature :=
  match i.signature with
  | .ok s => if s.kind = .classical then .ok s else .error .signatureMalformed
  | .error _ => .error .signatureMalformed

/-- Makes the checks in order: signature record, key, size, signature, padding. -/
def examine (i : RwImage) (key : Option PackedKey) (primitives : TrustPrimitives) :
    Except RwFailure (Nat × UInt32) := do
  let signature ← i.classicalSignature
  let key ← i.verificationKey key
  (primitives.checkKey key).mapError fun _ => .keyMalformed
  let data ← (i.part i.layout.data).mapError fun _ => .dataTooLarge
  let dataSize := signature.dataSize.toNat
  if data.length < dataSize then
    throw .dataTooLarge
  (signature.verifyData key (data.take dataSize) primitives).mapError fun _ => .signatureInvalid
  if (data.drop dataSize).all (· == padding) then
    return (dataSize, key.version)
  else
    throw .paddingInvalid

def verify (i : RwImage) (key : Option PackedKey) (primitives : TrustPrimitives) : RwVerdict :=
  match i.examine key primitives with
  | .ok (dataSize, keyVersion) => .trusted dataSize keyVersion
  | .error failure => .untrusted failure

end RwImage

/-! ## Signing -/

/-- What the caller asks of the signing of a read-write image. -/
structure RwSignOptions where
  /-- The number of bytes to sign, else as many as were signed before. -/
  dataSize : Option Nat
  /-- The version of the public key that is stored. -/
  keyVersion : UInt32
deriving DecidableEq, Repr

/-- What was done to a read-write image. -/
structure RwSignReport where
  dataSize : Nat
  signature : Signature
  /-- The public key was stored. -/
  keyWritten : Bool
deriving DecidableEq, Repr

def signRwData (data : Bytes) (key : SigningKey) : Except Error Signature := do
  let dataSize ← liftCodec (toLength .rwDataSize data.length)
  return Signature.classical key.algorithm dataSize (← liftTrust (key.sign data))

namespace RwImage

/-- The number of bytes to sign: as asked for, else as before if that fits, else all. -/
def sizeToSign (i : RwImage) (asked : Option Nat) (available : Nat) : Nat :=
  match asked, i.signature with
  | some size, _ => size
  | none, .ok s => if s.dataSize.toNat ≤ available then s.dataSize.toNat else available
  | none, .error _ => available

/-- A record that fits into an area with a name, filled up with padding to its size. -/
def filled (record : Except CodecError Bytes) (area : Area) (name : String) :
    Except Error Bytes :=
  match record with
  | .ok bs =>
    if area.length < bs.length then
      .error (.inArea name (.codec (.areaTooSmall bs.length area.length)))
    else
      .ok (bs.padTo area.length padding)
  | .error e => .error (.codec e)

/-- The contents to write into the areas of signature and key. -/
def plan (i : RwImage) (key : SigningKey) (options : RwSignOptions) :
    Except Error (RwSignReport × Bytes × Option (Area × Bytes)) := do
  let data ← i.part i.layout.data
  let dataSize := i.sizeToSign options.dataSize data.length
  if data.length < dataSize then
    throw (.policy (.bodySizeExceedsArea RwLayout.dataName dataSize data.length))
  let signature ← signRwData (data.take dataSize) key
  let signatureBytes ← filled signature.encode i.layout.signature RwLayout.signatureName
  let keyBytes ← i.layout.key.mapM fun area => do
    let packed : PackedKey :=
      { algorithm := key.algorithm.raw, version := options.keyVersion,
        material := key.publicMaterial }
    return (area, ← filled (.ok packed.toBytes) area RwLayout.keyName)
  return ({ dataSize, signature, keyWritten := keyBytes.isSome }, signatureBytes, keyBytes)

def writeArea (area : Area) (content : Bytes) (fault : InternalFault) :
    EStateM Error Bytes Unit := do
  let image ← get
  unless area.fits image do
    throw (.internal fault)
  set (image.overwrite area.offset content)

/-- Signs the data of an image with a layout, and stores the public key if there is an area for it.
Nothing is written unless both fit. -/
def signIn (layout : RwLayout) (key : SigningKey) (options : RwSignOptions) :
    EStateM Error Bytes RwSignReport := do
  match plan { bytes := ← get, layout } key options with
  | .error e => throw e
  | .ok (report, signatureBytes, keyBytes) =>
    writeArea layout.signature signatureBytes .signatureAreaOutOfRange
    if let some (area, bytes) := keyBytes then
      writeArea area bytes .keyAreaOutOfRange
    return report

/-- Signs an image with the layout that it is parsed with. -/
def sign (key : SigningKey) (signatureSize : Nat) (options : RwSignOptions) :
    EStateM Error Bytes RwSignReport := do
  match parse (← get) signatureSize with
  | .error e => throw e
  | .ok image => signIn image.layout key options

end RwImage
end VerifiedBoot

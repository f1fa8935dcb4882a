/-
Descriptions of images, records and keys for a reader. A listing is a series of lines, and the error
that cuts it short if there is one.
-/
import VerifiedBoot.Image.Firmware
import VerifiedBoot.Image.Kernel
import VerifiedBoot.Image.Kind
import VerifiedBoot.Key.Public

namespace VerifiedBoot

open Text

/-- Lines, and the error that ends them. -/
structure Listing where
  lines : List String
  fault : Option Error
deriving DecidableEq, Repr

namespace Listing

def ofLines (lines : List String) : Listing := ⟨lines, none⟩

def after (lines : List String) (rest : Listing) : Listing := ⟨lines ++ rest.lines, rest.fault⟩

/-- A listing of a value, or the error in its place. -/
def ofResult {α : Type} (result : Except Error α) (describe : α → Listing) : Listing :=
  match result with
  | .ok value => describe value
  | .error e => ⟨[], some e⟩

end Listing

/-! ## Records -/

def PackedKey.summary (key : PackedKey) : String :=
  match PublicKey.ofPacked key with
  | .ok k => "ed25519 v" ++ decimal k.version.toNat ++ " [" ++ k.fingerprint ++ "]"
  | .error _ =>
    "algorithm " ++ decimal key.algorithm.toNat ++ " v" ++ decimal key.version.toNat
      ++ " (unsupported)"

def KeyblockFlags.unknownBits (flags : KeyblockFlags) : UInt32 :=
  flags.bits &&& ~~~ KeyblockFlags.all.bits

/-- The names of the bits that are set; all bits without a name make one number. -/
def KeyblockFlags.names (flags : KeyblockFlags) : List String :=
  (known.filter fun (bit, _) => flags.bits &&& bit == bit).map (·.2)
    ++ (if flags.unknownBits = 0 then [] else [hexNumber flags.unknownBits.toNat])

def KeyblockFlags.describe (flags : KeyblockFlags) : String :=
  let names := if flags.names.isEmpty then "0x0" else String.intercalate " | " flags.names
  "KeyblockFlags(" ++ names ++ ")"

def Keyblock.lines (k : Keyblock) (verbose : Bool) : List String := [
  "  Keyblock:        " ++ hexNumber k.size.toNat ++ " bytes",
  "    Flags:         " ++ k.flags.describe,
  "    Data key:      " ++ k.dataKey.summary] ++
  if verbose then ["    Signature:     " ++ decimal k.signature.blob.length ++ " bytes"] else []

def Preamble.lines (p : Preamble) : List String := [
  "  Preamble:        " ++ hexNumber p.size.toNat ++ " bytes",
  "    Version:       " ++ decimal p.version.toNat,
  "    Flags:         " ++ hexNumber p.flags.toNat,
  "    Body:          " ++ hexNumber p.bodyLength ++ " bytes (" ++ p.bodySignature.kind.name
    ++ " signature)"] ++
  (p.subkey.map fun key => "    Kernel subkey: " ++ key.summary).toList

def TrustChain.lines (c : TrustChain) (verbose : Bool) : List String :=
  c.keyblock.lines verbose ++ c.preamble.lines

def Signature.lines (s : Signature) : List String := [
  "  Algorithm:       " ++ (Algorithm.ofRaw s.algorithm).name,
  "  Data size:       " ++ hexNumber s.dataSize.toNat,
  "  Signature:       " ++ decimal s.blob.length ++ " bytes"]

/-! ## Images -/

def FlashMap.lines (m : FlashMap) : List String :=
  ("FMAP \"" ++ FlashName.text m.name ++ "\" at " ++ hexNumber m.position ++ ", base "
    ++ hexNumber m.base.toNat ++ ", size " ++ hexNumber m.size.toNat)
  :: m.areas.map fun a =>
    "  " ++ padRight 24 (FlashName.text a.name) ++ " " ++ hexWord a.offset.toNat ++ " "
      ++ hexWord a.size.toNat

/-- The lines on the flash map of an image, for a reader who asks for details. -/
def flashMapLines (image : Bytes) (verbose : Bool) : List String :=
  match verbose, FlashMap.find image with
  | true, some map => map.lines ++ [""]
  | _, _ => []

def GbbSummary.lines (g : GbbSummary) : List String := [
  "GBB:",
  "  HWID:            " ++ g.hwid,
  "  Flags:           " ++ hexNumber g.flags.toNat] ++
  (g.rootKey.map fun key => "  Root key:        " ++ key.summary).toList ++
  (g.recoveryKey.map fun key => "  Recovery key:    " ++ key.summary).toList

namespace FirmwareImage

def chainLines (f : FirmwareImage) (verbose : Bool) (id : SlotId) : List String :=
  ((FirmwareComponent.vblock id).name ++ ":") ::
    match f.component? (.vblock id) with
    | none => ["  not present"]
    | some area =>
      match TrustChain.parse area with
      | .ok chain => chain.lines verbose
      | .error e => ["  " ++ e.message]

def lines (f : FirmwareImage) (verbose : Bool) : List String :=
  (match f.gbb with
    | .ok gbb => gbb.lines
    | .error e => ["GBB: " ++ e.message])
  ++ SlotId.all.flatMap (f.chainLines verbose)

end FirmwareImage

def KernelImage.listing (k : KernelImage) (verbose : Bool) : Listing :=
  .after [
    "Kernel:",
    "  Header:          " ++ hexNumber k.headerSize.toNat ++ " bytes",
    "  Body:            " ++ hexNumber k.bodySize.toNat ++ " bytes"]
    (.ofResult k.chain fun chain => .ofLines (chain.lines verbose))

namespace RwImage

def keyLines (i : RwImage) : List String :=
  (i.storedKey.map fun
    | .ok key => "RO key:            " ++ key.summary
    | .error e => "RO key:            " ++ e.message).toList

def signatureLines (i : RwImage) : List String :=
  "RW signature:" ::
    match i.signature with
    | .ok s => s.lines
    | .error e => ["  " ++ e.message]

/-- The lines on a read-write image. The verdict is told if the image has room for a key. -/
def lines (i : RwImage) : List String :=
  ["RW data:           " ++ hexNumber i.layout.data.length ++ " bytes at "
    ++ hexNumber i.layout.data.offset]
  ++ i.keyLines ++ i.signatureLines
  ++ if i.layout.key.isSome then ["RW image: " ++ (i.verify none .software).text] else []

end RwImage

/-! ## Anything -/

def describeRecord (bytes : Bytes) (verbose : Bool) : Listing :=
  match TrustChain.parse bytes, Keyblock.parse bytes, PublicKey.ofBytes bytes,
      Signature.parse bytes with
  | .ok chain, _, _, _ => .ofLines (chain.lines verbose)
  | _, .ok keyblock, _, _ => .ofLines (keyblock.lines verbose)
  | _, _, .ok key, _ => .ofLines ["Public key: " ++ key.toPacked.summary]
  | _, _, _, .ok s => .ofLines ("Signature:" :: s.lines)
  | _, _, _, _ => ⟨[], some .unsupportedImage⟩

/-- The listing of an image, a record or a key. -/
def describeBytes (bytes : Bytes) (verbose : Bool) : Listing :=
  match ImageKind.ofImage bytes with
  | .firmware =>
    .after (flashMapLines bytes verbose)
      (.ofResult (FirmwareImage.parse bytes) fun f => .ofLines (f.lines verbose))
  | .kernel => .ofResult (KernelImage.parse bytes) fun k => k.listing verbose
  | .readWrite =>
    .after (flashMapLines bytes verbose)
      (.ofResult (RwImage.parse bytes RwLayout.defaultSignatureSize) fun i => .ofLines i.lines)
  | .unknown => describeRecord bytes verbose

end VerifiedBoot

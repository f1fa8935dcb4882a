/-
What an image is, as far as its first bytes, its flash map or its end tell.
-/
import VerifiedBoot.Image.Kernel
import VerifiedBoot.Image.RwImage

namespace VerifiedBoot

/-- The kinds of images. -/
inductive ImageKind where
  | firmware
  | kernel
  | readWrite
  | unknown
deriving DecidableEq, Repr

namespace ImageKind

def namesAll (map : FlashMap) (names : List String) : Bool :=
  names.all fun name => (map.findArea name).isSome

def ofMap (map : FlashMap) : ImageKind :=
  if namesAll map ["GBB", "FW_MAIN_A", "VBLOCK_A"] then .firmware
  else if namesAll map [RwLayout.signatureName, RwLayout.dataName] then .readWrite
  else .unknown

/-- Whether an image ends with the signature of bytes before it. -/
def endsWithSignature (image : Bytes) : Bool :=
  if image.length < RwLayout.defaultSignatureSize then false
  else
    let size := image.length - RwLayout.defaultSignatureSize
    match Signature.parse (image.drop size) with
    | .ok s => s.kind == .classical && !s.blob.isEmpty && decide (s.dataSize.toNat ≤ size)
    | .error _ => false

def ofImage (image : Bytes) : ImageKind :=
  if KernelImage.magic.isPrefixOf image then .kernel
  else match FlashMap.find image with
    | some map => ofMap map
    | none => if endsWithSignature image then .readWrite else .unknown

end ImageKind
end VerifiedBoot

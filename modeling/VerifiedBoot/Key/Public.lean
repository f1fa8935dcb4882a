/-
Ed25519 public keys with their version, and the forms they come in: the packed form, DER, and PEM
text. The packed form alone carries a version.
-/
import VerifiedBoot.Digest.Sha256
import VerifiedBoot.Key.Packed
import VerifiedBoot.Text.Pem
import VerifiedBoot.Text.Utf8

namespace VerifiedBoot

/-- An Ed25519 public key and its version. -/
structure PublicKey where
  material : ByteBlock 32
  version : UInt32
deriving DecidableEq

namespace PublicKey

/-! ## Packed form -/

def toPacked (k : PublicKey) : PackedKey :=
  { algorithm := Algorithm.ed25519.raw, version := k.version, material := k.material.bytes }

def ofMaterial (material : Bytes) (version : UInt32) (e : SchemeError) : Except Error PublicKey :=
  if h : material.length = 32 then .ok ⟨⟨material, h⟩, version⟩
  else .error (.trust (.scheme e))

def ofPacked (packed : PackedKey) : Except Error PublicKey :=
  if packed.algorithm = Algorithm.ed25519.raw then
    ofMaterial packed.material packed.version .invalidPublicKey
  else
    .error .unsupportedKeyType

def toBytes (k : PublicKey) : Bytes := k.toPacked.toBytes

/-- Reads the bytes of a key file, which hold a packed key and nothing else. -/
def ofBytes (bs : Bytes) : Except Error PublicKey := do
  let packed ← liftCodec (PackedKey.parse bs)
  if packed.byteLength ≠ bs.length then
    throw .unreadable
  ofPacked packed

/-! ## DER and PEM -/

/-- The bytes before the material in the DER form. -/
def derHeader : Bytes := [0x30, 0x2a, 0x30, 0x05, 0x06, 0x03, 0x2b, 0x65, 0x70, 0x03, 0x21, 0x00]

def pemLabel : String := "PUBLIC KEY"

def toDer (k : PublicKey) : Bytes := derHeader ++ k.material.bytes

def ofDer (der : Bytes) (version : UInt32) : Except Error PublicKey :=
  if der.take derHeader.length = derHeader then
    ofMaterial (der.drop derHeader.length) version .unreadable
  else
    .error (.trust (.scheme .unreadable))

def toPem (k : PublicKey) : List Char := Pem.encode pemLabel k.toDer

def ofPem (text : List Char) (version : UInt32) : Except Error PublicKey :=
  match Pem.decode pemLabel text with
  | some der => ofDer der version
  | none => .error (.trust (.scheme .unreadable))

/-! ## Any form -/

/-- Reads a key in any form. One without a version gets version 1. -/
def ofAny (bs : Bytes) : Except Error PublicKey :=
  (ofBytes bs).orElseLazy fun _ =>
    (ofDer bs 1).orElseLazy fun _ =>
      match Utf8.decodeChars? bs with
      | some text => (ofPem text 1).mapError fun _ => .unreadable
      | none => .error .unreadable

/-! ## Identification -/

def fingerprint (k : PublicKey) : String :=
  Text.hexBytes ((sha256 k.material.bytes).bytes.take 8)

def describe (k : PublicKey) : String :=
  "PublicKey \x7b [" ++ Text.hexBytes k.material.bytes ++ "] - key_version: "
    ++ Text.decimal k.version.toNat ++ " \x7d"

end PublicKey
end VerifiedBoot

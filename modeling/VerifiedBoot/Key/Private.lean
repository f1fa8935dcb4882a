/-
Ed25519 private keys, and the forms they come in: the key file, DER, and PEM text. A private key
is a seed followed by its public half. Only the file holds both; the other forms hold the seed.
-/
import VerifiedBoot.Key.Public
import VerifiedBoot.Trust

namespace VerifiedBoot

/-- A seed and its public half. -/
structure PrivateKey where
  secret : ByteBlock 64
deriving DecidableEq

namespace PrivateKey

def seed (k : PrivateKey) : Bytes := k.secret.bytes.take 32

/-- The public half, as it is stored. -/
def publicMaterial (k : PrivateKey) : ByteBlock 32 :=
  ⟨k.secret.bytes.drop 32, by simp [k.secret.length_eq]⟩

def publicKey (k : PrivateKey) (version : UInt32) : PublicKey := ⟨k.publicMaterial, version⟩

/-! ## Key files -/

def fileMark : UInt8 := 0x81

def toBytes (k : PrivateKey) : Bytes := fileMark :: k.secret.bytes

def ofBytes : Bytes → Except Error PrivateKey
  | [] => .error .unreadable
  | mark :: raw =>
    if mark ≠ fileMark then .error .unsupportedKeyType
    else if h : raw.length = 64 then .ok ⟨⟨raw, h⟩⟩
    else .error (.trust (.scheme .invalidSecretKey))

/-! ## DER and PEM -/

def derHeader : Bytes :=
  [0x30, 0x2e, 0x02, 0x01, 0x00, 0x30, 0x05, 0x06, 0x03, 0x2b, 0x65, 0x70, 0x04, 0x22, 0x04, 0x20]

def pemLabel : String := "PRIVATE KEY"

def ofSeed (seed : Bytes) : PrivateKey :=
  ⟨ByteBlock.ofBytes 64 (seed ++ Ed25519.publicOfSeed seed)⟩

def toDer (k : PrivateKey) : Bytes := derHeader ++ k.seed

def ofDer (der : Bytes) : Except Error PrivateKey :=
  let seed := der.drop derHeader.length
  if der.take derHeader.length ≠ derHeader ∨ seed.length ≠ 32 then
    .error (.trust (.scheme .unreadable))
  else if seed.all (· == 0) then
    .error (.trust (.scheme .invalidSeed))
  else
    .ok (ofSeed seed)

def toPem (k : PrivateKey) : List Char := Pem.encode pemLabel k.toDer

def ofPem (text : List Char) : Except Error PrivateKey :=
  match Pem.decode pemLabel text with
  | some der => ofDer der
  | none => .error (.trust (.scheme .unreadable))

def ofAny (bs : Bytes) : Except Error PrivateKey :=
  (ofBytes bs).orElseLazy fun _ =>
    (ofDer bs).orElseLazy fun _ =>
      match Utf8.decodeChars? bs with
      | some text => ofPem text
      | none => .error .unreadable

/-! ## Use -/

def toSigningKey (k : PrivateKey) : SigningKey where
  algorithm := .ed25519
  signatureSize := Software.signatureSize
  publicMaterial := k.publicMaterial.bytes
  sign data := .ok (Ed25519.sign k.seed k.publicMaterial.bytes data)

def describe (k : PrivateKey) : String :=
  "PrivateKey \x7b [" ++ (k.publicKey 0).fingerprint ++ "] \x7d"

end PrivateKey
end VerifiedBoot

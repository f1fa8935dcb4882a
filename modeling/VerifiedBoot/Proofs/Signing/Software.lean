/-
Signers that software trusts. The software primitives take a signature only under a usable key, so
that whatever the data key has signed shows that it is usable. A key that checks its own signatures
before it hands them out makes no others, whatever it is asked to sign.
-/
import VerifiedBoot.Key.Private
import VerifiedBoot.Proofs.Signing.Verified

namespace VerifiedBoot

theorem Software.checkKey_of_verify {key : PackedKey} {data blob : Bytes}
    (h : verify key data blob = .ok ()) : checkKey key = .ok () := by
  unfold verify at h
  rw [bind_eq_ok] at h
  obtain ⟨⟨⟩, usable, -⟩ := h
  exact usable

namespace Signer

/-- The software primitives accept what the data key signs, and under `root` the keyblock. -/
structure SoftwareTrusted (s : Signer) (root : PackedKey) : Prop where
  keyVersion : s.keyblock.dataKey.version ≤ maxKeyVersion
  accepts : ∀ data blob, s.dataKey.sign data = .ok blob →
    Software.verify s.keyblock.dataKey data blob = .ok ()
  keyblockSigned : s.keyblock.verifySignature root .software = .ok ()

/-- Once a chain is built, the data key has signed its preamble, and that shows that it is usable. -/
theorem SoftwareTrusted.trustedUnder {s : Signer} {root : PackedKey} {signed bs : Bytes}
    {version : UInt16} {flags : UInt32} {preamble : Preamble} (h : s.SoftwareTrusted root)
    (software : s.primitives = .software)
    (chain : s.SignedChain signed version flags preamble bs) : s.TrustedUnder root := by
  obtain ⟨-, covered, -, madeBy⟩ := Preamble.create_ok chain.created
  have usable := Software.checkKey_of_verify (h.accepts _ _ madeBy.signed)
  constructor
  · rw [software]
    exact usable
  · exact h.keyVersion
  · intro data blob hblob
    rw [software]
    exact h.accepts data blob hblob
  · rw [software]
    exact h.keyblockSigned

/-- The same once a slot of an image is signed. -/
theorem SoftwareTrusted.trustedUnder_of_sign {s : Signer} {root : PackedKey} {layout : SlotLayout}
    {image image' : Bytes} {report : SignReport} {entry : SignedSlot} (h : s.SoftwareTrusted root)
    (software : s.primitives = .software) (apart : layout.ChainsApart)
    (signed : s.sign layout image = .ok report image') (hentry : entry ∈ report.slots) :
    s.TrustedUnder root := by
  obtain ⟨_, built, _, -, hbuilt, -⟩ := built_of_mem_report signed apart hentry
  obtain ⟨_, preamble, -, -, chain⟩ := hbuilt.signedChain
  exact h.trustedUnder software chain

end Signer

/-! ## Keys that check what they sign -/

/-- Hands a signature out only after software has accepted it under a public key. -/
def SigningKey.checkedUnder (key : SigningKey) (packed : PackedKey) : SigningKey :=
  { key with
    sign := fun data => do
      let blob ← key.sign data
      Software.verify packed data blob
      return blob }

theorem SigningKey.verify_of_checkedUnder {key : SigningKey} {packed : PackedKey} {data blob : Bytes}
    (h : (key.checkedUnder packed).sign data = .ok blob) :
    Software.verify packed data blob = .ok () := by
  simp only [checkedUnder, bind_eq_ok, pure_eq_ok] at h
  obtain ⟨_, -, ⟨⟩, accepted, rfl⟩ := h
  exact accepted

/-! ## A root key and a data key -/

namespace Signer

/-- The private key whose seed is 32 ones. -/
def softwareRoot : PrivateKey :=
  ⟨⟨List.replicate 32 1 ++ [138, 136, 227, 221, 116, 9, 241, 149, 253, 82, 219, 45, 60, 186, 93, 114,
    202, 103, 9, 191, 29, 148, 18, 27, 243, 116, 136, 1, 180, 15, 111, 92], by decide⟩⟩

/-- The private key whose seed is 32 twos. -/
def softwareDataKey : PrivateKey :=
  ⟨⟨List.replicate 32 2 ++ [129, 57, 119, 14, 168, 125, 23, 95, 86, 163, 84, 102, 195, 76, 126, 204,
    203, 141, 138, 145, 180, 238, 55, 162, 93, 246, 15, 91, 143, 201, 179, 148], by decide⟩⟩

/-- The keyblock of the data key in its fifth version, for every boot mode. -/
def softwareKeyblock : Keyblock where
  headerVersion := 1
  size := 173
  flags := .all
  dataKey := (softwareDataKey.publicKey 5).toPacked
  checksum := ⟨[107, 2, 129, 4, 137, 109, 19, 218, 33, 49, 22, 252, 108, 248, 217, 98, 61, 224, 5, 28,
    86, 112, 168, 244, 65, 101, 54, 209, 157, 128, 112, 43], by decide⟩
  signature := ⟨.classical, 1, 96, [35, 66, 151, 150, 187, 223, 163, 16, 72, 229, 157, 69, 135, 11, 212,
    79, 33, 213, 197, 230, 73, 192, 208, 26, 142, 237, 60, 219, 86, 160, 17, 24, 250, 255, 184, 207, 66,
    95, 200, 3, 229, 132, 192, 84, 140, 193, 203, 132, 101, 9, 144, 193, 87, 196, 203, 107, 237, 116,
    191, 59, 28, 187, 17, 12]⟩

/-- Signs raw bodies as version 3 with flags, and with a key for the next stage. -/
def softwareSigner : Signer where
  keyblock := softwareKeyblock
  dataKey := softwareDataKey.toSigningKey.checkedUnder softwareKeyblock.dataKey
  options := { SignOptions.none with version := some 3, flags := some 8, subkey := some ⟨1, 2, [6, 6]⟩ }
  primitives := .software
  payload := .raw

def softwareSource : ChainSource :=
  .fresh softwareRoot.toSigningKey softwareKeyblock.dataKey .all

/-- The public half of the root key. -/
def softwareRootKey : PackedKey := (softwareRoot.publicKey 1).toPacked

theorem create_softwareKeyblock :
    Keyblock.create softwareKeyblock.dataKey .all softwareRoot.toSigningKey = .ok softwareKeyblock := by
  decide +kernel

theorem make_softwareSigner : make softwareSource softwareSigner.dataKey softwareSigner.options
    .software .raw = .ok softwareSigner := by
  simp only [make, softwareSource, ChainSource.keyblock, create_softwareKeyblock]
  rfl

theorem softwareTrusted_softwareSigner : softwareSigner.SoftwareTrusted softwareRootKey where
  keyVersion := by decide
  accepts := fun _ _ h => SigningKey.verify_of_checkedUnder h
  keyblockSigned := by decide +kernel

end Signer
end VerifiedBoot

/-
Verdicts. A slot is trusted, with the facts established about it, or it is not, with the reason and
the last stage that was reached.
-/
import VerifiedBoot.Chain.Keyblock

namespace VerifiedBoot

inductive Stage where
  | start
  | keyblockChecksumOk
  | keyblockSigVerified
  | dataKeyValid
  | preambleSigVerified
  | bodyVerified
deriving DecidableEq, Repr

def Stage.rank : Stage → Nat
  | start => 0
  | keyblockChecksumOk => 1
  | keyblockSigVerified => 2
  | dataKeyValid => 3
  | preambleSigVerified => 4
  | bodyVerified => 5

def Stage.text : Stage → String
  | start => "start"
  | keyblockChecksumOk => "keyblock checksum ok"
  | keyblockSigVerified => "keyblock signature verified"
  | dataKeyValid => "data key valid"
  | preambleSigVerified => "preamble signature verified"
  | bodyVerified => "body verified"

inductive UntrustedReason where
  | missingArea
  | keyblockMalformed
  | checksumMismatch
  | keyblockSignatureInvalid
  | keyblockFlagsMismatch
  | dataKeyMalformed
  | preambleMalformed
  | preambleSignatureInvalid
  | rollbackRejected
  | bodyTooLarge
  | bodySignatureInvalid
  | rootKeyUnavailable
deriving DecidableEq, Repr

def UntrustedReason.text : UntrustedReason → String
  | missingArea => "area missing"
  | keyblockMalformed => "keyblock is malformed"
  | checksumMismatch => "keyblock checksum mismatch"
  | keyblockSignatureInvalid => "keyblock signature invalid"
  | keyblockFlagsMismatch => "keyblock flags do not allow this boot mode"
  | dataKeyMalformed => "data key is malformed"
  | preambleMalformed => "preamble is malformed"
  | preambleSignatureInvalid => "preamble signature invalid"
  | rollbackRejected => "version is below the minimum"
  | bodyTooLarge => "signed body is larger than its area"
  | bodySignatureInvalid => "body signature invalid"
  | rootKeyUnavailable => "root key unavailable"

/-- The facts established about a trusted slot. -/
structure TrustedSlot where
  version : UInt16
  flags : UInt32
  keyVersion : UInt32
  bodyLength : Nat
  keyblockFlags : KeyblockFlags
  dataKey : PackedKey
  subkey : Option PackedKey
deriving DecidableEq, Repr

/-- The rollback version: the key version above the body version. -/
def TrustedSlot.combinedVersion (s : TrustedSlot) : UInt32 :=
  (s.keyVersion <<< 16) ||| s.version.toUInt32

inductive Verdict where
  | trusted (slot : TrustedSlot)
  | untrusted (reason : UntrustedReason) (stage : Stage)
deriving DecidableEq, Repr

namespace Verdict

/-- The verdict on a slot whose areas are not there. -/
def missing : Verdict := .untrusted .missingArea .start

def isTrusted : Verdict → Bool
  | trusted _ => true
  | untrusted _ _ => false

/-- Whether the areas of a slot are not there. -/
def isMissing : Verdict → Bool
  | untrusted .missingArea _ => true
  | _ => false

def stage : Verdict → Stage
  | trusted _ => .bodyVerified
  | untrusted _ stage => stage

def reason? : Verdict → Option UntrustedReason
  | trusted _ => none
  | untrusted reason _ => some reason

def slot? : Verdict → Option TrustedSlot
  | trusted slot => some slot
  | untrusted _ _ => none

def text : Verdict → String
  | trusted slot =>
    "trusted (version " ++ Text.decimal slot.version.toNat ++ ", flags "
      ++ Text.hexNumber slot.flags.toNat ++ ", key version " ++ Text.decimal slot.keyVersion.toNat
      ++ ", " ++ Text.decimal slot.bodyLength ++ " body bytes)"
  | untrusted reason stage => "untrusted: " ++ reason.text ++ " (reached: " ++ stage.text ++ ")"

end Verdict
end VerifiedBoot

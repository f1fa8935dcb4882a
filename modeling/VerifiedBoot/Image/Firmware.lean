/-
Firmware images. A flash map names five components: the GBB with the root key, and for each of two
slots a body and the trust chain that signs it. A slot that lacks an area is missing; the image is
good if slot A is trusted, and slot B is trusted or missing.
-/
import VerifiedBoot.Image.FlashMap
import VerifiedBoot.Image.Gbb
import VerifiedBoot.Signer
import VerifiedBoot.Verifier

namespace VerifiedBoot

/-! ## Components -/

/-- What a component of a firmware image is. -/
inductive ComponentKind where
  | gbb
  | firmwareBody
  | trustChain
deriving DecidableEq, Repr

/-- A component of a firmware image. -/
inductive FirmwareComponent where
  | gbb
  | body (id : SlotId)
  | vblock (id : SlotId)
deriving DecidableEq, Repr

namespace FirmwareComponent

/-- All components; bodies come before the chains that sign them. -/
def all : List FirmwareComponent := [.gbb, .body .a, .body .b, .vblock .a, .vblock .b]

def name : FirmwareComponent → String
  | gbb => "GBB"
  | body .a => "FW_MAIN_A"
  | body .b => "FW_MAIN_B"
  | vblock .a => "VBLOCK_A"
  | vblock .b => "VBLOCK_B"

def kind : FirmwareComponent → ComponentKind
  | gbb => .gbb
  | body _ => .firmwareBody
  | vblock _ => .trustChain

def slot? : FirmwareComponent → Option SlotId
  | gbb => none
  | body id => some id
  | vblock id => some id

end FirmwareComponent

/-! ## Images -/

/-- What a GBB holds. -/
structure GbbSummary where
  area : Area
  hwid : String
  flags : UInt32
  rootKey : Option PackedKey
  recoveryKey : Option PackedKey
deriving DecidableEq, Repr

/-- The verdicts on the slots of a firmware image. -/
structure FirmwareReport where
  gbb : Option GbbSummary
  verdict : SlotId → Verdict

/-- Whether an image may be used: slot A is trusted, and slot B is trusted or missing. -/
def FirmwareReport.isSuccess (r : FirmwareReport) : Bool :=
  (r.verdict .a).isTrusted && ((r.verdict .b).isTrusted || (r.verdict .b).isMissing)

/-- A firmware image and where its components are. A component that the flash map does not name
has no area; one that does not fit into the image has an empty one. -/
structure FirmwareImage where
  bytes : Bytes
  area : FirmwareComponent → Option Area

namespace FirmwareImage

/-- An image with the areas that a flash map gives it. -/
def ofMap (map : FlashMap) (bytes : Bytes) : FirmwareImage :=
  { bytes, area := fun c => map.clampedArea c.name bytes.length }

def parse (bytes : Bytes) : Except Error FirmwareImage :=
  match FlashMap.find bytes with
  | some map => .ok (ofMap map bytes)
  | none => .error .unsupportedImage

def component? (f : FirmwareImage) (c : FirmwareComponent) : Option Bytes := do
  (← f.area c).slice f.bytes

def present? (f : FirmwareImage) (c : FirmwareComponent) : Option Bytes :=
  (f.component? c).filter (!·.isEmpty)

def layout (f : FirmwareImage) : SlotLayout where
  ids := SlotId.all
  bodyName id := (FirmwareComponent.body id).name
  chainName id := (FirmwareComponent.vblock id).name
  bodyArea id := f.area (.body id)
  chainArea id := f.area (.vblock id)

def gbb (f : FirmwareImage) : Except Error GbbSummary := do
  let missing : Error := .policy (.missingArea FirmwareComponent.gbb.name)
  let some area := (f.area .gbb).filter (!·.isEmpty) | throw missing
  let some bytes := area.slice f.bytes | throw missing
  let gbb ← liftCodec (Gbb.parse bytes)
  return {
    area
    hwid := gbb.hwid
    flags := gbb.header.flags
    rootKey := gbb.rootKey.toOption
    recoveryKey := gbb.recoveryKey.toOption }

end FirmwareImage

/-! ## Verifying and signing -/

/-- What the verification of a firmware image has found so far. -/
structure FirmwareSurvey where
  gbb : Option GbbSummary
  rootKey : Option PackedKey
  /-- The bodies with bytes among those that were looked at. -/
  body : SlotId → Option Bytes
  verdict : SlotId → Verdict

namespace FirmwareSurvey

/-- Before the first component: no key but the one that the caller gives, and no slot. -/
def start (options : VerifyOptions) : FirmwareSurvey where
  gbb := none
  rootKey := options.rootKey
  body _ := none
  verdict _ := .missing

/-- A key that is known already is not replaced by the one in the GBB. -/
def addGbb (s : FirmwareSurvey) (summary : GbbSummary) : FirmwareSurvey :=
  { s with gbb := some summary, rootKey := s.rootKey <|> summary.rootKey }

def setBody (s : FirmwareSurvey) (id : SlotId) (body : Option Bytes) : FirmwareSurvey :=
  { s with body := fun id' => if id' = id then body else s.body id' }

def setVerdict (s : FirmwareSurvey) (id : SlotId) (verdict : Verdict) : FirmwareSurvey :=
  { s with verdict := fun id' => if id' = id then verdict else s.verdict id' }

end FirmwareSurvey

namespace FirmwareImage

/-- The verdict on a slot that is there, by the root key if one is known. -/
def judgeWith (options : VerifyOptions) (payload : PayloadFormat) (chain body : Bytes) :
    Option PackedKey → Verdict
  | some key => Verifier.judge ⟨options, .software, payload⟩ key chain body
  | none => .untrusted .rootKeyUnavailable .start

/-- Takes a component into account, if the image has an area for it. -/
def visit (f : FirmwareImage) (options : VerifyOptions) (payload : PayloadFormat)
    (s : FirmwareSurvey) (c : FirmwareComponent) : FirmwareSurvey :=
  match f.area c with
  | none => s
  | some _ =>
    match c with
    | .gbb =>
      match f.gbb with
      | .ok summary => s.addGbb summary
      | .error _ => s
    | .body id => s.setBody id (f.present? (.body id))
    | .vblock id =>
      match f.present? (.vblock id), s.body id with
      | some chain, some body => s.setVerdict id (judgeWith options payload chain body s.rootKey)
      | _, _ => s

def verify (f : FirmwareImage) (options : VerifyOptions) (payload : PayloadFormat) :
    FirmwareReport :=
  let survey := FirmwareComponent.all.foldl (f.visit options payload) (.start options)
  { gbb := survey.gbb, verdict := survey.verdict }

def sign (signer : Signer) : Signer.Edit SignReport := do
  match parse (← get) with
  | .ok image => signer.sign image.layout
  | .error e => throw e

end FirmwareImage
end VerifiedBoot

/-
Signing profiles. A profile collects the key files and the options with which a family of images is
signed. It is written as TOML with one table for the keys, one for firmware, one for kernels, and
one that says where trust chains are written for separate distribution. Reading takes every setting
as optional but the id of those chains, and passes over what it does not know.
-/
import VerifiedBoot.Files.Path
import VerifiedBoot.Signer
import VerifiedBoot.Text.Utf8
import VerifiedBoot.Toml.Document
import VerifiedBoot.Toml.Render

namespace VerifiedBoot

/-! ## What a profile holds -/

/-- Key files. -/
structure KeyPaths where
  /-- The data private key, which signs bodies and preambles. -/
  dataPrivate : Option String
  /-- A keyblock to reuse. -/
  keyblock : Option String
  /-- The private key that signs a new keyblock. -/
  rootPrivate : Option String
  /-- The data public key to put into a new keyblock. -/
  dataPublic : Option String
  kernelSubkey : Option String
deriving DecidableEq, Repr

/-- Options for firmware images. -/
structure FirmwareProfile where
  version : Option UInt16
  flags : Option UInt32
  /-- The flags of a new keyblock. -/
  keyblockFlags : Option UInt32
  integrity : IntegrityPolicy
  /-- The signed length of the body of slot A. -/
  lengthA : Option UInt64
  /-- The signed length of the body of slot B. -/
  lengthB : Option UInt64
deriving DecidableEq, Repr

/-- Options for kernel images. -/
structure KernelProfile where
  version : Option UInt16
  flags : Option UInt32
  /-- The flags of a new keyblock. -/
  keyblockFlags : Option UInt32
  /-- The size of the header of a new image. -/
  padding : Option UInt64
deriving DecidableEq, Repr

/-- Where the trust chains of the slots are written. -/
structure ChainExport where
  directory : String
  id : String
deriving DecidableEq, Repr

/-- A signing profile. -/
structure Profile where
  keys : KeyPaths
  firmware : FirmwareProfile
  kernel : KernelProfile
  chainExport : Option ChainExport
deriving DecidableEq, Repr

def KeyPaths.none : KeyPaths := ⟨.none, .none, .none, .none, .none⟩

def FirmwareProfile.none : FirmwareProfile := ⟨.none, .none, .none, .auto, .none, .none⟩

def KernelProfile.none : KernelProfile := ⟨.none, .none, .none, .none⟩

def Profile.none : Profile := ⟨.none, .none, .none, .none⟩

/-! ## What follows from it -/

/-- The flags of a new keyblock; all of them if none are given. -/
def keyblockFlagsOf (flags : Option UInt32) : KeyblockFlags := flags.elim .all KeyblockFlags.mk

/-- What a profile asks of the signing of firmware. -/
def FirmwareProfile.signOptions (p : FirmwareProfile) : SignOptions where
  version := p.version
  flags := p.flags
  subkey := .none
  integrity := p.integrity
  bodyLength
    | .a => p.lengthA.map (·.toNat)
    | .b => p.lengthB.map (·.toNat)

/-- What a profile asks of the signing of kernels. -/
def KernelProfile.signOptions (p : KernelProfile) : SignOptions :=
  { SignOptions.none with version := p.version, flags := p.flags }

def ChainExport.path (e : ChainExport) (id : SlotId) : String :=
  Path.join e.directory ("vblock_" ++ id.letter ++ "." ++ e.id)

/-! ## Writing -/

def IntegrityPolicy.name : IntegrityPolicy → String
  | auto => "auto"
  | required => "required"
  | disabled => "disabled"

namespace Profile

open Toml

/-- A setting that holds a text, if there is one. -/
def textSetting (key : String) (text : Option String) : List (String × Setting) :=
  (text.map fun t => (key, Setting.text t)).toList

/-- A setting that holds a number, if there is one. -/
def numberSetting (key : String) (n : Option Nat) : List (String × Setting) :=
  (n.map fun n => (key, Setting.number n)).toList

def toTables (p : Profile) : List SettingTable := [
  ⟨"keys",
    textSetting "signprivate" p.keys.dataPrivate ++ textSetting "keyblock" p.keys.keyblock
      ++ textSetting "root_private" p.keys.rootPrivate
      ++ textSetting "data_public" p.keys.dataPublic
      ++ textSetting "kernel_subkey" p.keys.kernelSubkey⟩,
  ⟨"firmware",
    numberSetting "version" (p.firmware.version.map (·.toNat))
      ++ numberSetting "flags" (p.firmware.flags.map (·.toNat))
      ++ numberSetting "keyblock_flags" (p.firmware.keyblockFlags.map (·.toNat))
      ++ textSetting "integrity" (some p.firmware.integrity.name)
      ++ numberSetting "fv_size_a" (p.firmware.lengthA.map (·.toNat))
      ++ numberSetting "fv_size_b" (p.firmware.lengthB.map (·.toNat))⟩,
  ⟨"kernel",
    numberSetting "version" (p.kernel.version.map (·.toNat))
      ++ numberSetting "flags" (p.kernel.flags.map (·.toNat))
      ++ numberSetting "keyblock_flags" (p.kernel.keyblockFlags.map (·.toNat))
      ++ numberSetting "padding" (p.kernel.padding.map (·.toNat))⟩] ++
  (p.chainExport.map fun e =>
    ⟨"loem", textSetting "dir" (some e.directory) ++ textSetting "id" (some e.id)⟩).toList

/-- A profile as it is written. This fails for sizes that no TOML integer can hold. -/
def render (p : Profile) : Except Error String :=
  match SettingTable.renderAll? p.toTables with
  | some text => .ok (String.ofList text)
  | .none => .error .profile

end Profile

/-! ## Reading -/

namespace Toml.Value

/-- Whether a value can be read as a record. A list gives the fields in their order; a date has
parts of its own, none of them a field. -/
def isRecord : Value → Bool
  | .table .. | .array _ | .tables _ | .dateTime => true
  | _ => false

/-- The value of the field of a record at a position and under a name. -/
def field? (v : Value) (position : Nat) (name : String) : Option Value :=
  match v with
  | .table _ entries => entries.lookup name
  | .array items => items[position]?
  | .tables items => items[position]?.map (.table .header)
  | _ => none

def text? : Value → Option String
  | .string text => some text
  | _ => none

def number? (bound : Nat) : Value → Option Nat
  | .integer n => if 0 ≤ n ∧ n < bound then some n.toNat else none
  | _ => none

def isEmpty : Value → Bool
  | .table _ entries => entries.isEmpty
  | .array items => items.isEmpty
  | .tables items => items.isEmpty
  | _ => false

/-- The name that a value stands for: a text, or the only key of a table, under which there is
nothing. -/
def name? : Value → Option String
  | .string text => some text
  | .table _ [(name, value)] => if value.isEmpty then some name else none
  | _ => none

def optional {α : Type} (v : Value) (position : Nat) (name : String) (read : Value → Option α) :
    Option (Option α) :=
  match v.field? position name with
  | none => some none
  | some value => (read value).map some

def withDefault {α : Type} (v : Value) (position : Nat) (name : String) (read : Value → Option α)
    (default : α) : Option α :=
  (v.optional position name read).map (·.getD default)

end Toml.Value

open Toml

def IntegrityPolicy.ofName? (name : String) : Option IntegrityPolicy :=
  [auto, required, disabled].find? (·.name == name)

def IntegrityPolicy.ofValue? (v : Value) : Option IntegrityPolicy := v.name?.bind ofName?

def KeyPaths.ofValue? (v : Value) : Option KeyPaths := do
  guard v.isRecord
  return {
    dataPrivate := ← v.optional 0 "signprivate" Value.text?
    keyblock := ← v.optional 1 "keyblock" Value.text?
    rootPrivate := ← v.optional 2 "root_private" Value.text?
    dataPublic := ← v.optional 3 "data_public" Value.text?
    kernelSubkey := ← v.optional 4 "kernel_subkey" Value.text? }

def Toml.Value.word16? (v : Value) : Option UInt16 := (v.number? word16Bound).map UInt16.ofNat

def Toml.Value.word32? (v : Value) : Option UInt32 := (v.number? word32Bound).map UInt32.ofNat

def Toml.Value.word64? (v : Value) : Option UInt64 := (v.number? sizeBound).map UInt64.ofNat

def FirmwareProfile.ofValue? (v : Value) : Option FirmwareProfile := do
  guard v.isRecord
  return {
    version := ← v.optional 0 "version" Value.word16?
    flags := ← v.optional 1 "flags" Value.word32?
    keyblockFlags := ← v.optional 2 "keyblock_flags" Value.word32?
    integrity := ← v.withDefault 3 "integrity" IntegrityPolicy.ofValue? .auto
    lengthA := ← v.optional 4 "fv_size_a" Value.word64?
    lengthB := ← v.optional 5 "fv_size_b" Value.word64? }

def KernelProfile.ofValue? (v : Value) : Option KernelProfile := do
  guard v.isRecord
  return {
    version := ← v.optional 0 "version" Value.word16?
    flags := ← v.optional 1 "flags" Value.word32?
    keyblockFlags := ← v.optional 2 "keyblock_flags" Value.word32?
    padding := ← v.optional 3 "padding" Value.word64? }

/-- Reads where trust chains are written; by default, the working directory. -/
def ChainExport.ofValue? (v : Value) : Option ChainExport := do
  guard v.isRecord
  return {
    directory := ← v.withDefault 0 "dir" Value.text? "."
    id := ← (← v.field? 1 "id").text? }

namespace Profile

def ofTable? (t : Table) : Option Profile := do
  let v := Value.table .header t
  return {
    keys := ← v.withDefault 0 "keys" KeyPaths.ofValue? .none
    firmware := ← v.withDefault 1 "firmware" FirmwareProfile.ofValue? .none
    kernel := ← v.withDefault 2 "kernel" KernelProfile.ofValue? .none
    chainExport := ← v.optional 3 "loem" ChainExport.ofValue? }

def parse (text : String) : Except Error Profile :=
  match (Toml.parse text.toList).bind ofTable? with
  | some p => .ok p
  | .none => .error .profile

def parseBytes (bs : Bytes) : Except Error Profile :=
  match Utf8.decodeChars? bs with
  | some text => parse (String.ofList text)
  | .none => .error .profile

end Profile
end VerifiedBoot

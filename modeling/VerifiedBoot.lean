import VerifiedBoot.Main
import VerifiedBoot.Proofs.Codec.Reading
import VerifiedBoot.Proofs.Codec.Record
import VerifiedBoot.Proofs.Codec.Keyblock
import VerifiedBoot.Proofs.Codec.Preamble
import VerifiedBoot.Proofs.Codec.Chain
import VerifiedBoot.Proofs.Verification.Checks
import VerifiedBoot.Proofs.Verification.Tampering
import VerifiedBoot.Proofs.Verification.Stages
import VerifiedBoot.Proofs.Verification.Options
import VerifiedBoot.Proofs.Verification.Extent
import VerifiedBoot.Proofs.Image.Parts
import VerifiedBoot.Proofs.Signing.Plan
import VerifiedBoot.Proofs.Signing.ReadBack
import VerifiedBoot.Proofs.Signing.Writing
import VerifiedBoot.Proofs.Signing.Verified
import VerifiedBoot.Proofs.Signing.AllOrNothing
import VerifiedBoot.Proofs.Payload.Binding
import VerifiedBoot.Proofs.Signing.Again
import VerifiedBoot.Proofs.Signing.Software
import VerifiedBoot.Proofs.Image.Kernel
import VerifiedBoot.Proofs.Image.Firmware
import VerifiedBoot.Proofs.Image.ReadWrite
import VerifiedBoot.Proofs.Signing.Integrity
import VerifiedBoot.Proofs.Signing.Required
import VerifiedBoot.Proofs.Image.Independence
import VerifiedBoot.Proofs.Bounds.Slicing
import VerifiedBoot.Proofs.Bounds.Chains
import VerifiedBoot.Proofs.Bounds.Images
import VerifiedBoot.Proofs.Bounds.Input
import VerifiedBoot.Proofs.Signing.Keyblocks
import VerifiedBoot.Proofs.Codec.FlashMap
import VerifiedBoot.Proofs.Image.MapSearch
import VerifiedBoot.Proofs.Image.MapLocation
import VerifiedBoot.Proofs.Image.Coverage
import VerifiedBoot.Proofs.Image.ReadWriteFrame
import VerifiedBoot.Proofs.Image.ReadWriteTampering
import VerifiedBoot.Proofs.Signing.Sizes
import VerifiedBoot.Proofs.Signing.Inherited
import VerifiedBoot.Proofs.Image.KernelAgain
import VerifiedBoot.Proofs.Image.KernelExport
import VerifiedBoot.Proofs.Image.ReadWriteAgain
import VerifiedBoot.Proofs.Codec.Text
import VerifiedBoot.Proofs.Codec.AreaNames
import VerifiedBoot.Proofs.Codec.Gbb
import VerifiedBoot.Proofs.Payload.Building
import VerifiedBoot.Proofs.Signing.EachSlot
import VerifiedBoot.Proofs.Image.Recognition
import VerifiedBoot.Proofs.Codec.Pem
import VerifiedBoot.Proofs.Codec.PublicKeys
import VerifiedBoot.Proofs.Bounds.Sums
import VerifiedBoot.Proofs.Bounds.NewRecords
import VerifiedBoot.Proofs.Bounds.CallerSizes
import VerifiedBoot.Proofs.Command.Precedence
import VerifiedBoot.Proofs.Codec.Fields
import VerifiedBoot.Proofs.Codec.Delimited
import VerifiedBoot.Proofs.Toml.Scanning
import VerifiedBoot.Proofs.Toml.Numeral
import VerifiedBoot.Proofs.Toml.Quoted
import VerifiedBoot.Proofs.Toml.Document
import VerifiedBoot.Proofs.Toml.Profiles

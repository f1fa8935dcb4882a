/-
Keyblocks that are taken out of a kernel and used again. What is cut out of the header by the lengths
of a parsed chain is the encoding of this chain, since no other bytes are read as the same fields. So
the keyblock that is cut out is the one that was parsed, and a signer that reuses it writes the bytes
that the root key has signed.
-/
import VerifiedBoot.Proofs.Image.KernelAgain
import VerifiedBoot.Proofs.Verification.Options

namespace VerifiedBoot

/-! ## Signers and verifiers -/

/-- What a verifier asks narrows the trust of one that asks nothing. -/
theorem Verifier.trusted_iff {v : Verifier} {key : PackedKey} {area body : Bytes}
    {slot : TrustedSlot} : v.judge key area body = .trusted slot ↔
      (v.asking none none).judge key area body = .trusted slot ∧
      (∀ m, v.options.bootMode = some m → slot.keyblockFlags.Permits m) ∧
      ∀ n, v.options.minVersion = some n → n.toNat ≤ slot.rollbackNumber := by
  show (v.asking v.options.bootMode v.options.minVersion).judge key area body = .trusted slot ↔ _
  exact trusted_asking_iff

theorem Signer.dataKey_of_make {source : ChainSource} {dataKey : SigningKey} {options : SignOptions}
    {primitives : TrustPrimitives} {payload : PayloadFormat} {s : Signer}
    (made : make source dataKey options primitives payload = .ok s) : s.dataKey = dataKey := by
  simp only [make, bind_eq_ok, refuse_eq_ok, pure_eq_ok] at made
  obtain ⟨_, -, -, rfl⟩ := made
  rfl

/-- No digest stands for a raw body, whatever the policy. -/
theorem Signer.digestSigned_of_raw {s : Signer} {layout : SlotLayout} {image image' : Bytes}
    {report : SignReport} {entry : SignedSlot} (raw : s.payload = .raw)
    (h : s.sign layout image = .ok report image') (he : entry ∈ report.slots) :
    entry.digestSigned = false := by
  obtain ⟨slot, hs, built, hbuild, rfl⟩ := build_of_mem_report h he
  obtain ⟨decided, _, preamble, -, -, -, signedAs⟩ :=
    (builtFrom_of_build hbuild).signedChain_signedAs (blank_of_mem_located hs)
  refine decided.trans ?_
  cases integrity : s.integrityIn layout image with
  | false => rfl
  | true =>
    rw [integrity] at signedAs
    obtain ⟨_, found, -⟩ := Signature.DigestOf.hash signedAs
    rw [raw] at found
    cases found

namespace KernelImage
variable {s : Signer} {bytes again : Bytes} {k : KernelImage} {c : TrustChain}

/-! ## Exports -/

theorem chain_eq_ok : k.chain = .ok c ↔ TrustChain.parse k.chainArea = .ok c := liftCodec_eq_ok

/-- What is cut out of a kernel: its chain, which is a keyblock and a preamble, and the keyblock alone.
Both are the encodings of what was parsed, and are parsed as it again. -/
structure Exports (k : KernelImage) (c : TrustChain) (keyblock preamble : Bytes) : Prop where
  start : keyblock ++ preamble <+: k.chainArea
  vblock : k.vblock = .ok (keyblock ++ preamble)
  encoded : ∀ capacity, (keyblock ++ preamble).length ≤ capacity →
    c.encode capacity = .ok (keyblock ++ preamble)
  parsed : TrustChain.parse (keyblock ++ preamble) = .ok c
  keyblockBytes : k.keyblockBytes = .ok keyblock
  keyblockEncoded : c.keyblock.encode = .ok keyblock
  reused : (ChainSource.reuse keyblock).keyblock = .ok c.keyblock

theorem exports_of_chain (h : TrustChain.parse k.chainArea = .ok c) :
    ∃ keyblock preamble, k.Exports c keyblock preamble := by
  have whole := TrustChain.encode_of_parse h
  obtain ⟨keyblock, hk, preamble, -, cut, -⟩ := TrustChain.encode_eq_ok.1 whole
  obtain ⟨encoded, parsed⟩ := Keyblock.encode_of_parse (TrustChain.parse_eq_ok.1 h).1
  obtain rfl := Except.ok.inj (hk.symm.trans encoded)
  refine ⟨_, preamble, ?_, ?_, fun capacity room => ?_, ?_, keyblockBytes_of_parse h, encoded, ?_⟩
  · rw [cut]
    exact List.take_prefix _ _
  · rw [vblock_of_parse h, cut]
  · rw [cut] at room ⊢
    exact (TrustChain.encode_eq_ok_iff_of_ok whole).2 ⟨rfl, room⟩
  · rw [cut]
    exact (TrustChain.parse_eq_ok_iff_of_parse h).2 (List.prefix_refl _)
  · simp only [ChainSource.keyblock, parsed]
    rfl

/-- The keyblock that is cut out stands right behind the lead. -/
theorem Exports.slice {keyblock preamble : Bytes} (h : k.Exports c keyblock preamble)
    (parsed : parse bytes = .ok k) : bytes.slice leadSize keyblock.length = some keyblock := by
  have start : keyblock <+: k.chainArea := (List.prefix_append _ _).trans h.start
  have area := (slice_slot parsed).2
  have inside : keyblock.length ≤ k.slot.chain.length := Bytes.length_slice area ▸ start.length_le
  have cut := Bytes.slice_take area inside
  rwa [← List.prefix_iff_eq_take.1 start] at cut

end KernelImage

/-! ## Signing with what was exported -/

/-- A trusted slot as it is after it was signed again with its own keyblock, for a raw body. -/
def TrustedSlot.renewed (slot : TrustedSlot) (options : SignOptions) : TrustedSlot :=
  { slot with
    version := options.version.getD slot.version
    flags := options.flags.getD slot.flags
    bodyLength := (options.bodyLength .a).getD slot.bodyLength
    subkey := options.subkey }

namespace KernelImage
variable {s : Signer} {bytes again : Bytes} {k : KernelImage} {c : TrustChain} {root : PackedKey}
  {verification : VerifyOptions} {report : SignReport}

/-- A kernel that was signed has room for a chain, and a body. -/
theorem room_of_sign (signed : s.sign k.layout bytes = .ok report again) :
    leadSize < k.headerSize.toNat ∧ 0 < k.bodySize.toNat := by
  obtain ⟨chains, hplan, -⟩ := Signer.sign_ok signed
  obtain ⟨built, hb, hid⟩ := Signer.exists_first_of_plan hplan rfl
  obtain ⟨_, all⟩ := Signer.built_of_mem_plan hplan
  obtain ⟨-, slot, hl, -⟩ := all built hb
  rw [hid] at hl
  obtain ⟨chain, hchain, body, hbody, -⟩ := SlotLayout.locate_eq_some.1 hl
  obtain ⟨⟨⟩, chainBytes⟩ := Option.filter_eq_some_iff.1 hchain
  obtain ⟨⟨⟩, bodyBytes⟩ := Option.filter_eq_some_iff.1 hbody
  have header := Area.isEmpty_eq_false.1 chainBytes
  have body := Area.isEmpty_eq_false.1 bodyBytes
  dsimp only at header body
  omega

/-- What software has checked of a slot holds of a signer with the same keyblock. -/
theorem trustedUnder_of_passes {body : Bytes}
    (passes : (Verifier.mk verification .software .raw).Passes root c body)
    (keyblock : s.keyblock = c.keyblock) (software : s.primitives = .software)
    (accepts : ∀ data blob, s.dataKey.sign data = .ok blob →
      Software.verify c.keyblock.dataKey data blob = .ok ()) : s.TrustedUnder root := by
  constructor
  · rw [software, keyblock]
    exact passes.keyUsable
  · rw [keyblock]
    exact passes.keyVersion
  · rw [software, keyblock]
    exact accepts
  · rw [software, keyblock]
    exact passes.keyblockSigned

/-- A trusted kernel that is signed again with its own keyblock has this keyblock, and is trusted for
what has changed, where nothing else is asked of it. -/
theorem trusted_of_sign {source : ChainSource} (parsed : parse bytes = .ok k)
    (chain : TrustChain.parse k.chainArea = .ok c)
    (passes : (Verifier.mk verification .software .raw).Passes root c k.body)
    (made : source.keyblock = .ok s.keyblock) (keyblock : s.keyblock = c.keyblock)
    (algorithm : s.keyblock.dataKey.algorithm = s.dataKey.algorithm.raw)
    (software : s.primitives = .software) (raw : s.payload = .raw)
    (accepts : ∀ data blob, s.dataKey.sign data = .ok blob →
      Software.verify c.keyblock.dataKey data blob = .ok ())
    (signed : s.sign k.layout bytes = .ok report again) :
    ∃ c', TrustChain.parse ({ k with bytes := again } : KernelImage).chainArea = .ok c' ∧
      c'.keyblock = c.keyblock ∧ ∀ options : VerifyOptions,
        ((Verifier.mk options .software .raw).asking none none).judge root
          ({ k with bytes := again } : KernelImage).chainArea k.body
            = .trusted (c.facts.renewed s.options) := by
  obtain ⟨header, body⟩ := room_of_sign signed
  have located := locate_layout header body
  have apart := chainsApart_layout (k := k) header body
  have under := trustedUnder_of_passes passes keyblock software accepts
  obtain ⟨entry, he, hid⟩ :=
    Signer.exists_mem_report_of_locate signed (List.mem_singleton.2 rfl) located
  rw [← hid] at located
  obtain ⟨parsed', sameBody⟩ := parse_of_sign parsed signed
  obtain ⟨hbody, hchain⟩ := slice_slot parsed
  obtain ⟨hbody', hchain'⟩ := slice_slot parsed'
  -- what is decided for the slot is what the signer asks for, or else what was trusted
  have decided := Signer.decided_of_mem_report signed he located hchain hbody
  have found := passes.inspect chain
  rw [software, found] at decided
  have inherits : entry.Inherits s.options s.payload k.body c.facts :=
    SignedSlot.Decided.inherits decided
  have bodyLength : entry.bodyLength = (s.options.bodyLength .a).getD c.facts.bodyLength := by
    have length := inherits.bodyLength
    rw [Signer.digestSigned_of_raw raw signed he, raw, hid] at length
    cases asked : s.options.bodyLength .a <;> rw [asked] at length <;> exact length
  have facts : s.factsOf entry = c.facts.renewed s.options := by
    unfold Signer.factsOf TrustedSlot.renewed
    rw [inherits.version, inherits.flags, bodyLength, keyblock]
    rfl
  obtain ⟨area, c', harea, chain', carried⟩ :=
    Signer.carried_of_mem_report made signed apart he located hbody
  obtain rfl := Option.some.inj (harea.symm.trans hchain')
  refine ⟨c', chain', carried.keyblock.trans keyblock, fun options => ?_⟩
  have noMinimum : (VerifyOptions.mk options.rootKey none none).minVersion = none := rfl
  obtain ⟨_, _, _, hl, harea', hbody'', trusted⟩ :=
    Signer.trusted_of_mem_report made algorithm apart under noMinimum rfl signed he
  obtain rfl := Option.some.inj (hl.symm.trans located)
  obtain rfl := Option.some.inj (harea'.symm.trans hchain')
  obtain rfl := Option.some.inj (hbody''.symm.trans hbody')
  rw [sameBody, facts, software, raw] at trusted
  exact trusted

/-- A kernel with a chain gives out its keyblock and its whole chain as they are encoded, and both are
read as what they were. If software trusts the kernel, and the data key makes signatures that software
accepts, then every signing of it again by a signer with this data key and the keyblock that was given
out leaves the keyblock in place, byte for byte, whatever else is asked for. The kernel is trusted under
the same root key again, for what was asked for and what was trusted before; and with a boot mode or a
minimum version just if the keyblock permits the one and the new version reaches the other. -/
theorem exported_keyblock_reused (parsed : parse bytes = .ok k) (chain : k.chain = .ok c) :
    ∃ keyblock preamble, k.Exports c keyblock preamble ∧
      ∀ root verification slot dataKey options s again,
        verify bytes root verification = .ok (.trusted slot) →
        (∀ data blob, dataKey.sign data = .ok blob →
          Software.verify c.keyblock.dataKey data blob = .ok ()) →
        Signer.make (.reuse keyblock) dataKey options .software .raw = .ok s →
        resign bytes s = .ok again →
        ∃ k', parse again = .ok k' ∧ k'.keyblockBytes = .ok keyblock ∧
          bytes.slice 16 keyblock.length = some keyblock ∧
          again.slice 16 keyblock.length = some keyblock ∧
          verify again root { verification with minVersion := none }
            = .ok (.trusted (slot.renewed options)) ∧
          ∀ verification', verify again root verification' = .ok (.trusted (slot.renewed options)) ↔
            (∀ mode, verification'.bootMode = some mode → slot.keyblockFlags.Permits mode) ∧
            ∀ minimum, verification'.minVersion = some minimum →
              minimum.toNat ≤ (slot.renewed options).rollbackNumber := by
  have chain := chain_eq_ok.1 chain
  obtain ⟨keyblock, preamble, exports⟩ := exports_of_chain chain
  refine ⟨keyblock, preamble, exports, ?_⟩
  intro root verification slot dataKey options s again trusted accepts made resigned
  rw [verify_of_parse root verification parsed] at trusted
  have trusted := Except.ok.inj trusted
  obtain ⟨c', same, passes, rfl⟩ := Verifier.judge_eq_trusted_iff.1 trusted
  obtain rfl := Except.ok.inj (same.symm.trans chain)
  obtain ⟨hk, algorithm, rfl, software, raw⟩ := Signer.make_ok made
  obtain rfl := Signer.dataKey_of_make made
  have keyblockSame : s.keyblock = c'.keyblock := Except.ok.inj (hk.symm.trans exports.reused)
  obtain ⟨report, signed⟩ := (resign_eq_ok parsed).1 resigned
  obtain ⟨parsed', sameBody⟩ := parse_of_sign parsed signed
  obtain ⟨c'', chain', kept, judged⟩ :=
    trusted_of_sign parsed chain passes hk keyblockSame algorithm software raw accepts signed
  -- the new chain begins with the encoding of the same keyblock
  obtain ⟨keyblock', preamble', exports'⟩ := exports_of_chain chain'
  obtain rfl : keyblock' = keyblock :=
    Except.ok.inj ((kept ▸ exports'.keyblockEncoded).symm.trans exports.keyblockEncoded)
  have verdict (options : VerifyOptions) : verify again root options
      = .ok (.trusted (c'.facts.renewed s.options)) ↔
        (∀ mode, options.bootMode = some mode → c'.facts.keyblockFlags.Permits mode) ∧
        ∀ minimum, options.minVersion = some minimum →
          minimum.toNat ≤ (c'.facts.renewed s.options).rollbackNumber := by
    rw [verify_of_parse root options parsed', sameBody, Except.ok.injEq]
    exact Verifier.trusted_iff.trans (and_iff_right (judged options))
  refine ⟨_, parsed', exports'.keyblockBytes, exports.slice parsed, exports'.slice parsed', ?_, verdict⟩
  exact (verdict _).2 ⟨(Verifier.trusted_iff.1 trusted).2.1, nofun⟩

/-- Asks for version 9 and for nothing else. -/
def renewingSigner : Signer :=
  { Signer.softwareSigner with options := { SignOptions.none with version := some 9 } }

/-- A kernel of version 3 is signed again as version 9, with the keyblock that it gives out. It keeps its
flags and its signed length, loses the key for the next stage, and is trusted in normal mode with a
minimum that only the new version reaches. -/
theorem software_keyblock_reused : ∃ image again keyblock k',
    sign [1, 2, 3] Signer.softwareSigner 0 = .ok image ∧
    Signer.make (.reuse keyblock) Signer.softwareSigner.dataKey renewingSigner.options .software .raw
      = .ok renewingSigner ∧
    resign image renewingSigner = .ok again ∧
    parse again = .ok k' ∧ k'.keyblockBytes = .ok keyblock ∧
    image.slice 16 keyblock.length = again.slice 16 keyblock.length ∧
    verify again Signer.softwareRootKey ⟨none, some .normal, some 0x50009⟩
      = .ok (.trusted ⟨9, 8, 5, 3, .all, Signer.softwareKeyblock.dataKey, none⟩) := by
  have run : (sign [1, 2, 3] Signer.softwareSigner 0 >>= (resign · renewingSigner)).toOption.isSome
      = true := by
    decide +kernel
  obtain ⟨again, both⟩ := Option.isSome_iff_exists.1 run
  obtain ⟨image, signed, resigned⟩ := bind_eq_ok.1 (toOption_eq_some.1 both)
  obtain ⟨chain, hchain, assembled⟩ := sign_eq_ok.1 signed
  obtain ⟨c, _, hc, -, -, -, inArea⟩ := chainFor_ok hchain
    (Signer.make_ok Signer.make_softwareSigner).1 rfl Signer.softwareTrusted_softwareSigner
  obtain ⟨k, parsed, -, hbody, area⟩ := parse_of_assemble assembled []
  rw [List.append_nil] at parsed
  have start : chain <+: k.chainArea := by
    rw [area]
    exact List.prefix_append _ _
  obtain ⟨found, trusted⟩ := inArea k.chainArea start
  obtain ⟨keyblock, preamble, exports, reused⟩ := exported_keyblock_reused parsed (chain_eq_ok.2 found)
  have made : Signer.make (.reuse keyblock) Signer.softwareSigner.dataKey renewingSigner.options
      .software .raw = .ok renewingSigner := by
    simp only [Signer.make, exports.reused, hc]
    rfl
  have accepts : ∀ data blob, Signer.softwareSigner.dataKey.sign data = .ok blob →
      Software.verify c.keyblock.dataKey data blob = .ok () := by
    rw [hc]
    exact Signer.softwareTrusted_softwareSigner.accepts
  have trusted : verify image Signer.softwareRootKey .none = .ok (.trusted
      ⟨3, 8, 5, 3, .all, Signer.softwareKeyblock.dataKey, some ⟨1, 2, [6, 6]⟩⟩) := by
    rw [verify_of_parse _ _ parsed, hbody]
    exact congrArg Except.ok (trusted .none rfl rfl)
  obtain ⟨k', parsed', kept, before, after, -, verdict⟩ :=
    reused _ _ _ _ _ _ again trusted accepts made resigned
  refine ⟨image, again, keyblock, k', signed, made, resigned, parsed', kept, before.trans after.symm, ?_⟩
  refine (verdict _).2 ⟨?_, ?_⟩
  · rintro mode ⟨⟩
    exact ⟨rfl, rfl, rfl⟩
  · rintro minimum ⟨⟩
    decide

end KernelImage
end VerifiedBoot

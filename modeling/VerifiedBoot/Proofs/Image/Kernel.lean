/-
Kernel images from signing to verification. A signed kernel is read, whatever follows it, as the lead,
the chain that was built, zeros up to the size of the header, and the body that was given; software
trusts it under the root key of the signer. Signing fails for want of room just if a chain can be
built and the header that was asked for is too small for it.
-/
import VerifiedBoot.Image.Kind
import VerifiedBoot.Proofs.Signing.Software

namespace VerifiedBoot

namespace KernelImage

/-! ## Reading -/

/-- The bytes before the chain: the mark and both sizes. -/
def leadBytes (headerSize bodySize : UInt32) : Bytes :=
  magic ++ Bytes.le32 headerSize ++ Bytes.le32 bodySize

theorem length_magic : magic.length = 8 := rfl

theorem length_leadBytes (headerSize bodySize : UInt32) :
    (leadBytes headerSize bodySize).length = leadSize := by
  simp only [leadBytes, List.length_append, length_magic, Bytes.length_le32, leadSize]

/-- The lead of a kernel is read just where it stands; any other eight bytes are no kernel. -/
theorem exact_readLead : Read.Exact readLead fun _ lead bs =>
    match lead with
    | some (headerSize, bodySize) => bs = leadBytes headerSize bodySize
    | none => bs.length = 8 ∧ bs ≠ magic := by
  have sizes : ∀ start : Bytes, Read.Exact
      (if start = magic then do
        let headerSize ← Read.word32
        let bodySize ← Read.word32
        return some (headerSize, bodySize)
      else (return none : Read (Option (UInt32 × UInt32))))
      fun _ lead bs =>
        match lead with
        | some (headerSize, bodySize) =>
          start = magic ∧ bs = Bytes.le32 headerSize ++ Bytes.le32 bodySize
        | none => start ≠ magic ∧ bs = [] := by
    intro start
    by_cases h : start = magic
    · rw [if_pos h]
      refine (Read.exact_word32.word fun headerSize => Read.exact_word32.word fun bodySize =>
        Read.exact_pure (some (headerSize, bodySize))).congr ?_
      rintro pos (_ | ⟨headerSize, bodySize⟩) bs
      · simp [h]
      · constructor
        · rintro ⟨_, _, ⟨_, _, ⟨same, rfl⟩, rfl⟩, rfl⟩
          cases same
          exact ⟨h, by simp⟩
        · rintro ⟨-, rfl⟩
          exact ⟨_, _, ⟨_, [], ⟨rfl, rfl⟩, rfl⟩, by simp⟩
    · rw [if_neg h]
      refine (Read.exact_pure none).congr ?_
      rintro pos (_ | ⟨headerSize, bodySize⟩) bs <;> simp [h]
  refine ((Read.exact_fixed 8).bind sizes).congr ?_
  rintro pos (_ | ⟨headerSize, bodySize⟩) bs
  · constructor
    · rintro ⟨_, _, _, ⟨rfl, hl⟩, ⟨other, rfl⟩, rfl⟩
      rw [List.append_nil]
      exact ⟨hl, other⟩
    · rintro ⟨hl, other⟩
      exact ⟨_, bs, [], ⟨rfl, hl⟩, ⟨other, rfl⟩, (List.append_nil bs).symm⟩
  · constructor
    · rintro ⟨_, _, _, ⟨rfl, -⟩, ⟨rfl, rfl⟩, rfl⟩
      simp [leadBytes]
    · rintro rfl
      exact ⟨_, magic, _, ⟨rfl, length_magic⟩, ⟨rfl, rfl⟩, by simp [leadBytes]⟩

/-- An image is read as a kernel just if its lead stands at the start, with a header that has room for
the lead and a body that ends inside the image. -/
theorem parse_eq_ok_iff {bytes : Bytes} {k : KernelImage} :
    parse bytes = .ok k ↔ leadBytes k.headerSize k.bodySize <+: bytes ∧
      leadSize ≤ k.headerSize.toNat ∧ k.headerSize.toNat + k.bodySize.toNat ≤ bytes.length ∧
      k.bytes = bytes := by
  unfold parse
  rw [bind_eq_ok]
  simp only [liftCodec_eq_ok, exact_readLead.parse_ok]
  constructor
  · rintro ⟨_ | ⟨headerSize, bodySize⟩, ⟨_, hlead, start⟩, h⟩
    · cases h
    · subst hlead
      simp only [refuse_eq_ok, pure_eq_ok, not_lt] at h
      obtain ⟨room, fits, rfl⟩ := h
      exact ⟨start, room, fits, rfl⟩
  · obtain ⟨headerSize, bodySize, _⟩ := k
    rintro ⟨start, room, fits, rfl⟩
    refine ⟨some (headerSize, bodySize), ⟨_, rfl, start⟩, ?_⟩
    exact refuse_eq_ok.2 ⟨not_lt.2 room, refuse_eq_ok.2 ⟨not_lt.2 fits, rfl⟩⟩

/-- What can be read as a kernel is told to be one. -/
theorem kind_of_parse {bytes : Bytes} {k : KernelImage} (h : parse bytes = .ok k) :
    ImageKind.ofImage bytes = .kernel := by
  obtain ⟨start, -⟩ := parse_eq_ok_iff.1 h
  have mark : magic <+: bytes := by
    refine List.IsPrefix.trans ?_ start
    unfold leadBytes
    rw [List.append_assoc]
    exact List.prefix_append _ _
  unfold ImageKind.ofImage
  rw [if_pos (List.isPrefixOf_iff_prefix.2 mark)]

theorem vblock_of_parse {k : KernelImage} {c : TrustChain}
    (h : TrustChain.parse k.chainArea = .ok c) : k.vblock = .ok (k.chainArea.take c.byteLength) := by
  simp only [vblock, chain, bind_eq_ok, pure_eq_ok, liftCodec_eq_ok]
  exact ⟨c, h, rfl⟩

theorem keyblockBytes_of_parse {k : KernelImage} {c : TrustChain}
    (h : TrustChain.parse k.chainArea = .ok c) :
    k.keyblockBytes = .ok (k.chainArea.take c.keyblock.byteLength) := by
  simp only [keyblockBytes, chain, bind_eq_ok, pure_eq_ok, liftCodec_eq_ok]
  exact ⟨c, h, rfl⟩

theorem verify_of_parse {bytes : Bytes} {k : KernelImage} (key : PackedKey) (options : VerifyOptions)
    (h : parse bytes = .ok k) :
    verify bytes key options
      = .ok (Verifier.judge ⟨options, .software, .raw⟩ key k.chainArea k.body) := by
  unfold verify
  rw [h]
  rfl

/-! ## Writing -/

/-- A kernel is made of its lead, the chain, zeros up to the size of the header, and the body. Both
sizes have length fields, so that the whole has room in memory. -/
theorem assemble_eq_ok {chain body image : Bytes} {size : Nat} :
    assemble chain body size = .ok image ↔ leadSize + chain.length ≤ size ∧
      ∃ headerSize bodySize : UInt32, headerSize.toNat = size ∧ bodySize.toNat = body.length ∧
        leadBytes headerSize bodySize
          ++ (chain ++ List.replicate (size - (leadSize + chain.length)) 0) ++ body = image := by
  have padded : ∀ headerSize bodySize : UInt32,
      Bytes.padTo (magic ++ Bytes.le32 headerSize ++ Bytes.le32 bodySize ++ chain) size 0 ++ body
        = leadBytes headerSize bodySize
          ++ (chain ++ List.replicate (size - (leadSize + chain.length)) 0) ++ body := by
    intro headerSize bodySize
    rw [← length_leadBytes headerSize bodySize, ← List.length_append]
    simp only [Bytes.padTo, leadBytes, List.append_assoc]
  simp only [assemble, refuse_eq_ok, bind_eq_ok, pure_eq_ok, liftCodec_eq_ok, toLength_eq_ok,
    sizeSum_eq_ok, ensureCapacity_eq_ok, not_lt, padded]
  constructor
  · rintro ⟨room, _, -, _, -, headerSize, hh, bodySize, hb, rfl⟩
    exact ⟨room, headerSize, bodySize, hh, hb, rfl⟩
  · rintro ⟨room, headerSize, bodySize, hh, hb, rfl⟩
    have whole : [size, body.length].sum < allocationBound := by
      have headerFits := headerSize.toNat_lt
      have bodyFits := bodySize.toNat_lt
      rw [hh] at headerFits
      rw [hb] at bodyFits
      simp only [List.sum_cons, List.sum_nil, allocationBound]
      omega
    exact ⟨room, _, ⟨whole.trans (by decide), rfl⟩, (), whole, headerSize, hh, bodySize, hb, rfl⟩

/-- An assembled kernel is read back in its parts, whatever follows it. -/
theorem parse_of_assemble {chain body image : Bytes} {size : Nat}
    (h : assemble chain body size = .ok image) (tail : Bytes) :
    ∃ k, parse (image ++ tail) = .ok k ∧ k.headerSize.toNat = size ∧ k.body = body ∧
      k.chainArea = chain ++ List.replicate (size - (leadSize + chain.length)) 0 := by
  obtain ⟨room, headerSize, bodySize, hheader, hbody, rfl⟩ := assemble_eq_ok.1 h
  -- the header ends where the zeros do
  have lead := length_leadBytes headerSize bodySize
  generalize hlead : leadBytes headerSize bodySize = start at lead
  generalize hfilled : chain ++ List.replicate (size - (leadSize + chain.length)) 0 = filled
  have length : filled.length = size - leadSize := by
    rw [← hfilled, List.length_append, List.length_replicate]
    omega
  have header : start.length + filled.length = size := by omega
  refine ⟨⟨headerSize, bodySize, start ++ filled ++ body ++ tail⟩, parse_eq_ok_iff.2 ⟨?_, ?_, ?_, rfl⟩,
    hheader, ?_, ?_⟩
  · rw [hlead, List.append_assoc, List.append_assoc]
    exact List.prefix_append _ _
  · rw [hheader]
    exact (Nat.le_add_right _ _).trans room
  · simp only [List.length_append, hheader, hbody]
    omega
  · have cut := Bytes.between_append (start ++ filled) body tail
    rw [List.length_append, header] at cut
    simp only [KernelImage.body, hheader, hbody]
    exact cut
  · have cut := Bytes.between_append start filled (body ++ tail)
    rw [header, lead, ← List.append_assoc] at cut
    simp only [chainArea, hheader]
    exact cut

/-- The chain that signs the body of a kernel. -/
def chainFor (signer : Signer) (body : Bytes) : Except Error Bytes :=
  signer.chainFor body none (signer.options.version.getD 1) (signer.options.flags.getD 0)
    (sizeBound - 1)

/-- The size of the header of a kernel with such a chain. -/
def headerSizeFor (chain : Bytes) (padding : Nat) : Nat :=
  if padding = 0 then leadSize + chain.length else padding

theorem sign_eq_ok {body image : Bytes} {signer : Signer} {padding : Nat} :
    sign body signer padding = .ok image ↔ ∃ chain, chainFor signer body = .ok chain ∧
      assemble chain body (headerSizeFor chain padding) = .ok image := by
  simp only [sign, bind_eq_ok]
  rfl

/-! ## Signed kernels -/

/-- The signer as software sees it. It builds the same chains for kernels, whose bodies carry no
metadata. -/
def softwareView (signer : Signer) : Signer :=
  { signer with primitives := .software, payload := .raw }

/-- The chain for a body is read wherever it stands, and software trusts the body with it. -/
theorem chainFor_ok {signer : Signer} {source : ChainSource} {root : PackedKey} {body chain : Bytes}
    (h : chainFor signer body = .ok chain) (made : source.keyblock = .ok signer.keyblock)
    (algorithm : signer.keyblock.dataKey.algorithm = signer.dataKey.algorithm.raw)
    (under : signer.SoftwareTrusted root) :
    ∃ c keyblock, c.keyblock = signer.keyblock ∧ c.byteLength = chain.length ∧
      signer.keyblock.encode = .ok keyblock ∧ keyblock <+: chain ∧
      ∀ area, chain <+: area → TrustChain.parse area = .ok c ∧
        ∀ options : VerifyOptions, options.minVersion = none → options.bootMode = none →
          Verifier.judge ⟨options, .software, .raw⟩ root area body = .trusted {
            version := signer.options.version.getD 1
            flags := signer.options.flags.getD 0
            keyVersion := signer.keyblock.dataKey.version
            bodyLength := body.length
            keyblockFlags := signer.keyblock.flags
            dataKey := signer.keyblock.dataKey
            subkey := signer.options.subkey } := by
  have built : chainFor (softwareView signer) body = .ok chain := h
  obtain ⟨preamble, signed, -⟩ := Signer.signedChain_of_chainFor built fun found hf => by cases hf
  have trusted : (softwareView signer).TrustedUnder root :=
    Signer.SoftwareTrusted.trustedUnder ⟨under.keyVersion, under.accepts, under.keyblockSigned⟩ rfl
      signed
  obtain ⟨capacity, encoded⟩ := signed.encoded
  obtain ⟨keyblock, hk, rest, -, rfl, -⟩ := TrustChain.encode_eq_ok.1 encoded
  refine ⟨⟨signer.keyblock, preamble⟩, keyblock, rfl, (TrustChain.length_encode encoded).symm, hk,
    List.prefix_append _ _, fun area start => ⟨signed.parse made start, ?_⟩⟩
  intro options noMinimum noMode
  refine signed.trusted (v := ⟨options, .software, .raw⟩) trusted made algorithm rfl rfl noMinimum ?_
    (List.prefix_refl body) start
  rw [noMode]
  rfl

end KernelImage

/-! ## Want of room -/

/-- Whether a record does not fit where it is to be put. -/
def CodecError.isAreaTooSmall : CodecError → Bool
  | areaTooSmall _ _ => true
  | _ => false

def Error.isAreaTooSmall : Error → Bool
  | codec cause => cause.isAreaTooSmall
  | _ => false

/-- A computation that does not fail for want of room. -/
def FindsRoom {α : Type} (x : Except CodecError α) : Prop := FailsOnly (·.isAreaTooSmall = false) x

theorem FindsRoom.lifted {α : Type} {x : Except CodecError α} (h : FindsRoom x) :
    FailsOnly (·.isAreaTooSmall = false) (liftCodec x) := FailsOnly.mapError h fun _ he => he

theorem findsRoom_toLength (part : EncodedPart) (n : Nat) : FindsRoom (toLength part n) := by
  unfold toLength
  split
  · exact .ok _
  · exact .error rfl

theorem findsRoom_countedField (bs : Bytes) : FindsRoom (countedField bs) :=
  ((findsRoom_toLength _ _).bind fun _ _ => .ok _).bind fun _ _ => .ok _

theorem PackedKey.findsRoom_encode (k : PackedKey) : FindsRoom k.encode :=
  (findsRoom_countedField _).bind fun _ _ => .ok _

theorem Signature.findsRoom_encode (s : Signature) : FindsRoom s.encode :=
  (findsRoom_countedField _).bind fun _ _ => .ok _

theorem Keyblock.findsRoom_encode (k : Keyblock) : FindsRoom k.encode := by
  have checked : FindsRoom k.checkedBytes := k.dataKey.findsRoom_encode.bind fun _ _ => .ok _
  have signed : FindsRoom k.signedBytes := checked.bind fun _ _ => .ok _
  refine .refuse rfl (signed.bind fun _ _ => ?_)
  exact k.signature.findsRoom_encode.bind fun _ _ => .ok _

theorem Preamble.findsRoom_signedBytes (p : Preamble) : FindsRoom p.signedBytes := by
  refine p.bodySignature.findsRoom_encode.bind fun _ _ => ?_
  cases p.subkey with
  | none => exact .ok _
  | some key => exact (key.findsRoom_encode.bind fun _ _ => .ok _).bind fun _ _ => .ok _

theorem Preamble.findsRoom_encode (p : Preamble) : FindsRoom p.encode := by
  refine .refuse rfl (p.findsRoom_signedBytes.bind fun _ _ => ?_)
  exact p.signature.findsRoom_encode.bind fun _ _ => .ok _

/-- Both records of a chain have sizes of 32 bits, so that there is room for it in any memory. -/
theorem TrustChain.findsRoom_encode (c : TrustChain) : FindsRoom (c.encode (sizeBound - 1)) := by
  refine c.keyblock.findsRoom_encode.bind fun k hk => c.preamble.findsRoom_encode.bind fun p hp => ?_
  have fits : ¬ sizeBound - 1 < (k ++ p).length := by
    have keyblockSize := c.keyblock.size.toNat_lt
    have preambleSize := c.preamble.size.toNat_lt
    rw [(Keyblock.encode_eq_ok.1 hk).1, ← Keyblock.length_encode hk] at keyblockSize
    rw [(Preamble.encode_eq_ok.1 hp).1, ← Preamble.length_encode hp] at preambleSize
    rw [List.length_append, sizeBound]
    omega
  rw [if_neg fits]
  exact .ok _

namespace KernelImage

/-- No error of a chain is one for want of room. -/
theorem findsRoom_chainFor {signer : Signer} {body : Bytes} :
    FailsOnly (·.isAreaTooSmall = false) (chainFor signer body) := by
  have trust {α : Type} (x : Except TrustError α) : FailsOnly (·.isAreaTooSmall = false) (liftTrust x) :=
    .liftTrust (fun _ => rfl) x
  have bodySignature : FailsOnly (·.isAreaTooSmall = false) (signer.bodySignature body none) := by
    refine (findsRoom_toLength _ _).lifted.bind fun dataSize _ => ?_
    exact (trust _).bind fun blob _ => .ok _
  refine bodySignature.bind fun signature _ => ?_
  -- the preamble is made and signed step by step, then the chain is encoded as a whole
  refine FailsOnly.bind ?_ fun preamble _ => (TrustChain.findsRoom_encode _).lifted
  refine (FailsOnly.sizeSum (by rfl) _).bind fun recordSize _ => ?_
  refine (findsRoom_toLength _ _).lifted.bind fun size _ => ?_
  refine (findsRoom_toLength _ _).lifted.bind fun dataSize _ => ?_
  refine (Preamble.findsRoom_signedBytes _).lifted.bind fun signed _ => ?_
  exact (trust _).bind fun blob _ => .ok _

/-- Once the header is found to have room for the chain, no other error is one for want of room. -/
theorem findsRoom_assemble {chain body : Bytes} {size : Nat} (room : leadSize + chain.length ≤ size) :
    FailsOnly (·.isAreaTooSmall = false) (assemble chain body size) := by
  unfold assemble
  rw [if_neg (not_lt.2 room)]
  refine (FailsOnly.sizeSum (by rfl) _).bind fun whole _ => ?_
  refine (FailsOnly.ensureCapacity (by rfl) _).bind fun _ _ => ?_
  refine (findsRoom_toLength _ _).lifted.bind fun headerWord _ => ?_
  exact (findsRoom_toLength _ _).lifted.bind fun bodyWord _ => .ok _

theorem assemble_eq_areaTooSmall {chain body : Bytes} {size needed available : Nat} :
    assemble chain body size = .error (.codec (.areaTooSmall needed available)) ↔
      size < leadSize + chain.length ∧ needed = leadSize + chain.length ∧ available = size := by
  by_cases small : size < leadSize + chain.length
  · unfold assemble
    rw [if_pos small]
    constructor
    · intro h
      cases h
      exact ⟨small, rfl, rfl⟩
    · rintro ⟨-, rfl, rfl⟩
      rfl
  · constructor
    · intro h
      cases findsRoom_assemble (not_lt.1 small) _ h
    · rintro ⟨h, -⟩
      exact absurd h small

theorem sign_eq_bind (body : Bytes) (signer : Signer) (padding : Nat) : sign body signer padding
    = chainFor signer body >>= fun chain => assemble chain body (headerSizeFor chain padding) := rfl

/-- Signing fails for want of room just if there is a chain and the header that is asked for is too
small for it. -/
theorem sign_eq_areaTooSmall {body : Bytes} {signer : Signer} {padding needed available : Nat} :
    sign body signer padding = .error (.codec (.areaTooSmall needed available)) ↔
      ∃ chain, chainFor signer body = .ok chain ∧ padding ≠ 0 ∧ padding < leadSize + chain.length ∧
        needed = leadSize + chain.length ∧ available = padding := by
  have room : chainFor signer body ≠ .error (.codec (.areaTooSmall needed available)) := by
    intro h
    cases findsRoom_chainFor _ h
  rw [sign_eq_bind, bind_eq_error, or_iff_right room]
  refine exists_congr fun chain => and_congr_right fun _ => ?_
  rw [assemble_eq_areaTooSmall]
  unfold headerSizeFor
  by_cases smallest : padding = 0
  · simp [smallest]
  · simp [smallest]

/-! ## From signing to verification -/

/-- A signed kernel is read in its parts and trusted whatever follows it; and signing finds too little
room just if a chain can be built and the header that is asked for is too small for it. -/
theorem signed_kernel_trusted {signer : Signer} {source : ChainSource} {dataKey : SigningKey}
    {options : SignOptions} {primitives : TrustPrimitives} {payload : PayloadFormat}
    {root : PackedKey} (body : Bytes) (padding : Nat)
    (made : Signer.make source dataKey options primitives payload = .ok signer)
    (under : signer.SoftwareTrusted root) :
    (∀ image, sign body signer padding = .ok image →
      ∃ chain keyblock, chainFor signer body = .ok chain ∧ signer.keyblock.encode = .ok keyblock ∧
        ∀ tail, ∃ k zeros, parse (image ++ tail) = .ok k ∧ k.body = body ∧
          k.headerSize.toNat = (if padding = 0 then 16 + chain.length else padding) ∧
          k.chainArea = chain ++ List.replicate zeros 0 ∧
          k.vblock = .ok chain ∧ k.keyblockBytes = .ok keyblock ∧
          ImageKind.ofImage (image ++ tail) = .kernel ∧
          ∀ verification : VerifyOptions,
            verification.minVersion = none → verification.bootMode = none →
            verify (image ++ tail) root verification = .ok (.trusted {
              version := options.version.getD 1
              flags := options.flags.getD 0
              keyVersion := signer.keyblock.dataKey.version
              bodyLength := body.length
              keyblockFlags := signer.keyblock.flags
              dataKey := signer.keyblock.dataKey
              subkey := options.subkey })) ∧
    ∀ needed available, sign body signer padding = .error (.codec (.areaTooSmall needed available)) ↔
      ∃ chain, chainFor signer body = .ok chain ∧ padding ≠ 0 ∧ padding < 16 + chain.length ∧
        needed = 16 + chain.length ∧ available = padding := by
  refine ⟨fun image signed => ?_, fun needed available => sign_eq_areaTooSmall⟩
  obtain ⟨hk, algorithm, rfl, -, -⟩ := Signer.make_ok made
  obtain ⟨chain, hchain, assembled⟩ := sign_eq_ok.1 signed
  obtain ⟨c, keyblock, hc, length, encoded, start, inArea⟩ := chainFor_ok hchain hk algorithm under
  refine ⟨chain, keyblock, hchain, encoded, fun tail => ?_⟩
  obtain ⟨k, parsed, headerSize, hbody, area⟩ := parse_of_assemble assembled tail
  have inHeader : chain <+: k.chainArea := by
    rw [area]
    exact List.prefix_append _ _
  obtain ⟨found, trusted⟩ := inArea k.chainArea inHeader
  refine ⟨k, _, parsed, hbody, headerSize, area, ?_, ?_, kind_of_parse parsed, ?_⟩
  · rw [vblock_of_parse found, take_eq_of_isPrefix inHeader length.symm]
  · have keyblockLength : keyblock.length = c.keyblock.byteLength := by
      rw [hc, Keyblock.length_encode encoded]
    rw [keyblockBytes_of_parse found, take_eq_of_isPrefix (start.trans inHeader) keyblockLength]
  · intro verification noMinimum noMode
    rw [verify_of_parse root verification parsed, hbody, trusted verification noMinimum noMode]

/-- A body of three bytes is signed with the smallest header, and trusted with two bytes after it. A
header of 300 bytes would be too small. -/
theorem software_kernel_trusted : ∃ image, sign [1, 2, 3] Signer.softwareSigner 0 = .ok image ∧
    ImageKind.ofImage (image ++ [9, 9]) = .kernel ∧
    verify (image ++ [9, 9]) Signer.softwareRootKey .none
      = .ok (.trusted ⟨3, 8, 5, 3, .all, Signer.softwareKeyblock.dataKey, some ⟨1, 2, [6, 6]⟩⟩) ∧
    sign [1, 2, 3] Signer.softwareSigner 300 = .error (.codec (.areaTooSmall 374 300)) := by
  have run : (chainFor Signer.softwareSigner [1, 2, 3]).map List.length = .ok 358 := by
    decide +kernel
  obtain ⟨chain, hchain, length⟩ := map_eq_ok.1 run
  have size : headerSizeFor chain 0 = 374 := by
    rw [headerSizeFor, if_pos rfl, length]
    rfl
  have assembled : ∃ image, assemble chain [1, 2, 3] (headerSizeFor chain 0) = .ok image := by
    rw [size]
    exact ⟨_, assemble_eq_ok.2 ⟨by rw [length]; decide, 374, 3, rfl, rfl, rfl⟩⟩
  obtain ⟨image, himage⟩ := assembled
  have signed := sign_eq_ok.2 ⟨chain, hchain, himage⟩
  obtain ⟨whole, -⟩ := signed_kernel_trusted [1, 2, 3] 0 Signer.make_softwareSigner
    Signer.softwareTrusted_softwareSigner
  obtain ⟨-, lacking⟩ := signed_kernel_trusted [1, 2, 3] 300 Signer.make_softwareSigner
    Signer.softwareTrusted_softwareSigner
  obtain ⟨_, _, -, -, all⟩ := whole image signed
  obtain ⟨_, _, -, -, -, -, -, -, kind, trusted⟩ := all [9, 9]
  refine ⟨image, signed, kind, trusted .none rfl rfl, (lacking 374 300).2 ⟨chain, hchain, ?_⟩⟩
  rw [length]
  decide

end KernelImage
end VerifiedBoot

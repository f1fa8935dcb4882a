/-
Tamper evidence. Where the primitives accept no signatures but the three of one trusted slot, there
is no other trusted slot: every byte of the chain and of the signed body is pinned by a signature or
by a field that is compared with what was signed.
-/
import VerifiedBoot.Proofs.Verification.Checks

namespace VerifiedBoot

/-! ## What an accepted signature pins -/

/-- A signature record that was accepted is known from its key, its data and its blob. -/
theorem Signature.eq_of_verifyData {s s' : Signature} {key : PackedKey} {data : Bytes}
    {primitives : TrustPrimitives} (h : s.verifyData key data primitives = .ok ())
    (h' : s'.verifyData key data primitives = .ok ()) (hb : s.blob = s'.blob) : s = s' := by
  obtain ⟨hk, hd, ha, -⟩ := verifyData_eq_ok.1 h
  obtain ⟨hk', hd', ha', -⟩ := verifyData_eq_ok.1 h'
  have hsize : s.dataSize = s'.dataSize := UInt32.toNat.inj (hd.trans hd'.symm)
  cases s
  cases s'
  simp_all

/-- Two keyblocks that a key accepts with the same data and blob are the same. -/
theorem Keyblock.eq_of_signed {k k' : Keyblock} {key : PackedKey} {data : Bytes}
    {primitives : TrustPrimitives} (h : k.verifySignature key primitives = .ok ())
    (h' : k'.verifySignature key primitives = .ok ()) (hd : k.signedBytes = .ok data)
    (hd' : k'.signedBytes = .ok data) (hb : k.signature.blob = k'.signature.blob) : k = k' := by
  obtain ⟨signed, hs, hv⟩ := verifySignature_eq_ok.1 h
  obtain ⟨signed', hs', hv'⟩ := verifySignature_eq_ok.1 h'
  obtain rfl := Except.ok.inj (hd.symm.trans hs)
  obtain rfl := Except.ok.inj (hd'.symm.trans hs')
  exact eq_of_signedBytes hd hd' (Signature.eq_of_verifyData hv hv' hb)

/-- Two preambles that a data key accepts with the same data and blob are the same. -/
theorem Preamble.eq_of_signed {p p' : Preamble} {key : PackedKey} {data : Bytes}
    {primitives : TrustPrimitives} (h : p.verifySignature key primitives = .ok ())
    (h' : p'.verifySignature key primitives = .ok ()) (hd : p.signedBytes = .ok data)
    (hd' : p'.signedBytes = .ok data) (hb : p.signature.blob = p'.signature.blob) : p = p' := by
  obtain ⟨signed, hs, hv⟩ := verifySignature_eq_ok.1 h
  obtain ⟨signed', hs', hv'⟩ := verifySignature_eq_ok.1 h'
  obtain rfl := Except.ok.inj (hd.symm.trans hs)
  obtain rfl := Except.ok.inj (hd'.symm.trans hs')
  exact eq_of_signedBytes hd hd' (Signature.eq_of_verifyData hv hv' hb)

/-- Areas that hold the same chain agree on all of its bytes. -/
theorem TrustChain.take_eq_of_parse {c : TrustChain} {area area' : Bytes}
    (h : parse area = .ok c) (h' : parse area' = .ok c) :
    c.byteLength ≤ area'.length ∧ area'.take c.byteLength = area.take c.byteLength := by
  have hp : area.take c.byteLength <+: area' := (parse_eq_ok_iff_of_parse h).1 h'
  exact ⟨byteLength_le_of_parse h',
    take_eq_of_isPrefix hp (List.length_take_of_le (byteLength_le_of_parse h))⟩

/-! ## Only one slot is trusted -/

/-- If the root key accepts only the signature of one keyblock, and the data key in it only those of
one preamble and one body, which cannot be taken for each other, then whatever is trusted has the
chain of that keyblock and preamble, that body, and the same facts. -/
theorem trusted_slot_unique {primitives : TrustPrimitives} {root : PackedKey}
    {options : VerifyOptions} {payload : PayloadFormat} {area body : Bytes} {slot : TrustedSlot}
    {c : TrustChain}
    (trusted : Verifier.judge ⟨options, primitives, payload⟩ root area body = .trusted slot)
    (parsed : TrustChain.parse area = .ok c)
    (classical : c.preamble.bodySignature.kind = .classical)
    (onlyKeyblock : ∀ data blob, primitives.verify root data blob = .ok () →
      c.keyblock.signedBytes = .ok data ∧ blob = c.keyblock.signature.blob)
    (onlyPreambleAndBody : ∀ data blob,
      primitives.verify c.keyblock.dataKey data blob = .ok () →
        (c.preamble.signedBytes = .ok data ∧ blob = c.preamble.signature.blob) ∨
        (data = body.take c.preamble.bodyLength ∧ blob = c.preamble.bodySignature.blob))
    (blobsDiffer : c.preamble.signature.blob ≠ c.preamble.bodySignature.blob)
    (noPreamble : ∀ p : Preamble, p.signedBytes ≠ .ok (body.take c.preamble.bodyLength))
    {options' : VerifyOptions} {payload' : PayloadFormat} {area' body' : Bytes}
    {slot' : TrustedSlot}
    (trusted' : Verifier.judge ⟨options', primitives, payload'⟩ root area' body' = .trusted slot') :
    (c.byteLength ≤ area'.length ∧ area'.take c.byteLength = area.take c.byteLength) ∧
    (c.preamble.bodyLength ≤ body'.length ∧
      body'.take c.preamble.bodyLength = body.take c.preamble.bodyLength) ∧
    slot' = slot := by
  obtain ⟨c₀, hc₀, passes, rfl⟩ := Verifier.judge_eq_trusted_iff.1 trusted
  obtain rfl := Except.ok.inj (hc₀.symm.trans parsed)
  obtain ⟨c', parsed', passes', rfl⟩ := Verifier.judge_eq_trusted_iff.1 trusted'
  -- the root key has accepted the keyblock, which fixes the data key
  have keyblock : c'.keyblock = c₀.keyblock := by
    obtain ⟨signed, hs, hv⟩ := Keyblock.verifySignature_eq_ok.1 passes'.keyblockSigned
    obtain ⟨-, -, -, accepted⟩ := Signature.verifyData_eq_ok.1 hv
    obtain ⟨hd, hb⟩ := onlyKeyblock _ _ accepted
    exact Keyblock.eq_of_signed passes'.keyblockSigned passes.keyblockSigned hs hd hb
  have preambleSigned := passes'.preambleSigned
  rw [keyblock] at preambleSigned
  -- the data key has accepted the preamble, which is no body
  have preamble : c'.preamble = c₀.preamble := by
    obtain ⟨signed, hs, hv⟩ := Preamble.verifySignature_eq_ok.1 preambleSigned
    obtain ⟨-, -, -, accepted⟩ := Signature.verifyData_eq_ok.1 hv
    rcases onlyPreambleAndBody _ _ accepted with ⟨hd, hb⟩ | ⟨rfl, -⟩
    · exact Preamble.eq_of_signed preambleSigned passes.preambleSigned hs hd hb
    · exact absurd hs (noPreamble c'.preamble)
  obtain rfl : c' = c₀ := by
    cases c'
    cases c₀
    simp_all
  -- the data key has accepted the body, whose blob is not that of the preamble
  have signedBody : body'.take c'.preamble.bodyLength = body.take c'.preamble.bodyLength := by
    have valid := passes'.bodyValid
    rw [Verifier.bodyValid_classical classical] at valid
    obtain ⟨-, -, -, accepted⟩ := Signature.verifyData_eq_ok.1 valid
    rcases onlyPreambleAndBody _ _ accepted with ⟨-, hb⟩ | ⟨hd, -⟩
    · exact absurd hb.symm blobsDiffer
    · exact hd
  exact ⟨TrustChain.take_eq_of_parse parsed parsed', ⟨passes'.bodyFits, signedBody⟩, rfl⟩

/-- Primitives that accept the listed signatures and no others. -/
def TrustPrimitives.accepting (accepted : List (PackedKey × Bytes × Bytes)) : TrustPrimitives where
  digest := Software.digest
  checkKey _ := .ok ()
  verify key data blob :=
    if (key, data, blob) ∈ accepted then .ok () else .error .invalidSignature

theorem TrustPrimitives.verify_accepting {accepted : List (PackedKey × Bytes × Bytes)}
    {key : PackedKey} {data blob : Bytes} :
    (accepting accepted).verify key data blob = .ok () ↔ (key, data, blob) ∈ accepted := by
  show (if _ then _ else _) = _ ↔ _
  split_ifs with h
  · exact ⟨fun _ => h, fun _ => rfl⟩
  · constructor
    · intro he; cases he
    · intro hm; exact absurd hm h

namespace TrustChain

/-- The three signatures of the sample chain, over its keyblock, its preamble and a body. -/
def sampleSignatures : List (PackedKey × Bytes × Bytes) :=
  [(sampleRoot, sample.keyblock.signedBytes.toOption.getD [], [1]),
   (sample.keyblock.dataKey, sample.preamble.signedBytes.toOption.getD [], [2]),
   (sample.keyblock.dataKey, [10, 11, 12, 13], [3])]

/-- The sample chain is trusted, and again with other bytes after chain and body and under stricter
options: both are the one slot there is. -/
theorem sample_slot_unique :
    Verifier.judge ⟨.none, .accepting sampleSignatures, .raw⟩ sampleRoot (sampleBytes ++ [0, 0])
      [10, 11, 12, 13, 14] = .trusted sample.facts ∧
    Verifier.judge ⟨⟨none, some .normal, some 0x50006⟩, .accepting sampleSignatures, .indexed⟩
      sampleRoot (sampleBytes ++ [5]) [10, 11, 12, 13] = .trusted sample.facts ∧
    (sampleBytes ++ [5]).take sample.byteLength = (sampleBytes ++ [0, 0]).take sample.byteLength ∧
    [10, 11, 12, 13].take sample.preamble.bodyLength
      = ([10, 11, 12, 13, 14] : Bytes).take sample.preamble.bodyLength := by
  have trusted : Verifier.judge ⟨.none, .accepting sampleSignatures, .raw⟩ sampleRoot
      (sampleBytes ++ [0, 0]) [10, 11, 12, 13, 14] = .trusted sample.facts := by decide +kernel
  have trusted' : Verifier.judge
      ⟨⟨none, some .normal, some 0x50006⟩, .accepting sampleSignatures, .indexed⟩ sampleRoot
      (sampleBytes ++ [5]) [10, 11, 12, 13] = .trusted sample.facts := by decide +kernel
  have unique := trusted_slot_unique trusted (parse_sampleBytes_append _) rfl
    (by
      intro data blob h
      rw [TrustPrimitives.verify_accepting] at h
      simp only [sampleSignatures, List.mem_cons, Prod.mk.injEq, List.not_mem_nil, or_false] at h
      rcases h with ⟨-, rfl, rfl⟩ | ⟨h, -⟩ | ⟨h, -⟩
      · exact ⟨rfl, rfl⟩
      · exact absurd h (by decide)
      · exact absurd h (by decide))
    (by
      intro data blob h
      rw [TrustPrimitives.verify_accepting] at h
      simp only [sampleSignatures, List.mem_cons, Prod.mk.injEq, List.not_mem_nil, or_false] at h
      rcases h with ⟨h, -⟩ | ⟨-, rfl, rfl⟩ | ⟨-, rfl, rfl⟩
      · exact absurd h (by decide)
      · exact .inl ⟨rfl, rfl⟩
      · exact .inr ⟨rfl, rfl⟩)
    (by decide)
    (by
      intro p h
      have := Preamble.length_signedBytes h
      unfold Preamble.signedLength Preamble.headerSize Signature.byteLength Signature.headerSize at this
      rw [show (([10, 11, 12, 13, 14] : Bytes).take sample.preamble.bodyLength).length = 4 from rfl]
        at this
      omega)
    trusted'
  exact ⟨trusted, trusted', unique.1.2, unique.2.1.2⟩

end TrustChain

end VerifiedBoot

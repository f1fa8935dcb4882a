/-
The bytes that a trusted verdict rests on. They are exactly those of the encoded chain and of the
signed body: whatever follows them may be replaced, grown or cut off and the verdict stays, and with
one byte less of either there is no trust.
-/
import VerifiedBoot.Proofs.Verification.Stages

namespace VerifiedBoot

namespace TrustChain
variable {c : TrustChain} {area area' : Bytes}

/-- Bytes after an area do not change the chain in it. -/
theorem parse_of_isPrefix (h : parse area = .ok c) (hp : area <+: area') : parse area' = .ok c :=
  (parse_eq_ok_iff_of_parse h).2 ((List.take_prefix _ _).trans hp)

/-- The start of an area holds a chain just if it has all bytes of the chain in that area. -/
theorem parse_take_iff (h : parse area = .ok c) {m : Nat} :
    (∃ c', parse (area.take m) = .ok c') ↔ c.byteLength ≤ m := by
  constructor
  · rintro ⟨c', h'⟩
    obtain rfl := Except.ok.inj (h.symm.trans (parse_of_isPrefix h' (List.take_prefix m area)))
    exact (byteLength_le_of_parse h').trans (List.length_take_le m area)
  · intro hle
    exact ⟨c, (parse_eq_ok_iff_of_parse h).2 (List.take_prefix_take_left hle)⟩

end TrustChain

namespace Verifier
variable {v : Verifier} {key : PackedKey} {area body : Bytes} {slot : TrustedSlot}

/-- Only the signed range of a body is looked at. -/
theorem Passes.of_isPrefix {c : TrustChain} {body' : Bytes} (h : v.Passes key c body)
    (hp : body.take c.preamble.bodyLength <+: body') : v.Passes key c body' := by
  have range : (body.take c.preamble.bodyLength).length = c.preamble.bodyLength :=
    List.length_take_of_le h.bodyFits
  have same : body'.take c.preamble.bodyLength = body.take c.preamble.bodyLength :=
    take_eq_of_isPrefix hp range
  exact { h with
    bodyFits := range ▸ hp.length_le
    bodyValid := same.symm ▸ h.bodyValid }

/-- Areas that begin with the same chain and the same signed body get the same verdict. -/
theorem judge_of_isPrefix {c : TrustChain} {area' body' : Bytes}
    (trusted : v.judge key area body = .trusted slot) (parsed : TrustChain.parse area = .ok c)
    (harea : area.take c.byteLength <+: area') (hbody : body.take slot.bodyLength <+: body') :
    v.judge key area' body' = .trusted slot := by
  obtain ⟨c₀, hc₀, passes, rfl⟩ := judge_eq_trusted_iff.1 trusted
  obtain rfl := Except.ok.inj (parsed.symm.trans hc₀)
  exact judge_eq_trusted_iff.2
    ⟨c, (TrustChain.parse_eq_ok_iff_of_parse parsed).2 harea, passes.of_isPrefix hbody, rfl⟩

/-- A verdict of trust rests on the encoded chain and on the signed body, on all of their bytes and
on no others. -/
theorem trusted_extent (trusted : v.judge key area body = .trusted slot) :
    ∃ c, TrustChain.parse area = .ok c ∧ c.byteLength ≤ area.length ∧
      slot.bodyLength ≤ body.length ∧
      c.encode area.length = .ok (area.take c.byteLength) ∧
      (∀ rest rest', v.judge key (area.take c.byteLength ++ rest)
        (body.take slot.bodyLength ++ rest') = .trusted slot) ∧
      ∀ m l, (v.judge key (area.take m) (body.take l)).isTrusted = true ↔
        c.byteLength ≤ m ∧ slot.bodyLength ≤ l := by
  obtain ⟨c, parsed, passes, rfl⟩ := judge_eq_trusted_iff.1 trusted
  refine ⟨c, parsed, TrustChain.byteLength_le_of_parse parsed, passes.bodyFits,
    TrustChain.encode_of_parse parsed, ?_, ?_⟩
  · intro rest rest'
    exact judge_of_isPrefix trusted parsed (List.prefix_append _ rest) (List.prefix_append _ rest')
  · intro m l
    constructor
    · intro still
      cases hj : v.judge key (area.take m) (body.take l) with
      | untrusted reason stage => rw [hj] at still; cases still
      | trusted slot' =>
        obtain ⟨c', parsed', passes', -⟩ := judge_eq_trusted_iff.1 hj
        obtain rfl := Except.ok.inj
          (parsed.symm.trans (TrustChain.parse_of_isPrefix parsed' (List.take_prefix m area)))
        exact ⟨(TrustChain.parse_take_iff parsed).1 ⟨_, parsed'⟩,
          passes'.bodyFits.trans (List.length_take_le l body)⟩
    · rintro ⟨hm, hl⟩
      rw [judge_of_isPrefix trusted parsed (List.take_prefix_take_left hm)
        (List.take_prefix_take_left hl)]
      rfl

end Verifier

/-- The sample chain is trusted with any bytes after it and after its body, and with none, but not
without its last byte, and not without the last byte of its body. -/
theorem TrustChain.sample_extent :
    Verifier.judge ⟨.none, .trusting [sampleRoot, sample.keyblock.dataKey], .raw⟩ sampleRoot
      (sampleBytes ++ [0, 0]) [10, 11, 12, 13, 14] = .trusted sample.facts ∧
    sample.byteLength = 138 ∧ sample.facts.bodyLength = 4 ∧
    Verifier.judge ⟨.none, .trusting [sampleRoot, sample.keyblock.dataKey], .raw⟩ sampleRoot
      ((sampleBytes ++ [0, 0]).take 138 ++ [7, 7, 7]) [10, 11, 12, 13] = .trusted sample.facts ∧
    (Verifier.judge ⟨.none, .trusting [sampleRoot, sample.keyblock.dataKey], .raw⟩ sampleRoot
      ((sampleBytes ++ [0, 0]).take 138) [10, 11, 12, 13]).isTrusted = true ∧
    (Verifier.judge ⟨.none, .trusting [sampleRoot, sample.keyblock.dataKey], .raw⟩ sampleRoot
      ((sampleBytes ++ [0, 0]).take 137) [10, 11, 12, 13]).isTrusted = false ∧
    (Verifier.judge ⟨.none, .trusting [sampleRoot, sample.keyblock.dataKey], .raw⟩ sampleRoot
      ((sampleBytes ++ [0, 0]).take 138) [10, 11, 12]).isTrusted = false := by
  have trusted : Verifier.judge ⟨.none, .trusting [sampleRoot, sample.keyblock.dataKey], .raw⟩
      sampleRoot (sampleBytes ++ [0, 0]) [10, 11, 12, 13, 14] = .trusted sample.facts := by
    decide +kernel
  have length : sample.byteLength = 138 := by decide
  have bodyLength : sample.facts.bodyLength = 4 := by decide
  obtain ⟨c, parsed, -, -, -, replaced, cut⟩ := Verifier.trusted_extent trusted
  obtain rfl := Except.ok.inj (parsed.symm.trans (parse_sampleBytes_append [0, 0]))
  rw [length, bodyLength] at replaced
  simp only [length, bodyLength] at cut
  refine ⟨trusted, length, bodyLength, replaced [7, 7, 7] [], (cut 138 4).2 (by decide), ?_, ?_⟩
  · exact Bool.eq_false_iff.2 fun h => absurd ((cut 137 4).1 h) (by decide)
  · exact Bool.eq_false_iff.2 fun h => absurd ((cut 138 3).1 h) (by decide)

end VerifiedBoot

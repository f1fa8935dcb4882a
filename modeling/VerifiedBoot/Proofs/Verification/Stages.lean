/-
The order of the checks of a slot. Each verdict names the first check that fails, and the stage that
it reports is reached just if all checks before that stage pass. A keyblock or a preamble is used
only when the signature over it has been checked: two records that nobody has signed get the same
verdict, whatever else they say.
-/
import VerifiedBoot.Proofs.Verification.Checks

namespace VerifiedBoot

/-! ## The checks -/

/-- The checks of a slot, in the order in which they are made. -/
inductive SlotCheck where
  | keyblockFormed
  | checksumRight
  | keyblockSigned
  | modeAllowed
  | keyUsable
  | keyVersionInRange
  | preambleFormed
  | preambleSigned
  | versionReached
  | bodyFits
  | bodyValid
deriving DecidableEq

namespace SlotCheck

/-- The reason for which a check refuses a slot, and the last stage before it. -/
def fault : SlotCheck → UntrustedReason × Stage
  | keyblockFormed => (.keyblockMalformed, .start)
  | checksumRight => (.checksumMismatch, .start)
  | keyblockSigned => (.keyblockSignatureInvalid, .keyblockChecksumOk)
  | modeAllowed => (.keyblockFlagsMismatch, .keyblockSigVerified)
  | keyUsable => (.dataKeyMalformed, .keyblockSigVerified)
  | keyVersionInRange => (.dataKeyMalformed, .keyblockSigVerified)
  | preambleFormed => (.preambleMalformed, .dataKeyValid)
  | preambleSigned => (.preambleSignatureInvalid, .dataKeyValid)
  | versionReached => (.rollbackRejected, .preambleSigVerified)
  | bodyFits => (.bodyTooLarge, .preambleSigVerified)
  | bodyValid => (.bodySignatureInvalid, .preambleSigVerified)

/-- What a check asks of the keyblock and the preamble in an area and of the body; of a record that
cannot be read it asks nothing. -/
def Holds (v : Verifier) (key : PackedKey) (area body : Bytes) : SlotCheck → Prop
  | keyblockFormed => ∀ e, Keyblock.parse area = .error e → e = .checksumMismatch
  | checksumRight => Keyblock.parse area ≠ .error .checksumMismatch
  | keyblockSigned => ∀ k, Keyblock.parse area = .ok k → k.verifySignature key v.primitives = .ok ()
  | modeAllowed => ∀ k, Keyblock.parse area = .ok k →
      ∀ mode, v.options.bootMode = some mode → k.allows mode = true
  | keyUsable => ∀ k, Keyblock.parse area = .ok k → v.primitives.checkKey k.dataKey = .ok ()
  | keyVersionInRange => ∀ k, Keyblock.parse area = .ok k → k.dataKey.version ≤ maxKeyVersion
  | preambleFormed => ∀ k, Keyblock.parse area = .ok k →
      ∃ p, Preamble.parse area k.size.toNat = .ok p
  | preambleSigned => ∀ k, Keyblock.parse area = .ok k →
      ∀ p, Preamble.parse area k.size.toNat = .ok p →
        p.verifySignature k.dataKey v.primitives = .ok ()
  | versionReached => ∀ k, Keyblock.parse area = .ok k →
      ∀ p, Preamble.parse area k.size.toNat = .ok p →
        ∀ minimum, v.options.minVersion = some minimum →
          ∃ version, p.combinedVersion k.dataKey = some version ∧ minimum ≤ version
  | bodyFits => ∀ k, Keyblock.parse area = .ok k →
      ∀ p, Preamble.parse area k.size.toNat = .ok p → p.bodyLength ≤ body.length
  | bodyValid => ∀ k, Keyblock.parse area = .ok k →
      ∀ p, Preamble.parse area k.size.toNat = .ok p →
        v.bodyValid (body.take p.bodyLength) p.bodySignature k.dataKey = true

/-- The number of checks that are made before a check. -/
def position : SlotCheck → Nat
  | keyblockFormed => 0
  | checksumRight => 1
  | keyblockSigned => 2
  | modeAllowed => 3
  | keyUsable => 4
  | keyVersionInRange => 5
  | preambleFormed => 6
  | preambleSigned => 7
  | versionReached => 8
  | bodyFits => 9
  | bodyValid => 10

theorem forall_iff {p : SlotCheck → Prop} :
    (∀ c, p c) ↔ p keyblockFormed ∧ p checksumRight ∧ p keyblockSigned ∧ p modeAllowed ∧
      p keyUsable ∧ p keyVersionInRange ∧ p preambleFormed ∧ p preambleSigned ∧
      p versionReached ∧ p bodyFits ∧ p bodyValid := by
  constructor
  · intro h
    exact ⟨h _, h _, h _, h _, h _, h _, h _, h _, h _, h _, h _⟩
  · rintro ⟨h₁, h₂, h₃, h₄, h₅, h₆, h₇, h₈, h₉, h₁₀, h₁₁⟩ c
    cases c <;> assumption

theorem eq_of_position_eq {c d : SlotCheck} (h : c.position = d.position) : c = d := by
  cases c <;> cases d <;> first | rfl | cases h

/-- Later checks belong to later stages. -/
theorem stage_le_of_position_le {c d : SlotCheck} (h : c.position ≤ d.position) :
    c.fault.2.rank ≤ d.fault.2.rank := by
  revert h
  cases c <;> cases d <;> decide

/-- No check stands after the last stage. -/
theorem stage_lt_bodyVerified (c : SlotCheck) : c.fault.2.rank < Stage.bodyVerified.rank := by
  cases c <;> decide

variable (v : Verifier) (key : PackedKey) (area body : Bytes)

/-- The checks before a position all pass. -/
def PassedBefore (n : Nat) : Prop := ∀ c : SlotCheck, c.position < n → c.Holds v key area body

/-- A check that fails, where all checks before it pass. -/
structure FirstToFail (c : SlotCheck) : Prop where
  fails : ¬ c.Holds v key area body
  earlier : PassedBefore v key area body c.position

variable {v key area body}

theorem passedBefore_zero : PassedBefore v key area body 0 := fun _ h =>
  absurd h (Nat.not_lt_zero _)

theorem PassedBefore.next (c : SlotCheck) (h : PassedBefore v key area body c.position)
    (hc : c.Holds v key area body) : PassedBefore v key area body (c.position + 1) := by
  intro d hd
  rcases Nat.lt_succ_iff_lt_or_eq.1 hd with hlt | heq
  · exact h d hlt
  · rw [eq_of_position_eq heq]
    exact hc

theorem passedBefore_keyblockSigned {k : Keyblock} (hk : Keyblock.parse area = .ok k) :
    PassedBefore v key area body (position .keyblockSigned) :=
  (passedBefore_zero.next .keyblockFormed (by simp [Holds, hk])).next .checksumRight
    (by simp [Holds, hk])

theorem FirstToFail.unique {c d : SlotCheck} (hc : FirstToFail v key area body c)
    (hd : FirstToFail v key area body d) : c = d := by
  rcases Nat.lt_trichotomy c.position d.position with h | h | h
  · exact absurd (hd.earlier c h) hc.fails
  · exact eq_of_position_eq h
  · exact absurd (hc.earlier d h) hd.fails

/-- Where a check fails, it is the first to fail or a check before it is. -/
theorem exists_firstToFail {c : SlotCheck} (h : ¬ c.Holds v key area body) :
    ∃ d : SlotCheck, FirstToFail v key area body d ∧ d.position ≤ c.position := by
  obtain ⟨d, hd, first⟩ := (measure position).wf.has_min {d | ¬ d.Holds v key area body} ⟨c, h⟩
  refine ⟨d, ⟨hd, fun b hb => ?_⟩, Nat.not_lt.1 (first c h)⟩
  by_contra hn
  exact first b hn hb

end SlotCheck

/-! ## Verdicts and checks -/

/-- A data key of a version in range gives a rollback version. -/
theorem Preamble.combinedVersion_of_le (p : Preamble) {dataKey : PackedKey}
    (h : dataKey.version ≤ maxKeyVersion) :
    p.combinedVersion dataKey = some ((dataKey.version <<< 16) ||| p.version.toUInt32) :=
  if_neg (UInt32.not_lt.2 h)

namespace Verifier
open SlotCheck
variable {v : Verifier} {key : PackedKey} {area body : Bytes}

theorem demand_eq_error {p : Bool} {reason : UntrustedReason} {stage : Stage}
    {fault : UntrustedReason × Stage} :
    demand p reason stage = .error fault ↔ ¬ p = true ∧ (reason, stage) = fault := by
  cases p <;> simp [demand]

/-- A rollback version, where there is one, can only be too low. -/
theorem demandVersion_eq_error {version : UInt32} {fault : UntrustedReason × Stage} :
    v.demandVersion (some version) = .error fault ↔
      ¬ (∀ minimum, v.options.minVersion = some minimum → minimum ≤ version) ∧
        (.rollbackRejected, .preambleSigVerified) = fault := by
  unfold demandVersion
  cases v.options.minVersion with
  | none => simp
  | some minimum => simp [demand_eq_error]

theorem modeAllowed_iff {k : Keyblock} :
    v.modeAllowed k = true ↔ ∀ mode, v.options.bootMode = some mode → k.allows mode = true := by
  unfold modeAllowed
  cases v.options.bootMode <;> simp

/-- Where all earlier checks have passed, a check either is the first to fail, and the verification
ends with its fault, or has passed as well. -/
theorem step_of_demand {c : SlotCheck} {p : Bool} {α : Type}
    {next : Unit → Except (UntrustedReason × Stage) α} {fault : UntrustedReason × Stage}
    (passed : PassedBefore v key area body c.position)
    (holds : c.Holds v key area body ↔ p = true)
    (h : (demand p c.fault.1 c.fault.2 >>= next) = .error fault) :
    (∃ d, FirstToFail v key area body d ∧ d.fault = fault) ∨
      PassedBefore v key area body (c.position + 1) ∧ c.Holds v key area body ∧
        next () = .error fault := by
  cases p with
  | true => exact .inr ⟨passed.next c (holds.2 rfl), holds.2 rfl, h⟩
  | false =>
    cases h
    exact .inl ⟨c, ⟨mt holds.1 Bool.false_ne_true, passed⟩, rfl⟩

/-- A keyblock that cannot be read is the fault of one of the first two checks. -/
theorem firstToFail_of_keyblock_error {e : CodecError} (hk : Keyblock.parse area = .error e) :
    ∃ c : SlotCheck, FirstToFail v key area body c ∧ c.fault = (keyblockFault e, .start) := by
  have formed : SlotCheck.keyblockFormed.Holds v key area body ↔ e = .checksumMismatch := by
    simp [Holds, hk]
  by_cases he : e = .checksumMismatch
  · refine ⟨.checksumRight, ⟨?_, passedBefore_zero.next .keyblockFormed (formed.2 he)⟩, ?_⟩
    · simp [Holds, hk, he]
    · rw [he]; rfl
  · refine ⟨.keyblockFormed, ⟨mt formed.1 he, passedBefore_zero⟩, ?_⟩
    cases e with
    | checksumMismatch => exact absurd rfl he
    | _ => rfl

/-- A verification that ends without trust ends at the first check that fails. -/
theorem examine_eq_error {fault : UntrustedReason × Stage}
    (h : v.examine key area body = .error fault) :
    ∃ c : SlotCheck, FirstToFail v key area body c ∧ c.fault = fault := by
  unfold examine at h
  rcases bind_eq_error.1 h with h | ⟨k, hk, h⟩
  · obtain ⟨e, hk, rfl⟩ := mapError_eq_error.1 h
    exact firstToFail_of_keyblock_error hk
  rw [mapError_ok_iff] at hk
  have passed : PassedBefore v key area body (position .keyblockSigned) :=
    passedBefore_keyblockSigned hk
  rcases step_of_demand passed ((forall_ok_iff hk).trans isOk_iff.symm) h with
    found | ⟨passed, -, h⟩
  · exact found
  rcases step_of_demand (c := .modeAllowed) passed
    ((forall_ok_iff hk).trans modeAllowed_iff.symm) h with found | ⟨passed, -, h⟩
  · exact found
  rcases step_of_demand (c := .keyUsable) passed
    ((forall_ok_iff hk).trans isOk_iff.symm) h with found | ⟨passed, -, h⟩
  · exact found
  rcases step_of_demand (c := .keyVersionInRange) passed
    ((forall_ok_iff hk).trans decide_eq_true_iff.symm) h with found | ⟨passed, inRange, h⟩
  · exact found
  rcases bind_eq_error.1 h with h | ⟨p, hp, h⟩
  · obtain ⟨e, hp, rfl⟩ := mapError_eq_error.1 h
    refine ⟨.preambleFormed, ⟨fun formed => ?_, passed⟩, rfl⟩
    obtain ⟨p, hp'⟩ := formed k hk
    rw [hp] at hp'
    cases hp'
  rw [mapError_ok_iff] at hp
  replace passed := passed.next .preambleFormed ((forall_ok_iff hk).2 ⟨p, hp⟩)
  -- from here on the checks are about the keyblock and the preamble that were read
  have of {q : Keyblock → Preamble → Prop} :
      (∀ k, Keyblock.parse area = .ok k → ∀ p, Preamble.parse area k.size.toNat = .ok p → q k p) ↔
        q k p := (forall_ok_iff hk).trans (forall_ok_iff hp)
  rcases step_of_demand (c := .preambleSigned) passed (of.trans isOk_iff.symm) h with
    found | ⟨passed, -, h⟩
  · exact found
  -- a key version in range gives a rollback version, which can only be too low
  have version := p.combinedVersion_of_le ((forall_ok_iff hk).1 inRange)
  rcases bind_eq_error.1 h with hv | ⟨_, hv, h⟩
  · rw [version, demandVersion_eq_error] at hv
    obtain ⟨hv, rfl⟩ := hv
    refine ⟨.versionReached, ⟨fun reached => hv fun minimum hmin => ?_, passed⟩, rfl⟩
    obtain ⟨n, hn, hle⟩ := of.1 reached minimum hmin
    rw [version] at hn
    cases hn
    exact hle
  replace passed := passed.next .versionReached (of.2 (demandVersion_eq_ok.1 hv))
  rcases step_of_demand (c := .bodyFits) passed (of.trans decide_eq_true_iff.symm) h with
    found | ⟨passed, -, h⟩
  · exact found
  rcases step_of_demand (c := .bodyValid) passed of h with found | ⟨passed, -, h⟩
  · exact found
  cases h

/-- Every check of a slot that is trusted holds. -/
theorem holds_of_trusted {slot : TrustedSlot} (h : v.judge key area body = .trusted slot)
    (c : SlotCheck) : c.Holds v key area body := by
  obtain ⟨⟨k, p⟩, parsed, passes, -⟩ := judge_eq_trusted_iff.1 h
  obtain ⟨hk, hp⟩ := TrustChain.parse_eq_ok.1 parsed
  cases c with
  | keyblockFormed => simp [Holds, hk]
  | checksumRight => simp [Holds, hk]
  | keyblockSigned => exact (forall_ok_iff hk).2 passes.keyblockSigned
  | modeAllowed => exact (forall_ok_iff hk).2 (modeAllowed_iff.1 passes.modeAllowed)
  | keyUsable => exact (forall_ok_iff hk).2 passes.keyUsable
  | keyVersionInRange => exact (forall_ok_iff hk).2 passes.keyVersion
  | preambleFormed => exact (forall_ok_iff hk).2 ⟨p, hp⟩
  | preambleSigned => exact (forall_ok_iff hk).2 ((forall_ok_iff hp).2 passes.preambleSigned)
  | versionReached => exact (forall_ok_iff hk).2 ((forall_ok_iff hp).2 passes.versionReached)
  | bodyFits => exact (forall_ok_iff hk).2 ((forall_ok_iff hp).2 passes.bodyFits)
  | bodyValid => exact (forall_ok_iff hk).2 ((forall_ok_iff hp).2 passes.bodyValid)

theorem firstToFail_of_untrusted {reason : UntrustedReason} {stage : Stage}
    (h : v.judge key area body = .untrusted reason stage) :
    ∃ c : SlotCheck, FirstToFail v key area body c ∧ c.fault = (reason, stage) := by
  apply examine_eq_error
  unfold judge at h
  cases he : v.examine key area body with
  | ok slot => rw [he] at h; cases h
  | error fault => rw [he] at h; cases h; rfl

/-- The verdict is that of the first check to fail. -/
theorem judge_of_firstToFail {c : SlotCheck} (h : FirstToFail v key area body c) :
    v.judge key area body = .untrusted c.fault.1 c.fault.2 := by
  cases hj : v.judge key area body with
  | trusted slot => exact absurd (holds_of_trusted hj c) h.fails
  | untrusted reason stage =>
    obtain ⟨d, hd, hf⟩ := firstToFail_of_untrusted hj
    rw [h.unique hd, hf]

theorem judge_eq_untrusted_iff {reason : UntrustedReason} {stage : Stage} :
    v.judge key area body = .untrusted reason stage ↔
      ∃ c : SlotCheck, FirstToFail v key area body c ∧ c.fault = (reason, stage) := by
  constructor
  · exact firstToFail_of_untrusted
  · rintro ⟨c, hc, hf⟩
    rw [judge_of_firstToFail hc, hf]

/-- A stage is reached just if every check that would have ended the verification before it holds. -/
theorem stage_reached_iff {stage : Stage} :
    stage.rank ≤ (v.judge key area body).stage.rank ↔
      ∀ c : SlotCheck, c.fault.2.rank < stage.rank → c.Holds v key area body := by
  constructor
  · intro reached c hc
    by_contra hn
    obtain ⟨d, hd, hle⟩ := exists_firstToFail hn
    have earlier := stage_le_of_position_le hle
    rw [judge_of_firstToFail hd] at reached
    simp only [Verdict.stage] at reached
    omega
  · intro all
    cases hj : v.judge key area body with
    | trusted slot =>
      show stage.rank ≤ 5
      cases stage <;> decide
    | untrusted reason last =>
      obtain ⟨c, hc, hf⟩ := firstToFail_of_untrusted hj
      by_contra hn
      refine hc.fails (all c ?_)
      rw [hf]
      exact Nat.not_le.1 hn

/-! ## Stages in terms of the records -/

/-- What makes the data key of a keyblock one to check signatures with. -/
@[mk_iff]
structure KeyAccepted (v : Verifier) (key : PackedKey) (k : Keyblock) : Prop where
  signed : k.verifySignature key v.primitives = .ok ()
  modeAllowed : ∀ mode, v.options.bootMode = some mode → k.allows mode = true
  usable : v.primitives.checkKey k.dataKey = .ok ()
  versionInRange : k.dataKey.version ≤ maxKeyVersion

theorem keyblockChecksumOk_reached :
    Stage.keyblockChecksumOk.rank ≤ (v.judge key area body).stage.rank ↔
      ∃ k, Keyblock.parse area = .ok k := by
  rw [stage_reached_iff, SlotCheck.forall_iff]
  cases hk : Keyblock.parse area <;> simp [fault, Stage.rank, Holds, hk]

theorem keyblockSigVerified_reached :
    Stage.keyblockSigVerified.rank ≤ (v.judge key area body).stage.rank ↔
      ∃ k, Keyblock.parse area = .ok k ∧ k.verifySignature key v.primitives = .ok () := by
  rw [stage_reached_iff, SlotCheck.forall_iff]
  cases hk : Keyblock.parse area <;> simp [fault, Stage.rank, Holds, hk]

theorem dataKeyValid_reached :
    Stage.dataKeyValid.rank ≤ (v.judge key area body).stage.rank ↔
      ∃ k, Keyblock.parse area = .ok k ∧ v.KeyAccepted key k := by
  rw [stage_reached_iff, SlotCheck.forall_iff]
  cases hk : Keyblock.parse area with
  | error e => simp [fault, Stage.rank, Holds, hk]
  | ok k => simp [fault, Stage.rank, Holds, hk, keyAccepted_iff]

theorem preambleSigVerified_reached :
    Stage.preambleSigVerified.rank ≤ (v.judge key area body).stage.rank ↔
      ∃ k, Keyblock.parse area = .ok k ∧ v.KeyAccepted key k ∧
        ∃ p, Preamble.parse area k.size.toNat = .ok p ∧
          p.verifySignature k.dataKey v.primitives = .ok () := by
  rw [stage_reached_iff, SlotCheck.forall_iff]
  cases hk : Keyblock.parse area with
  | error e => simp [fault, Stage.rank, Holds, hk]
  | ok k =>
    cases hp : Preamble.parse area k.size.toNat with
    | error e => simp [fault, Stage.rank, Holds, hk, hp]
    | ok p => simp [fault, Stage.rank, Holds, hk, hp, keyAccepted_iff, and_assoc]

theorem bodyVerified_reached :
    Stage.bodyVerified.rank ≤ (v.judge key area body).stage.rank ↔
      (v.judge key area body).isTrusted = true := by
  cases hj : v.judge key area body with
  | trusted slot => simp [Verdict.stage, Verdict.isTrusted]
  | untrusted reason stage =>
    obtain ⟨c, -, hf⟩ := firstToFail_of_untrusted hj
    have earlier := stage_lt_bodyVerified c
    rw [hf] at earlier
    simpa only [Verdict.stage, Verdict.isTrusted, Bool.false_eq_true, iff_false, not_le] using earlier

/-! ## Records that nobody has signed -/

/-- A keyblock that is not signed decides nothing, by whatever it says. -/
theorem judge_of_unsigned_keyblock {k : Keyblock} (hk : Keyblock.parse area = .ok k)
    (unsigned : k.verifySignature key v.primitives ≠ .ok ()) :
    v.judge key area body = .untrusted .keyblockSignatureInvalid .keyblockChecksumOk :=
  judge_of_firstToFail
    ⟨mt (forall_ok_iff hk).1 unsigned, passedBefore_keyblockSigned hk⟩

/-- A preamble that is not signed decides nothing: after one keyblock any other that is not signed
gets the same verdict, for every body and every minimum version. -/
theorem judge_eq_of_unsigned_preambles {v' : Verifier} {area' body' : Bytes} {k : Keyblock}
    {p p' : Preamble} (primitives : v'.primitives = v.primitives)
    (mode : v'.options.bootMode = v.options.bootMode) (hk : Keyblock.parse area = .ok k)
    (hk' : Keyblock.parse area' = .ok k) (hp : Preamble.parse area k.size.toNat = .ok p)
    (hp' : Preamble.parse area' k.size.toNat = .ok p')
    (unsigned : p.verifySignature k.dataKey v.primitives ≠ .ok ())
    (unsigned' : p'.verifySignature k.dataKey v.primitives ≠ .ok ()) :
    v'.judge key area' body' = v.judge key area body := by
  have fails : ¬ SlotCheck.preambleSigned.Holds v key area body :=
    fun h => unsigned (h k hk p hp)
  obtain ⟨d, hd, hle⟩ := exists_firstToFail fails
  have same : ∀ c : SlotCheck, c.position ≤ position .preambleSigned →
      (c.Holds v' key area' body' ↔ c.Holds v key area body) := by
    intro c hc
    cases c with
    | keyblockFormed => simp [Holds, hk, hk']
    | checksumRight => simp [Holds, hk, hk']
    | keyblockSigned => simp [Holds, hk, hk', primitives]
    | modeAllowed => simp [Holds, hk, hk', mode]
    | keyUsable => simp [Holds, hk, hk', primitives]
    | keyVersionInRange => simp [Holds, hk, hk']
    | preambleFormed => simp [Holds, hk, hk', hp, hp']
    | preambleSigned => simp [Holds, hk, hk', hp, hp', primitives, unsigned, unsigned']
    | _ => exact absurd hc (by decide)
  have hd' : FirstToFail v' key area' body' d :=
    ⟨mt (same d hle).1 hd.fails, fun c hc => (same c (hc.le.trans hle)).2 (hd.earlier c hc)⟩
  rw [judge_of_firstToFail hd, judge_of_firstToFail hd']

/-! ## All verdicts -/

/-- Each stage is reached just if the records pass the checks up to it, the verdict names the first
check that fails, and it depends on no field of a record that should be signed and is not. -/
theorem judge_reports_first_failure (v : Verifier) (key : PackedKey) (area body : Bytes) :
    (Stage.keyblockChecksumOk.rank ≤ (v.judge key area body).stage.rank ↔
      ∃ k, Keyblock.parse area = .ok k) ∧
    (Stage.keyblockSigVerified.rank ≤ (v.judge key area body).stage.rank ↔
      ∃ k, Keyblock.parse area = .ok k ∧ k.verifySignature key v.primitives = .ok ()) ∧
    (Stage.dataKeyValid.rank ≤ (v.judge key area body).stage.rank ↔
      ∃ k, Keyblock.parse area = .ok k ∧ v.KeyAccepted key k) ∧
    (Stage.preambleSigVerified.rank ≤ (v.judge key area body).stage.rank ↔
      ∃ k, Keyblock.parse area = .ok k ∧ v.KeyAccepted key k ∧
        ∃ p, Preamble.parse area k.size.toNat = .ok p ∧
          p.verifySignature k.dataKey v.primitives = .ok ()) ∧
    (Stage.bodyVerified.rank ≤ (v.judge key area body).stage.rank ↔
      (v.judge key area body).isTrusted = true) ∧
    (∀ slot, v.judge key area body = .trusted slot ↔
      ∃ c, TrustChain.parse area = .ok c ∧ v.Passes key c body ∧ c.facts = slot) ∧
    (∀ reason stage, v.judge key area body = .untrusted reason stage ↔
      ∃ c : SlotCheck, c.fault = (reason, stage) ∧ ¬ c.Holds v key area body ∧
        ∀ d : SlotCheck, d.position < c.position → d.Holds v key area body) ∧
    (∀ k, Keyblock.parse area = .ok k → k.verifySignature key v.primitives ≠ .ok () →
      v.judge key area body = .untrusted .keyblockSignatureInvalid .keyblockChecksumOk) ∧
    ∀ (options : VerifyOptions) (payload : PayloadFormat) (area' body' : Bytes) (k : Keyblock)
      (p p' : Preamble), options.bootMode = v.options.bootMode →
      Keyblock.parse area = .ok k → Keyblock.parse area' = .ok k →
      Preamble.parse area k.size.toNat = .ok p → Preamble.parse area' k.size.toNat = .ok p' →
      p.verifySignature k.dataKey v.primitives ≠ .ok () →
      p'.verifySignature k.dataKey v.primitives ≠ .ok () →
      judge ⟨options, v.primitives, payload⟩ key area' body' = v.judge key area body := by
  refine ⟨keyblockChecksumOk_reached, keyblockSigVerified_reached, dataKeyValid_reached,
    preambleSigVerified_reached, bodyVerified_reached, fun _ => judge_eq_trusted_iff, ?_,
    fun _ hk unsigned => judge_of_unsigned_keyblock hk unsigned, ?_⟩
  · intro reason stage
    rw [judge_eq_untrusted_iff]
    constructor
    · rintro ⟨c, ⟨fails, earlier⟩, hf⟩
      exact ⟨c, hf, fails, earlier⟩
    · rintro ⟨c, hf, fails, earlier⟩
      exact ⟨c, ⟨fails, earlier⟩, hf⟩
  · intro options payload area' body' k p p' mode hk hk' hp hp' unsigned unsigned'
    exact judge_eq_of_unsigned_preambles rfl mode hk hk' hp hp' unsigned unsigned'

end Verifier

/-- Primitives that accept every signature under the listed keys, and no other. -/
def TrustPrimitives.trusting (keys : List PackedKey) : TrustPrimitives where
  digest := Software.digest
  checkKey _ := .ok ()
  verify key _ _ := if key ∈ keys then .ok () else .error .invalidSignature

/-- The keyblock of the sample chain under a key that has not signed it, and its preamble where only
the keyblock is signed: both are refused, and neither body nor options change the verdict. -/
theorem TrustChain.unsigned_sample_refused :
    sample.keyblock.verifySignature ⟨1, 2, [6]⟩ (.trusting [sampleRoot]) ≠ .ok () ∧
    sample.preamble.verifySignature sample.keyblock.dataKey (.trusting [sampleRoot]) ≠ .ok () ∧
    Verifier.judge ⟨.none, .trusting [sampleRoot], .raw⟩ ⟨1, 2, [6]⟩ (sampleBytes ++ [0]) []
      = .untrusted .keyblockSignatureInvalid .keyblockChecksumOk ∧
    Verifier.judge ⟨⟨none, none, some 0xffffffff⟩, .trusting [sampleRoot], .indexed⟩ sampleRoot
        (sampleBytes ++ [1, 2]) [10, 11, 12, 13]
      = Verifier.judge ⟨.none, .trusting [sampleRoot], .raw⟩ sampleRoot (sampleBytes ++ [0]) [] := by
  have unsigned : sample.keyblock.verifySignature ⟨1, 2, [6]⟩ (.trusting [sampleRoot]) ≠ .ok () := by
    decide +kernel
  have unsigned' : sample.preamble.verifySignature sample.keyblock.dataKey (.trusting [sampleRoot])
      ≠ .ok () := by
    decide +kernel
  obtain ⟨hk, hp⟩ := parse_eq_ok.1 (parse_sampleBytes_append [0])
  obtain ⟨hk', hp'⟩ := parse_eq_ok.1 (parse_sampleBytes_append [1, 2])
  obtain ⟨-, -, -, -, -, -, -, keyblockRefused, -⟩ := Verifier.judge_reports_first_failure
    ⟨.none, .trusting [sampleRoot], .raw⟩ ⟨1, 2, [6]⟩ (sampleBytes ++ [0]) []
  obtain ⟨-, -, -, -, -, -, -, -, preamblesAlike⟩ := Verifier.judge_reports_first_failure
    ⟨.none, .trusting [sampleRoot], .raw⟩ sampleRoot (sampleBytes ++ [0]) []
  exact ⟨unsigned, unsigned', keyblockRefused _ hk unsigned,
    preamblesAlike _ _ _ _ _ _ _ rfl hk hk' hp hp' unsigned' unsigned'⟩

end VerifiedBoot

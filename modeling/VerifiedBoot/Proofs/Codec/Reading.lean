/-
Reads and the bytes they accept. A read is exact when it yields a value just if what lies ahead
begins with bytes written for that value, and it moves past these and no others. A read made of
exact reads is exact, so that a record needs one lemma, which follows its fields.
-/
import VerifiedBoot.Wire
import VerifiedBoot.Proofs.Results

namespace VerifiedBoot

/-! ## Readers -/

namespace Reader

@[simp] theorem skip_zero (r : Reader) : r.skip 0 = r := by
  cases r; simp [skip]

@[simp] theorem skip_skip (r : Reader) (m n : Nat) : (r.skip m).skip n = r.skip (m + n) := by
  simp [skip, Nat.add_assoc]

@[simp] theorem position_skip (r : Reader) (n : Nat) : (r.skip n).position = r.position + n := rfl

@[simp] theorem ahead_skip (r : Reader) (n : Nat) : (r.skip n).ahead = r.ahead.drop n := rfl

theorem remaining_eq (r : Reader) : r.remaining = r.ahead.length := r.ahead_length.symm

end Reader

/-! ## Prefixes -/

/-- A prefix made of two parts is the first part, and the second part after it. -/
theorem append_prefix_iff {x y l : Bytes} : x ++ y <+: l ↔ x <+: l ∧ y <+: l.drop x.length := by
  constructor
  · rintro ⟨t, rfl⟩
    exact ⟨⟨y ++ t, by simp⟩, ⟨t, by simp⟩⟩
  · rintro ⟨⟨t, rfl⟩, ht⟩
    rw [List.drop_left] at ht
    exact (List.prefix_append_right_inj x).2 ht

theorem take_eq_of_isPrefix {x l : Bytes} {n : Nat} (h : x <+: l) (hn : x.length = n) : l.take n = x := by
  rw [← hn, ← List.prefix_iff_eq_take.1 h]

/-- A record of a declared size that is read in two parts, the second one inside that size. -/
theorem framed_prefix_iff {x y l : Bytes} {n : Nat} (hn : x.length + y.length = n) :
    x ++ y <+: l ↔ n ≤ l.length ∧ x <+: l ∧ y <+: (l.take n).drop x.length := by
  have hy : n - x.length = y.length := by omega
  rw [append_prefix_iff, List.drop_take, hy, List.prefix_take_iff]
  constructor
  · rintro ⟨hx, h⟩
    have := (append_prefix_iff.2 ⟨hx, h⟩).length_le
    rw [List.length_append, hn] at this
    exact ⟨this, hx, h, le_rfl⟩
  · rintro ⟨-, hx, h, -⟩
    exact ⟨hx, h⟩

namespace Read

/-- The read yields a value just if the bytes ahead begin with bytes written for it, and moves past
these. What is written may depend on the position where it starts. -/
def Exact {α : Type} (read : Read α) (written : Nat → α → Bytes → Prop) : Prop :=
  ∀ r v r', read r = .ok v r' ↔
    ∃ bs, written r.position v bs ∧ bs <+: r.ahead ∧ r' = r.skip bs.length

variable {α β : Type} {read : Read α} {written : Nat → α → Bytes → Prop}

/-! ## Exact reads of one part -/

theorem exact_pure (a : α) : Exact (pure a : Read α) fun _ v bs => v = a ∧ bs = [] := by
  intro r v r'
  constructor
  · intro h
    cases h
    exact ⟨[], ⟨rfl, rfl⟩, List.nil_prefix, by simp⟩
  · rintro ⟨bs, ⟨rfl, rfl⟩, -, rfl⟩
    show EStateM.Result.ok v r = .ok v (r.skip 0)
    rw [Reader.skip_zero]

theorem exact_fixed (n : Nat) : Exact (fixed n) fun _ v bs => bs = v ∧ v.length = n := by
  intro r v r'
  unfold fixed
  rw [Reader.remaining_eq]
  constructor
  · intro h
    split at h
    · next hn =>
      cases h
      have hl : (r.ahead.take n).length = n := List.length_take_of_le hn
      exact ⟨_, ⟨rfl, hl⟩, List.take_prefix n _, by rw [hl]⟩
    · cases h
  · rintro ⟨bs, ⟨rfl, rfl⟩, hp, rfl⟩
    rw [if_pos hp.length_le, ← List.prefix_iff_eq_take.1 hp]

theorem exact_counted (n : Nat) : Exact (counted n) fun _ v bs => bs = v ∧ v.length = n := by
  intro r v r'
  rw [← exact_fixed n r v r']
  unfold counted
  split
  · rfl
  · next h => simp [fixed, h]

theorem exact_position : Exact position fun pos v bs => v = pos ∧ bs = [] := by
  intro r v r'
  constructor
  · intro h
    cases h
    exact ⟨[], ⟨rfl, rfl⟩, List.nil_prefix, by simp⟩
  · rintro ⟨bs, ⟨rfl, rfl⟩, -, rfl⟩
    show EStateM.Result.ok r.position r = .ok r.position (r.skip 0)
    rw [Reader.skip_zero]

theorem exact_require (p : Prop) [Decidable p] (e : CodecError) :
    Exact (require p e) fun _ _ bs => p ∧ bs = [] := by
  intro r v r'
  unfold require
  constructor
  · intro h
    split at h
    · next hp =>
      cases h
      exact ⟨[], ⟨hp, rfl⟩, List.nil_prefix, by simp⟩
    · cases h
  · rintro ⟨bs, ⟨hp, rfl⟩, -, rfl⟩
    rw [if_pos hp]
    simp

theorem exact_throw (e : CodecError) : Exact (throw e : Read α) fun _ _ _ => False := by
  intro r v r'
  constructor
  · intro h; cases h
  · rintro ⟨_, h, _⟩; exact h.elim

/-! ## Exact reads of several parts -/

theorem Exact.bind {next : α → Read β} {written' : α → Nat → β → Bytes → Prop}
    (h : Exact read written) (hn : ∀ a, Exact (next a) (written' a)) :
    Exact (read >>= next) fun pos b bs =>
      ∃ a x y, written pos a x ∧ written' a (pos + x.length) b y ∧ bs = x ++ y := by
  intro r b r''
  rw [run_bind_eq_ok]
  constructor
  · rintro ⟨a, r', ha, hb⟩
    obtain ⟨x, hx, px, rfl⟩ := (h _ _ _).1 ha
    obtain ⟨y, hy, py, rfl⟩ := (hn a _ _ _).1 hb
    exact ⟨x ++ y, ⟨a, x, y, hx, hy, rfl⟩, append_prefix_iff.2 ⟨px, py⟩, by simp⟩
  · rintro ⟨bs, ⟨a, x, y, hx, hy, rfl⟩, hp, rfl⟩
    obtain ⟨px, py⟩ := append_prefix_iff.1 hp
    exact ⟨a, r.skip x.length, (h _ _ _).2 ⟨x, hx, px, rfl⟩,
      (hn a _ _ _).2 ⟨y, hy, py, by simp⟩⟩

theorem Exact.congr {written' : Nat → α → Bytes → Prop} (h : Exact read written)
    (hw : ∀ pos v bs, written pos v bs ↔ written' pos v bs) : Exact read written' := by
  intro r v r'
  rw [h r v r']
  simp only [hw]

/-- A word, or any other part whose bytes are given by its value, and what is read after it. -/
theorem Exact.word {bytes : α → Bytes} {next : α → Read β} {w : α → Nat → β → Bytes → Prop}
    (h : Exact read fun _ a bs => bs = bytes a) (hn : ∀ a, Exact (next a) (w a)) :
    Exact (read >>= next) fun pos b bs =>
      ∃ a y, w a (pos + (bytes a).length) b y ∧ bs = bytes a ++ y := by
  refine (h.bind hn).congr ?_
  intro pos b bs
  constructor
  · rintro ⟨a, _, y, rfl, hy, rfl⟩
    exact ⟨a, y, hy, rfl⟩
  · rintro ⟨a, y, hy, rfl⟩
    exact ⟨a, _, y, rfl, hy, rfl⟩

/-- A check, and what is read after it. -/
theorem Exact.require {p : Prop} [Decidable p] {e : CodecError} (h : Exact read written) :
    Exact (Read.require p e >>= fun _ => read) fun pos v bs => p ∧ written pos v bs := by
  refine ((exact_require p e).bind fun _ => h).congr ?_
  intro pos v bs
  constructor
  · rintro ⟨_, _, _, ⟨hp, rfl⟩, hy, rfl⟩
    exact ⟨hp, hy⟩
  · rintro ⟨hp, hy⟩
    exact ⟨(), [], bs, ⟨hp, rfl⟩, hy, rfl⟩

/-- The position, and what is read with it. -/
theorem Exact.atPosition {next : Nat → Read β} {after : Nat → Nat → β → Bytes → Prop}
    (h : ∀ n, Exact (next n) (after n)) :
    Exact (position >>= next) fun pos => after pos pos := by
  refine (exact_position.bind h).congr ?_
  intro pos v bs
  constructor
  · rintro ⟨_, _, _, ⟨rfl, rfl⟩, hy, rfl⟩
    exact hy
  · intro hy
    exact ⟨pos, [], bs, ⟨rfl, rfl⟩, hy, rfl⟩

/-- What a read yields is determined by the bytes ahead. -/
theorem Exact.unique (h : Exact read written) (pos : Nat) {v v' : α} {x x' t t' : Bytes}
    (hv : written pos v x) (hv' : written pos v' x') (ht : x ++ t = x' ++ t') :
    v = v' ∧ x = x' ∧ t = t' := by
  -- one reader stands before both, and can have only one result
  let r : Reader := ⟨pos + (x ++ t).length, pos, x ++ t, by simp⟩
  have h₁ := (h r v _).2 ⟨x, hv, List.prefix_append x t, rfl⟩
  have h₂ := (h r v' _).2 ⟨x', hv', ⟨t', ht.symm⟩, rfl⟩
  rw [h₁] at h₂
  injection h₂ with hval hreader
  have hl : x.length = x'.length := by
    have := congrArg Reader.position hreader
    simpa using this
  obtain ⟨hx, ht⟩ := List.append_inj ht hl
  exact ⟨hval, hx, ht⟩

/-! ## Reading from a byte string -/

theorem Exact.parseFrom_ok (h : Exact read written) {bs : Bytes} {pos : Nat} {v : α} :
    read.parseFrom bs pos = .ok v ↔ ∃ x, written pos v x ∧ x <+: bs.drop pos := by
  have hs : read.parseFrom bs pos = .ok v ↔ ∃ r', read (Reader.ofBytes bs pos) = .ok v r' := by
    unfold parseFrom start
    cases read (Reader.ofBytes bs pos) <;> simp
  rw [hs]
  constructor
  · rintro ⟨r', hr⟩
    obtain ⟨x, hx, hp, -⟩ := (h _ _ _).1 hr
    exact ⟨x, hx, hp⟩
  · rintro ⟨x, hx, hp⟩
    exact ⟨_, (h _ _ _).2 ⟨x, hx, hp, rfl⟩⟩

theorem Exact.parse_ok (h : Exact read written) {bs : Bytes} {v : α} :
    read.parse bs = .ok v ↔ ∃ x, written 0 v x ∧ x <+: bs :=
  h.parseFrom_ok

end Read

/-! ## Words and counted bytes -/

namespace Bytes

theorem ofNatLE_toNatLE (bs : Bytes) : ofNatLE bs.length (toNatLE bs) = bs := by
  induction bs with
  | nil => rfl
  | cons b bs ih =>
    have low : UInt8.ofNat (b.toNat + 256 * toNatLE bs) = b := by
      apply UInt8.toNat.inj
      simp
    have high : (b.toNat + 256 * toNatLE bs) / 256 = toNatLE bs := by
      have := b.toNat_lt
      omega
    rw [List.length_cons, ofNatLE, toNatLE, low, high, ih]

theorem toNatLE_lt (bs : Bytes) : toNatLE bs < Nat.pow 256 bs.length := by
  rw [← ofNatLE_toNatLE bs, toNatLE_ofNatLE, length_ofNatLE]
  exact Nat.mod_lt _ (Nat.pow_pos (by decide))

@[simp] theorem length_le16 (v : UInt16) : (le16 v).length = 2 := length_ofNatLE _ _
@[simp] theorem length_le32 (v : UInt32) : (le32 v).length = 4 := length_ofNatLE _ _
@[simp] theorem length_le64 (v : UInt64) : (le64 v).length = 8 := length_ofNatLE _ _

end Bytes

theorem ByteBlock.eq_of_bytes {n : Nat} {a b : ByteBlock n} (h : a.bytes = b.bytes) : a = b := by
  cases a
  cases b
  subst h
  rfl

namespace Read

/-- A word of `n` bytes is read where its little-endian bytes stand. -/
theorem exact_word {α : Type} (n : Nat) (ofNat : Nat → α) (toNat : α → Nat)
    (left : ∀ v, ofNat (toNat v) = v) (right : ∀ k < Nat.pow 256 n, toNat (ofNat k) = k)
    (bound : ∀ v, toNat v < Nat.pow 256 n) :
    Exact (do return ofNat (Bytes.toNatLE (← fixed n))) fun _ v bs =>
      bs = Bytes.ofNatLE n (toNat v) := by
  refine ((exact_fixed n).bind fun bs => exact_pure (ofNat (Bytes.toNatLE bs))).congr ?_
  intro pos v bs
  constructor
  · rintro ⟨_, x, y, ⟨rfl, hl⟩, ⟨rfl, rfl⟩, rfl⟩
    rw [right _ (hl ▸ Bytes.toNatLE_lt x), List.append_nil]
    rw [← hl, Bytes.ofNatLE_toNatLE]
  · rintro rfl
    refine ⟨_, _, [], ⟨rfl, Bytes.length_ofNatLE _ _⟩, ⟨?_, rfl⟩, (List.append_nil _).symm⟩
    have low : toNat v % Nat.pow 256 n = toNat v := Nat.mod_eq_of_lt (bound v)
    rw [Bytes.toNatLE_ofNatLE, low, left]

theorem exact_word8 : Exact word8 fun _ v bs => bs = [v] := by
  refine (exact_word 1 UInt8.ofNat UInt8.toNat (fun v => UInt8.ofNat_toNat) ?_ ?_).congr ?_
  · intro k hk; simpa using Nat.mod_eq_of_lt hk
  · intro v; exact v.toNat_lt
  · intro _ v bs; simp [Bytes.ofNatLE]

theorem exact_word16 : Exact word16 fun _ v bs => bs = Bytes.le16 v := by
  refine exact_word 2 UInt16.ofNat UInt16.toNat (fun v => UInt16.ofNat_toNat) ?_ ?_
  · intro k hk; simpa using Nat.mod_eq_of_lt hk
  · intro v; exact v.toNat_lt

theorem exact_word32 : Exact word32 fun _ v bs => bs = Bytes.le32 v := by
  refine exact_word 4 UInt32.ofNat UInt32.toNat (fun v => UInt32.ofNat_toNat) ?_ ?_
  · intro k hk; simpa using Nat.mod_eq_of_lt hk
  · intro v; exact v.toNat_lt

theorem exact_word64 : Exact word64 fun _ v bs => bs = Bytes.le64 v := by
  refine exact_word 8 UInt64.ofNat UInt64.toNat (fun v => UInt64.ofNat_toNat) ?_ ?_
  · intro k hk; simpa using Nat.mod_eq_of_lt hk
  · intro v; exact v.toNat_lt

theorem exact_block (n : Nat) : Exact (block n) fun _ v bs => bs = v.bytes := by
  refine ((exact_fixed n).bind fun bs => exact_pure (ByteBlock.ofBytes n bs)).congr ?_
  intro pos v bs
  have whole : ∀ x : Bytes, x.length = n → (ByteBlock.ofBytes n x).bytes = x := by
    intro x hx
    simp [ByteBlock.ofBytes, Bytes.padTo, ← hx]
  constructor
  · rintro ⟨_, x, y, ⟨rfl, hl⟩, ⟨rfl, rfl⟩, rfl⟩
    rw [whole x hl, List.append_nil]
  · rintro rfl
    exact ⟨_, _, [], ⟨rfl, v.length_eq⟩, ⟨ByteBlock.eq_of_bytes (whole _ v.length_eq).symm, rfl⟩,
      (List.append_nil _).symm⟩

end Read

theorem toLength_eq_ok {part : EncodedPart} {n : Nat} {w : UInt32} :
    toLength part n = .ok w ↔ w.toNat = n := by
  unfold toLength
  split
  · next h =>
    constructor
    · intro hw
      cases hw
      exact UInt32.toNat_ofNat_of_lt h
    · rintro rfl
      rw [UInt32.ofNat_toNat]
  · next h =>
    constructor
    · intro hw; cases hw
    · rintro rfl
      exact absurd w.toNat_lt h

theorem countedField_eq_ok {bs out : Bytes} :
    countedField bs = .ok out ↔ ∃ w : UInt32, w.toNat = bs.length ∧ out = Bytes.le32 w ++ bs := by
  simp only [countedField, lengthField, bind_eq_ok, pure_eq_ok, toLength_eq_ok]
  constructor
  · rintro ⟨_, ⟨w, hw, rfl⟩, rfl⟩
    exact ⟨w, hw, rfl⟩
  · rintro ⟨w, hw, rfl⟩
    exact ⟨_, ⟨w, hw, rfl⟩, rfl⟩

theorem length_countedField {bs out : Bytes} (h : countedField bs = .ok out) :
    out.length = 4 + bs.length := by
  obtain ⟨w, -, rfl⟩ := countedField_eq_ok.1 h
  simp

theorem Read.exact_counting :
    Exact counting fun _ v bs => countedField v = .ok bs := by
  refine (exact_word32.bind fun w => exact_counted w.toNat).congr ?_
  intro pos v bs
  rw [countedField_eq_ok]
  constructor
  · rintro ⟨w, _, _, rfl, ⟨rfl, hl⟩, rfl⟩
    exact ⟨w, hl.symm, rfl⟩
  · rintro ⟨w, hl, rfl⟩
    exact ⟨w, _, _, rfl, ⟨rfl, hl.symm⟩, rfl⟩

end VerifiedBoot

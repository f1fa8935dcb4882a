/-
Flash maps are looked for, and looked up in, inside the image. The search cuts off what lies behind it
and goes on to the next signature; it never starts past the end, and it finds the map that reading at
each position in turn finds. Names end at their first zero byte, or at their full width.
-/
import VerifiedBoot.Proofs.Bounds.Slicing
import VerifiedBoot.Image.FlashMap

namespace VerifiedBoot

variable {ε : Type}

namespace Bytes
variable {bs part : Bytes} {start : Nat}

theorem drop_of_cut (h : (bs.cut start bs.length : Sliced ε Bytes) = .ok part) :
    start ≤ bs.length ∧ part = bs.drop start := by
  by_cases inside : start ≤ bs.length
  · rw [cut_from inside] at h
    exact ⟨inside, (Except.ok.inj h).symm⟩
  · rw [cut, if_neg fun range => inside range.1] at h
    cases h

/-- The bytes before the first zero byte, cut off there or at the end. -/
def untilZeroSliced (bs : Bytes) : Sliced ε Bytes := bs.cut 0 (bs.findIdx (· == 0))

theorem untilZeroSliced_eq (bs : Bytes) : (bs.untilZeroSliced : Sliced ε Bytes) = .ok bs.untilZero := by
  unfold untilZeroSliced untilZero
  rw [cut_to List.findIdx_le_length, List.takeWhile_eq_take_findIdx_not]
  simp only [bne, Bool.not_not]

end Bytes

namespace FlashMap
variable {image : Bytes} {position : Nat} {m : FlashMap}

/-! ## Looking for a map -/

/-- Where the signature of a flash map stands first. -/
def signaturePosition : Bytes → Option Nat
  | [] => none
  | b :: bs =>
    if signature.isPrefixOf (b :: bs) then some 0 else (signaturePosition bs).map (· + 1)

/-- Searches from signature to signature, from offset `start` on. -/
def findSlicedFrom (image : Bytes) (start : Nat) : Sliced ε (Option FlashMap) :=
  match _h : (image.cut start image.length : Sliced ε Bytes) with
  | .error e => .error e
  | .ok rest =>
    match signaturePosition rest with
    | none => .ok none
    | some ahead =>
      match parseAt image (start + ahead) with
      | .ok map => .ok (some map)
      | .error _ => findSlicedFrom image (start + ahead + 1)
termination_by image.length + 1 - start
decreasing_by
  have inside := (Bytes.drop_of_cut _h).1
  omega

def findSliced (image : Bytes) : Sliced ε (Option FlashMap) := findSlicedFrom image 0

theorem signaturePosition_lt {bs : Bytes} {n : Nat} (h : signaturePosition bs = some n) :
    n < bs.length := by
  induction bs generalizing n with
  | nil => cases h
  | cons b bs ih =>
    unfold signaturePosition at h
    split at h
    · obtain rfl := Option.some.inj h
      exact Nat.zero_lt_succ _
    · obtain ⟨k, hk, rfl⟩ := Option.map_eq_some_iff.1 h
      exact Nat.succ_lt_succ (ih hk)

/-- Before its first position, or anywhere if it has none, the signature does not stand. -/
theorem not_prefix_of_lt_signaturePosition {bs : Bytes} {k : Nat}
    (h : ∀ n, signaturePosition bs = some n → k < n) : ¬ signature <+: bs.drop k := by
  induction bs generalizing k with
  | nil =>
    rw [List.drop_nil, List.prefix_nil]
    nofun
  | cons b bs ih =>
    unfold signaturePosition at h
    split at h
    · exact absurd (h 0 rfl) (Nat.not_lt_zero k)
    · cases k with
      | zero => rwa [List.drop_zero, ← List.isPrefixOf_iff_prefix]
      | succ k =>
        refine ih fun n hn => ?_
        have next : k + 1 < n + 1 := h (n + 1) (by rw [hn]; rfl)
        exact Nat.lt_of_succ_lt_succ next

/-- From a position on, the signature does not stand before its first position there. -/
theorem not_signature_of_lt {start p : Nat} (le : start ≤ p)
    (h : ∀ n, signaturePosition (image.drop start) = some n → p < start + n) :
    ¬ signature <+: image.drop p := by
  obtain ⟨k, rfl⟩ := Nat.exists_eq_add_of_le le
  rw [← List.drop_drop]
  refine not_prefix_of_lt_signaturePosition fun n hn => ?_
  have first := h n hn
  omega

/-- At its first position the signature stands. -/
theorem prefix_of_signaturePosition {bs : Bytes} {n : Nat} (h : signaturePosition bs = some n) :
    signature <+: bs.drop n := by
  induction bs generalizing n with
  | nil => cases h
  | cons b bs ih =>
    unfold signaturePosition at h
    split at h
    next stands =>
      obtain rfl := Option.some.inj h
      exact List.isPrefixOf_iff_prefix.1 stands
    next =>
      obtain ⟨k, hk, rfl⟩ := Option.map_eq_some_iff.1 h
      exact ih hk

theorem signature_of_parseAt (h : parseAt image position = .ok m) :
    signature <+: image.drop position := by
  unfold parseAt at h
  split at h
  · cases h
  unfold Read.parseFrom Read.start at h
  split at h
  next map r hread =>
    obtain ⟨⟨header, count⟩, r₁, hheader, -⟩ := run_bind_eq_ok.1 hread
    obtain ⟨start, r₂, hfixed, hrest⟩ := run_bind_eq_ok.1 hheader
    obtain ⟨_, r₃, hrequire, -⟩ := run_bind_eq_ok.1 hrest
    obtain ⟨_, ⟨rfl, -⟩, stands, -⟩ := (Read.exact_fixed 8 _ _ _).1 hfixed
    obtain ⟨_, ⟨rfl, -⟩, -⟩ := (Read.exact_require _ _ _ _ _).1 hrequire
    exact stands
  next => cases h

/-- What reading at each position in turn finds, from a position on. -/
def findAfter (image : Bytes) (position : Nat) : Option FlashMap :=
  findFrom image.length position (image.drop position) List.length_drop

theorem findAfter_of_le (h : image.length ≤ position) : findAfter image position = none := by
  have nothing : ∀ ahead hlen, ahead = [] → findFrom image.length position ahead hlen = none := by
    rintro _ _ rfl
    rfl
  exact nothing _ _ (List.drop_eq_nil_of_le h)

theorem findAfter_of_lt (h : position < image.length) :
    findAfter image position = match parseAt image position with
      | .ok map => some map
      | .error _ => findAfter image (position + 1) := by
  have step : ∀ ahead hlen, ahead = image.drop position →
      findFrom image.length position ahead hlen = match parseAt image position with
        | .ok map => some map
        | .error _ => findAfter image (position + 1) := by
    rintro (_ | ⟨b, bs⟩) hlen hahead
    · rw [List.length_nil] at hlen
      omega
    have next : bs = image.drop (position + 1) := by
      rw [← List.tail_drop, ← hahead, List.tail_cons]
    have reader : Reader.ofBytes image position = ⟨image.length, position, b :: bs, hlen⟩ := by
      simp only [Reader.ofBytes, hahead]
    subst next
    unfold findFrom parseAt Read.parseFrom
    rw [if_neg (by omega), reader]
    cases (read (image.length - position) position).start _ with
    | mk result r => cases result <;> rfl
  exact step _ _ rfl

/-- Nothing is found before the first signature. -/
theorem findAfter_skip {stop : Nat} (le : position ≤ stop)
    (h : ∀ n, signaturePosition (image.drop position) = some n → stop ≤ position + n) :
    findAfter image position = findAfter image stop := by
  have unsigned : ∀ p, position ≤ p → p < stop → ¬ signature <+: image.drop p :=
    fun p hp hlt => not_signature_of_lt hp fun n hn => hlt.trans_le (h n hn)
  clear h
  induction stop, le using Nat.le_induction with
  | base => rfl
  | succ stop le ih =>
    rw [ih fun p hp hlt => unsigned p hp (Nat.lt_succ_of_lt hlt)]
    by_cases inside : stop < image.length
    · rw [findAfter_of_lt inside]
      cases hparse : parseAt image stop with
      | ok map => exact absurd (signature_of_parseAt hparse) (unsigned stop le (Nat.lt_succ_self stop))
      | error e => rfl
    · rw [findAfter_of_le (by omega), findAfter_of_le (by omega)]

/-- A signature that is found stands in what was cut off. -/
theorem findAfter_signature {ahead : Nat}
    (h : signaturePosition (image.drop position) = some ahead) :
    position + ahead < image.length ∧
      findAfter image position = findAfter image (position + ahead) := by
  have lt := signaturePosition_lt h
  rw [List.length_drop] at lt
  refine ⟨by omega, findAfter_skip (Nat.le_add_right _ _) fun n hn => ?_⟩
  rw [h] at hn
  rw [Option.some.inj hn]

/-- After a signature there is room for the next start, at the end if nowhere else. -/
theorem findSlicedFrom_eq {start : Nat} (inside : start ≤ image.length) :
    (findSlicedFrom image start : Sliced ε _) = .ok (findAfter image start) := by
  fun_induction findSlicedFrom (ε := ε) image start with
  | case1 start e hcut =>
    rw [Bytes.cut_from inside] at hcut
    cases hcut
  | case2 start rest hcut nowhere =>
    obtain ⟨-, rfl⟩ := Bytes.drop_of_cut hcut
    rw [findAfter_skip inside (by rw [nowhere]; nofun), findAfter_of_le le_rfl]
  | case3 start rest hcut ahead there map hparse =>
    obtain ⟨-, rfl⟩ := Bytes.drop_of_cut hcut
    obtain ⟨lt, skipped⟩ := findAfter_signature there
    rw [skipped, findAfter_of_lt lt, hparse]
  | case4 start rest hcut ahead there e hparse ih =>
    obtain ⟨-, rfl⟩ := Bytes.drop_of_cut hcut
    obtain ⟨lt, skipped⟩ := findAfter_signature there
    rw [ih lt, skipped, findAfter_of_lt lt, hparse]

/-- The search from signature to signature stays inside the image and finds its map. -/
theorem findSliced_eq (image : Bytes) : (findSliced image : Sliced ε _) = .ok (find image) :=
  findSlicedFrom_eq (Nat.zero_le _)

/-! ## Looking up areas -/

def hasNameSliced (a : FlashArea) (name : String) : Sliced ε Bool := do
  return (← a.name.bytes.untilZeroSliced) == Bytes.ofText name

/-- The first area with a name. -/
def findAreaSliced (m : FlashMap) (name : String) : Sliced ε (Option FlashArea) :=
  m.areas.findM? (hasNameSliced · name)

def clampedAreaSliced (m : FlashMap) (name : String) (length : Nat) : Sliced ε (Option Area) := do
  return (← m.findAreaSliced name).map fun a => (a.clamp length).toArea

theorem hasNameSliced_eq (a : FlashArea) (name : String) :
    (hasNameSliced a name : Sliced ε Bool) = .ok (a.hasName name) := by
  unfold hasNameSliced
  rw [Bytes.untilZeroSliced_eq]
  rfl

theorem findAreaSliced_eq (m : FlashMap) (name : String) :
    (m.findAreaSliced name : Sliced ε _) = .ok (m.findArea name) := by
  unfold findAreaSliced findArea
  induction m.areas with
  | nil => rfl
  | cons a areas ih =>
    rw [List.findM?, hasNameSliced_eq, List.find?_cons]
    cases a.hasName name with
    | true => rfl
    | false => exact ih

theorem clampedAreaSliced_eq (m : FlashMap) (name : String) (length : Nat) :
    (m.clampedAreaSliced name length : Sliced ε _) = .ok (m.clampedArea name length) := by
  unfold clampedAreaSliced
  rw [findAreaSliced_eq]
  rfl

end FlashMap
end VerifiedBoot

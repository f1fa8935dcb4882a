/-
Parts of an image and what writes do to them. A write that fits changes the bytes that it covers and
no others; after a run of writes, a part that none of them covers is as before, and what a write put
in place is there unless another write covers it.
-/
import VerifiedBoot.Image.FlashMap
import Mathlib.Tactic

namespace VerifiedBoot

/-! ## Positions of an area -/

namespace Area

/-- The positions of the bytes of an area. -/
def Covers (a : Area) (i : Nat) : Prop := a.offset ≤ i ∧ i < a.offset + a.length

/-- Two areas have no byte in common. -/
def Disjoint (a b : Area) : Prop := ∀ i, a.Covers i → ¬ b.Covers i

theorem Disjoint.symm {a b : Area} (h : a.Disjoint b) : b.Disjoint a := fun i hb ha => h i ha hb

theorem isEmpty_eq_false {a : Area} : (!a.isEmpty) = true ↔ a.length ≠ 0 := by
  simp only [isEmpty, Bool.not_eq_true', beq_eq_false_iff_ne, ne_eq]

theorem disjoint_of_le {a b : Area}
    (h : a.offset + a.length ≤ b.offset ∨ b.offset + b.length ≤ a.offset) : a.Disjoint b := by
  rintro i ⟨ha, ha'⟩ ⟨hb, hb'⟩
  omega

/-- The start of an area is disjoint from what the area is disjoint from. -/
theorem Disjoint.shorten {a b : Area} (h : a.Disjoint b) {n : Nat} (hn : n ≤ a.length) :
    (Area.mk a.offset n).Disjoint b :=
  fun i hi => h i ⟨hi.1, Nat.lt_of_lt_of_le hi.2 (Nat.add_le_add_left hn _)⟩

/-- The end of an area at offsets of 32 bits is not cut off. -/
theorem stop_eq {a : Area} (h : a.offset + a.length < word32Bound) : a.stop = a.offset + a.length := by
  unfold stop saturatingSum
  refine Nat.min_eq_left ?_
  unfold word32Bound at h
  unfold sizeBound
  omega

/-- An area whose end is cut off at the largest offset is part of an image only if nothing was cut
off: no image has that many bytes. -/
theorem slice_eq_between {a : Area} {image : Bytes} (h : image.length < sizeBound - 1) :
    a.slice image = if a.offset ≤ a.stop ∧ a.stop ≤ image.length
      then some (image.between a.offset a.stop) else none := by
  unfold slice Bytes.slice stop saturatingSum Bytes.between
  by_cases hle : a.offset + a.length ≤ image.length
  · have whole : min (a.offset + a.length) (sizeBound - 1) = a.offset + a.length :=
      Nat.min_eq_left (by omega)
    rw [whole, if_pos hle, if_pos ⟨Nat.le_add_right _ _, hle⟩, Nat.add_sub_cancel_left]
  · rw [if_neg hle, if_neg]
    omega

end Area

/-! ## Areas that a flash map names -/

/-- Whatever a flash map says, an area of an image lies inside it, at offsets of 32 bits. -/
theorem FlashMap.clampedArea_le {map : FlashMap} {name : String} {length : Nat} {a : Area}
    (h : map.clampedArea name length = some a) :
    a.offset + a.length ≤ length ∧ a.offset + a.length < word32Bound := by
  obtain ⟨entry, -, rfl⟩ := Option.map_eq_some_iff.1 h
  by_cases fits : entry.offset.toNat + entry.size.toNat < word32Bound ∧
      entry.offset.toNat + entry.size.toNat ≤ length
  · have kept : entry.clamp length = entry := if_pos fits
    rw [kept]
    exact ⟨fits.2, fits.1⟩
  · have emptied : entry.clamp length = { entry with offset := 0, size := 0 } := if_neg fits
    rw [emptied]
    exact ⟨Nat.zero_le length, (by decide : 0 < word32Bound)⟩

/-! ## Slices -/

namespace Bytes

theorem slice_eq_some {bs x : Bytes} {start len : Nat} :
    bs.slice start len = some x ↔ start + len ≤ bs.length ∧ (bs.drop start).take len = x := by
  unfold slice
  split_ifs with h <;> simp [h]

theorem length_slice {bs x : Bytes} {start len : Nat} (h : bs.slice start len = some x) :
    x.length = len := by
  obtain ⟨hle, rfl⟩ := slice_eq_some.1 h
  rw [List.length_take, List.length_drop]
  omega

/-- What is a part of one image is a part of every image of that length. -/
theorem slice_of_length {bs bs' x : Bytes} {start len : Nat} (hl : bs'.length = bs.length)
    (h : bs.slice start len = some x) : ∃ y, bs'.slice start len = some y :=
  ⟨_, slice_eq_some.2 ⟨hl ▸ (slice_eq_some.1 h).1, rfl⟩⟩

/-- The start of a slice is a slice. -/
theorem slice_take {bs x : Bytes} {start len n : Nat} (h : bs.slice start len = some x)
    (hn : n ≤ len) : bs.slice start n = some (x.take n) := by
  obtain ⟨hle, rfl⟩ := slice_eq_some.1 h
  rw [slice_eq_some]
  refine ⟨by omega, ?_⟩
  rw [List.take_take, Nat.min_eq_left hn]

/-- What stands where a slice starts, and is no longer, starts the slice. -/
theorem isPrefix_of_slice {bs x y : Bytes} {start len : Nat} (h : bs.slice start len = some x)
    (hy : bs.slice start y.length = some y) (hle : y.length ≤ len) : y <+: x := by
  rw [slice_take h hle] at hy
  exact Option.some.inj hy ▸ List.take_prefix _ _

/-- The bytes of a slice are those of the image that it covers. -/
theorem getElem?_of_slice {bs x : Bytes} {start len i : Nat} (h : bs.slice start len = some x)
    (hi : (Area.mk start len).Covers i) : x[i - start]? = bs[i]? := by
  obtain ⟨hle, hlt⟩ := hi
  simp only at hle hlt
  obtain ⟨-, rfl⟩ := slice_eq_some.1 h
  rw [List.getElem?_take_of_lt (by omega), List.getElem?_drop, Nat.add_sub_cancel' hle]

/-- Images of one length that agree on a part have the same slice there. -/
theorem slice_congr {bs bs' : Bytes} {start len : Nat} (hl : bs.length = bs'.length)
    (h : ∀ i, (Area.mk start len).Covers i → bs[i]? = bs'[i]?) :
    bs.slice start len = bs'.slice start len := by
  have same : (bs.drop start).take len = (bs'.drop start).take len := by
    apply List.ext_getElem?
    intro i
    rw [List.getElem?_take, List.getElem?_take, List.getElem?_drop, List.getElem?_drop]
    split_ifs with hi
    · exact h _ ⟨Nat.le_add_right _ _, Nat.add_lt_add_left hi _⟩
    · rfl
  unfold slice
  rw [hl, same]

/-! ## Parts between two offsets, and padding -/

/-- The part after the first and before the last of three. -/
theorem between_append (x y z : Bytes) :
    (x ++ y ++ z).between x.length (x.length + y.length) = y := by
  unfold between
  rw [List.append_assoc, List.drop_left, Nat.add_sub_cancel_left, List.take_left]

/-- A part of the start of a string is that part of the string. -/
theorem between_take {bs : Bytes} {start stop n : Nat} (h : stop ≤ n) :
    between (bs.take n) start stop = bs.between start stop := by
  unfold between
  rw [List.drop_take, List.take_take, Nat.min_eq_left (by omega)]

theorem isPrefix_padTo (bs : Bytes) (size : Nat) (pad : UInt8) : bs <+: bs.padTo size pad :=
  List.prefix_append _ _

theorem length_padTo {bs : Bytes} {size : Nat} (pad : UInt8) (h : bs.length ≤ size) :
    (bs.padTo size pad).length = size := by
  unfold padTo
  rw [List.length_append, List.length_replicate]
  omega

/-! ## One write -/

theorem length_overwrite {bs new : Bytes} {start : Nat} (h : start + new.length ≤ bs.length) :
    (bs.overwrite start new).length = bs.length := by
  simp only [overwrite, List.length_append, List.length_take, List.length_drop]
  omega

/-- A write that fits leaves every byte that it does not cover. -/
theorem getElem?_overwrite_of_not_covers {bs new : Bytes} {start i : Nat}
    (h : start + new.length ≤ bs.length) (hi : ¬ (Area.mk start new.length).Covers i) :
    (bs.overwrite start new)[i]? = bs[i]? := by
  have hlen : (bs.take start ++ new).length = start + new.length := by
    rw [List.length_append, List.length_take]
    omega
  simp only [Area.Covers] at hi
  unfold overwrite
  by_cases hlt : i < start
  · rw [List.append_assoc, List.getElem?_append_left (by rw [List.length_take]; omega),
      List.getElem?_take_of_lt hlt]
  · rw [List.getElem?_append_right (by omega), List.getElem?_drop, hlen]
    congr 1
    omega

/-- A write that fits puts its bytes where it covers. -/
theorem getElem?_overwrite_of_covers {bs new : Bytes} {start i : Nat}
    (h : start + new.length ≤ bs.length) (hi : (Area.mk start new.length).Covers i) :
    (bs.overwrite start new)[i]? = new[i - start]? := by
  obtain ⟨hle, hlt⟩ := hi
  have hlen : (bs.take start).length = start := List.length_take_of_le (by omega)
  unfold overwrite
  rw [List.append_assoc, List.getElem?_append_right (hlen.trans_le hle), hlen,
    List.getElem?_append_left (by simp only at hle hlt; omega)]

theorem slice_overwrite {bs new : Bytes} {start : Nat} (h : start + new.length ≤ bs.length) :
    (bs.overwrite start new).slice start new.length = some new := by
  have hlen : (bs.take start).length = start := List.length_take_of_le (by omega)
  rw [slice_eq_some, length_overwrite h]
  refine ⟨h, ?_⟩
  unfold overwrite
  rw [List.append_assoc, List.drop_append_of_le_length hlen.ge, List.drop_of_length_le hlen.le,
    List.nil_append, List.take_left]

/-! ## Runs of writes -/

/-- Writes one string after another, each at its offset. -/
def overwriteAll (bs : Bytes) (writes : List (Nat × Bytes)) : Bytes :=
  writes.foldl (fun bs w => bs.overwrite w.1 w.2) bs

variable {bs : Bytes} {writes : List (Nat × Bytes)}

theorem length_overwriteAll (h : ∀ w ∈ writes, w.1 + w.2.length ≤ bs.length) :
    (bs.overwriteAll writes).length = bs.length := by
  induction writes generalizing bs with
  | nil => rfl
  | cons w writes ih =>
    have hw := length_overwrite (h w (List.mem_cons_self ..))
    show (overwriteAll (bs.overwrite w.1 w.2) writes).length = _
    rw [ih, hw]
    intro w' hw'
    rw [hw]
    exact h w' (List.mem_cons_of_mem _ hw')

/-- A run of writes that fit leaves a byte that each of them passes over or writes as it is. -/
theorem getElem?_overwriteAll_of_agrees {i : Nat}
    (h : ∀ w ∈ writes, w.1 + w.2.length ≤ bs.length)
    (hi : ∀ w ∈ writes, (Area.mk w.1 w.2.length).Covers i → w.2[i - w.1]? = bs[i]?) :
    (bs.overwriteAll writes)[i]? = bs[i]? := by
  induction writes generalizing bs with
  | nil => rfl
  | cons w writes ih =>
    have fits := h w List.mem_cons_self
    have same : (bs.overwrite w.1 w.2)[i]? = bs[i]? := by
      by_cases hc : (Area.mk w.1 w.2.length).Covers i
      · rw [getElem?_overwrite_of_covers fits hc, hi w List.mem_cons_self hc]
      · exact getElem?_overwrite_of_not_covers fits hc
    show (overwriteAll (bs.overwrite w.1 w.2) writes)[i]? = _
    rw [ih, same]
    · intro w' hw'
      rw [length_overwrite fits]
      exact h w' (List.mem_cons_of_mem _ hw')
    · intro w' hw' hc
      rw [same]
      exact hi w' (List.mem_cons_of_mem _ hw') hc

/-- A run of writes that fit leaves every byte that none of them covers. -/
theorem getElem?_overwriteAll_of_not_covers {i : Nat}
    (h : ∀ w ∈ writes, w.1 + w.2.length ≤ bs.length)
    (hi : ∀ w ∈ writes, ¬ (Area.mk w.1 w.2.length).Covers i) :
    (bs.overwriteAll writes)[i]? = bs[i]? :=
  getElem?_overwriteAll_of_agrees h fun w hw hc => absurd hc (hi w hw)

/-- Writing what is in place already changes nothing. -/
theorem overwriteAll_of_in_place (h : ∀ w ∈ writes, bs.slice w.1 w.2.length = some w.2) :
    bs.overwriteAll writes = bs := by
  apply List.ext_getElem?
  intro i
  refine getElem?_overwriteAll_of_agrees (fun w hw => (slice_eq_some.1 (h w hw)).1) fun w hw hc => ?_
  exact getElem?_of_slice (h w hw) hc

/-- A byte that a run of writes covers is that of the last write to cover it. -/
theorem getElem?_overwriteAll_of_last {before after : List (Nat × Bytes)} {w : Nat × Bytes} {i : Nat}
    (h : ∀ w' ∈ before ++ w :: after, w'.1 + w'.2.length ≤ bs.length)
    (hi : (Area.mk w.1 w.2.length).Covers i)
    (last : ∀ w' ∈ after, ¬ (Area.mk w'.1 w'.2.length).Covers i) :
    (bs.overwriteAll (before ++ w :: after))[i]? = w.2[i - w.1]? := by
  have hbefore : (bs.overwriteAll before).length = bs.length :=
    length_overwriteAll fun w' hw' => h w' (List.mem_append_left _ hw')
  have fits : w.1 + w.2.length ≤ (bs.overwriteAll before).length :=
    hbefore ▸ h w (List.mem_append_right _ List.mem_cons_self)
  have split : bs.overwriteAll (before ++ w :: after)
      = ((bs.overwriteAll before).overwrite w.1 w.2).overwriteAll after := by
    unfold overwriteAll
    rw [List.foldl_append, List.foldl_cons]
  rw [split, getElem?_overwriteAll_of_not_covers _ last, getElem?_overwrite_of_covers fits hi]
  intro w' hw'
  rw [length_overwrite fits, hbefore]
  exact h w' (List.mem_append_right _ (List.mem_cons_of_mem _ hw'))

/-- What is written last is in place. -/
theorem slice_overwriteAll_last {w : Nat × Bytes}
    (h : ∀ w' ∈ writes ++ [w], w'.1 + w'.2.length ≤ bs.length) :
    (bs.overwriteAll (writes ++ [w])).slice w.1 w.2.length = some w.2 := by
  have before := length_overwriteAll fun w' hw' => h w' (List.mem_append_left _ hw')
  have last : bs.overwriteAll (writes ++ [w]) = (bs.overwriteAll writes).overwrite w.1 w.2 := by
    unfold overwriteAll
    rw [List.foldl_append, List.foldl_cons, List.foldl_nil]
  rw [last]
  refine slice_overwrite ?_
  rw [before]
  exact h w (List.mem_append_right _ (List.mem_singleton.2 rfl))

/-- A part that a run of writes does not touch is as before. -/
theorem slice_overwriteAll_of_disjoint {a : Area} (h : ∀ w ∈ writes, w.1 + w.2.length ≤ bs.length)
    (apart : ∀ w ∈ writes, (Area.mk w.1 w.2.length).Disjoint a) :
    a.slice (bs.overwriteAll writes) = a.slice bs := by
  refine slice_congr (length_overwriteAll h) fun i hi => ?_
  exact getElem?_overwriteAll_of_not_covers h fun w hw hc => apart w hw i hc hi

/-- After a run of writes, what one of them wrote is in place if the others write elsewhere. Another
write of the same bytes to the same place does no harm. -/
theorem slice_overwriteAll_of_mem {w : Nat × Bytes} (h : ∀ w' ∈ writes, w'.1 + w'.2.length ≤ bs.length)
    (hw : w ∈ writes)
    (apart : ∀ w' ∈ writes, w' = w ∨
      (Area.mk w'.1 w'.2.length).Disjoint (Area.mk w.1 w.2.length)) :
    (bs.overwriteAll writes).slice w.1 w.2.length = some w.2 := by
  -- the induction takes a string in which the bytes may be in place already
  have run : ∀ (writes : List (Nat × Bytes)) (bs : Bytes),
      (∀ w' ∈ writes, w'.1 + w'.2.length ≤ bs.length) →
      (∀ w' ∈ writes, w' = w ∨ (Area.mk w'.1 w'.2.length).Disjoint (Area.mk w.1 w.2.length)) →
      (w ∈ writes ∨ bs.slice w.1 w.2.length = some w.2) →
      (bs.overwriteAll writes).slice w.1 w.2.length = some w.2 := by
    intro writes
    induction writes with
    | nil =>
      intro bs _ _ hp
      exact hp.resolve_left (List.not_mem_nil)
    | cons v writes ih =>
      intro bs fits apart hp
      have fit := fits v (List.mem_cons_self ..)
      refine ih (bs.overwrite v.1 v.2) ?_ (fun w' hw' => apart w' (List.mem_cons_of_mem _ hw')) ?_
      · intro w' hw'
        rw [length_overwrite fit]
        exact fits w' (List.mem_cons_of_mem _ hw')
      · by_cases hv : v = w
        · subst hv
          exact .inr (slice_overwrite fit)
        · have elsewhere := (apart v (List.mem_cons_self ..)).resolve_left hv
          rcases hp with hp | hp
          · exact .inl ((List.mem_cons.1 hp).resolve_left (Ne.symm hv))
          · refine .inr ?_
            rw [← hp]
            exact slice_congr (length_overwrite fit) fun i hi =>
              getElem?_overwrite_of_not_covers fit fun hc => elsewhere i hc hi
  exact run writes bs h apart (.inl hw)

end Bytes
end VerifiedBoot

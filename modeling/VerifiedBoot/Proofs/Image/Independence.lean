/-
Slots are judged each by itself. A firmware image is verified in one pass over its components that
carries keys, bodies and verdicts from one to the next. Whatever it carries, the verdict on a slot is
the one that the bytes of its two areas and the root key give, as long as the GBB and the body come
before the trust chain; so nothing else in the image has a say in it.
-/
import VerifiedBoot.Image.Firmware
import VerifiedBoot.Proofs.Results
import VerifiedBoot.Proofs.Image.Parts

namespace VerifiedBoot
namespace FirmwareImage
variable {f : FirmwareImage} {options : VerifyOptions} {payload : PayloadFormat}

theorem parse_eq_ok {bytes : Bytes} :
    parse bytes = .ok f ↔ ∃ map, FlashMap.find bytes = some map ∧ ofMap map bytes = f := by
  unfold parse
  cases FlashMap.find bytes <;> simp

/-- An image is read by the areas that its flash map gives to the components. -/
theorem parse_of_areas {bytes : Bytes} {area : FirmwareComponent → Option Area}
    (h : (FlashMap.find bytes).map (fun map =>
        FirmwareComponent.all.map fun c => map.clampedArea c.name bytes.length)
      = some (FirmwareComponent.all.map area)) : parse bytes = .ok { bytes, area } := by
  obtain ⟨map, hmap, areas⟩ := Option.map_eq_some_iff.1 h
  have same : (fun c : FirmwareComponent => map.clampedArea c.name bytes.length) = area := by
    funext c
    refine List.map_inj_left.1 areas c ?_
    rcases c with _ | (_ | _) | (_ | _) <;> decide
  refine parse_eq_ok.2 ⟨map, hmap, ?_⟩
  unfold ofMap
  rw [same]

/-! ## One slot by itself -/

/-- The root key: the one that the caller gives, or the one in the GBB. -/
def rootKey? (f : FirmwareImage) (options : VerifyOptions) : Option PackedKey :=
  options.rootKey <|> f.gbb.toOption.bind (·.rootKey)

/-- The verdict on a slot from its own areas and the root key. -/
def judgeSlot (f : FirmwareImage) (options : VerifyOptions) (payload : PayloadFormat)
    (id : SlotId) : Verdict :=
  match f.present? (.vblock id), f.present? (.body id) with
  | some chain, some body => judgeWith options payload chain body (f.rootKey? options)
  | _, _ => .missing

theorem present?_of_area_none {c : FirmwareComponent} (h : f.area c = none) : f.present? c = none := by
  simp only [present?, component?, h]
  rfl

theorem gbb_of_area_none (h : f.area .gbb = none) : f.gbb.toOption = none := by
  simp only [gbb, h]
  rfl

/-! ## The pass over the components -/

/-- What is carried after some components have been seen: what they say by themselves, and nothing of
the others. -/
structure Reflects (f : FirmwareImage) (options : VerifyOptions) (payload : PayloadFormat)
    (seen : List FirmwareComponent) (s : FirmwareSurvey) : Prop where
  gbb : s.gbb = if .gbb ∈ seen then f.gbb.toOption else none
  rootKey : s.rootKey = if .gbb ∈ seen then f.rootKey? options else options.rootKey
  body : ∀ id, s.body id = if .body id ∈ seen then f.present? (.body id) else none
  verdict : ∀ id, s.verdict id = if .vblock id ∈ seen then f.judgeSlot options payload id
    else .missing

/-- A trust chain can be judged once the GBB and the body that it signs have been seen. -/
def Ready (seen : List FirmwareComponent) : FirmwareComponent → Prop
  | .vblock id => .gbb ∈ seen ∧ .body id ∈ seen
  | _ => True

theorem reflects_start : f.Reflects options payload [] (.start options) where
  gbb := rfl
  rootKey := rfl
  body _ := rfl
  verdict _ := rfl

/-- To put a value where it is changes nothing. -/
theorem ite_eq_self_of_eq {α : Type} {g : SlotId → α} {id : SlotId} {a : α} (h : g id = a) :
    (fun id' => if id' = id then a else g id') = g := by
  funext id'
  split_ifs with same
  · rw [same, h]
  · rfl

/-- A GBB adds its summary and, if none is known, its key. One without area adds as little as one that
cannot be read. -/
theorem visit_gbb {s : FirmwareSurvey} (hgbb : s.gbb = f.gbb.toOption ∨ s.gbb = none)
    (hkey : s.rootKey = f.rootKey? options ∨ s.rootKey = options.rootKey) :
    f.visit options payload s .gbb
      = { s with gbb := f.gbb.toOption, rootKey := f.rootKey? options } := by
  have opened : f.visit options payload s .gbb = f.gbb.toOption.elim s s.addGbb := by
    unfold visit
    cases harea : f.area .gbb with
    | some area => cases f.gbb <;> rfl
    | none =>
      have unread := gbb_of_area_none harea
      cases found : f.gbb with
      | error e => rfl
      | ok summary => rw [found] at unread; cases unread
  rw [opened]
  unfold rootKey? at hkey ⊢
  cases found : f.gbb with
  | error e =>
    rw [found] at hgbb hkey
    have unknown : ∀ key : Option PackedKey, (key <|> none) = key := fun key => by cases key <;> rfl
    simp only [Except.toOption, Option.elim_none, Option.bind_none, unknown, or_self] at hgbb hkey ⊢
    rw [← hgbb, ← hkey]
  | ok summary =>
    rw [found] at hkey
    simp only [Except.toOption, Option.elim_some, Option.bind_some, FirmwareSurvey.addGbb] at hkey ⊢
    -- the key of the GBB may have been taken already
    have taken : ∀ a b : Option PackedKey, ((a <|> b) <|> b) = (a <|> b) := by
      intro a b
      cases a <;> cases b <;> rfl
    rcases hkey with known | known
    · rw [known, taken]
    · rw [known]

theorem visit_body {s : FirmwareSurvey} {id : SlotId}
    (hbody : s.body id = f.present? (.body id) ∨ s.body id = none) :
    f.visit options payload s (.body id) = s.setBody id (f.present? (.body id)) := by
  unfold visit
  cases harea : f.area (.body id) with
  | some area => rfl
  | none =>
    have missing := present?_of_area_none harea
    rw [missing, or_self] at hbody
    simp only [FirmwareSurvey.setBody, missing, ite_eq_self_of_eq hbody]

/-- A slot that lacks one of its areas keeps its verdict. -/
theorem visit_vblock {s : FirmwareSurvey} {id : SlotId} (hkey : s.rootKey = f.rootKey? options)
    (hbody : s.body id = f.present? (.body id))
    (hverdict : s.verdict id = f.judgeSlot options payload id ∨ s.verdict id = .missing) :
    f.visit options payload s (.vblock id)
      = s.setVerdict id (f.judgeSlot options payload id) := by
  have opened : f.visit options payload s (.vblock id) =
      match f.present? (.vblock id), f.present? (.body id) with
      | some chain, some body =>
        s.setVerdict id (judgeWith options payload chain body (f.rootKey? options))
      | _, _ => s := by
    rw [← hkey, ← hbody]
    unfold visit
    cases harea : f.area (.vblock id) with
    | some area => rfl
    | none => rw [present?_of_area_none harea]
  have kept : ∀ verdict, s.verdict id = verdict → s.setVerdict id verdict = s := by
    intro verdict h
    simp only [FirmwareSurvey.setVerdict, ite_eq_self_of_eq h]
  rw [opened]
  unfold judgeSlot at hverdict ⊢
  cases hchain : f.present? (.vblock id) with
  | none =>
    rw [hchain] at hverdict
    exact (kept _ (or_self_iff.1 hverdict)).symm
  | some chain =>
    cases hbody : f.present? (.body id) with
    | none =>
      rw [hchain, hbody] at hverdict
      exact (kept _ (or_self_iff.1 hverdict)).symm
    | some body => rfl

/-- One component more. -/
theorem Reflects.visit {seen : List FirmwareComponent} {s : FirmwareSurvey} {c : FirmwareComponent}
    (h : f.Reflects options payload seen s) (ready : Ready seen c) :
    f.Reflects options payload (seen ++ [c]) (f.visit options payload s c) := by
  have hgbb : s.gbb = f.gbb.toOption ∨ s.gbb = none := h.gbb ▸ ite_eq_or_eq _ _ _
  have hkey : s.rootKey = f.rootKey? options ∨ s.rootKey = options.rootKey :=
    h.rootKey ▸ ite_eq_or_eq _ _ _
  cases c with
  | gbb =>
    rw [visit_gbb hgbb hkey]
    constructor
    · simp
    · simp
    · simpa using h.body
    · simpa using h.verdict
  | body id =>
    have hbody : s.body id = f.present? (.body id) ∨ s.body id = none :=
      h.body id ▸ ite_eq_or_eq _ _ _
    rw [visit_body hbody]
    constructor
    · simpa [FirmwareSurvey.setBody] using h.gbb
    · simpa [FirmwareSurvey.setBody] using h.rootKey
    · intro id'
      by_cases same : id' = id
      · simp [FirmwareSurvey.setBody, same]
      · simpa [FirmwareSurvey.setBody, same] using h.body id'
    · simpa [FirmwareSurvey.setBody] using h.verdict
  | vblock id =>
    obtain ⟨seenGbb, seenBody⟩ := ready
    have hverdict : s.verdict id = f.judgeSlot options payload id ∨ s.verdict id = .missing :=
      h.verdict id ▸ ite_eq_or_eq _ _ _
    have key := h.rootKey
    have body := h.body id
    rw [if_pos seenGbb] at key
    rw [if_pos seenBody] at body
    rw [visit_vblock key body hverdict]
    constructor
    · simpa [FirmwareSurvey.setVerdict] using h.gbb
    · simpa [FirmwareSurvey.setVerdict] using h.rootKey
    · simpa [FirmwareSurvey.setVerdict] using h.body
    · intro id'
      by_cases same : id' = id
      · simp [FirmwareSurvey.setVerdict, same]
      · simpa [FirmwareSurvey.setVerdict, same] using h.verdict id'

/-- Every trust chain of a list comes after the GBB and the body that it signs. -/
def Ordered : List FirmwareComponent → List FirmwareComponent → Prop
  | _, [] => True
  | seen, c :: cs => Ready seen c ∧ Ordered (seen ++ [c]) cs

/-- Any number of components more, in any order in which all trust chains are ready. -/
theorem Reflects.foldl_visit {seen cs : List FirmwareComponent} {s : FirmwareSurvey}
    (h : f.Reflects options payload seen s) (ordered : Ordered seen cs) :
    f.Reflects options payload (seen ++ cs) (cs.foldl (f.visit options payload) s) := by
  induction cs generalizing seen s with
  | nil =>
    rw [List.append_nil]
    exact h
  | cons c cs ih =>
    obtain ⟨ready, rest⟩ := ordered
    have whole := ih (h.visit ready) rest
    rw [List.append_assoc] at whole
    exact whole

theorem ordered_all : Ordered [] FirmwareComponent.all :=
  ⟨trivial, trivial, trivial, ⟨by decide, by decide⟩, ⟨by decide, by decide⟩, trivial⟩

/-- The pass over the components finds of each slot what there is to be said of it alone. -/
theorem verify_eq (f : FirmwareImage) (options : VerifyOptions) (payload : PayloadFormat) :
    f.verify options payload = { gbb := f.gbb.toOption, verdict := f.judgeSlot options payload } := by
  have whole : f.Reflects options payload FirmwareComponent.all
      (FirmwareComponent.all.foldl (f.visit options payload) (.start options)) :=
    reflects_start.foldl_visit ordered_all
  have gbb := whole.gbb
  rw [if_pos (by decide)] at gbb
  have verdict : (FirmwareComponent.all.foldl (f.visit options payload) (.start options)).verdict
      = f.judgeSlot options payload := by
    funext id
    rw [whole.verdict id, if_pos (by cases id <;> decide)]
  unfold verify
  simp only [gbb, verdict]

/-! ## What an image holds -/

/-- The bytes of a component that has an area in the image, and not an empty one. -/
def Holds (f : FirmwareImage) (c : FirmwareComponent) (bs : Bytes) : Prop :=
  ∃ area, f.area c = some area ∧ area.length ≠ 0 ∧ area.slice f.bytes = some bs

/-- A component without area, or with one that is empty or not in the image. -/
def Lacks (f : FirmwareImage) (c : FirmwareComponent) : Prop :=
  ∀ area, f.area c = some area → area.length = 0 ∨ area.slice f.bytes = none

/-- The GBB is there and can be read, and so can the root key in it. -/
def HoldsRootKey (f : FirmwareImage) (key : PackedKey) : Prop :=
  ∃ bytes gbb, f.Holds .gbb bytes ∧ Gbb.parse bytes = .ok gbb ∧ gbb.rootKey = .ok key

variable {c : FirmwareComponent} {id : SlotId}

theorem present?_eq_some {bs : Bytes} : f.present? c = some bs ↔ f.Holds c bs := by
  unfold present? component? Holds
  simp only [Option.filter_eq_some_iff, Option.bind_eq_bind, Option.bind_eq_some_iff]
  constructor
  · rintro ⟨⟨area, harea, hs⟩, nonempty⟩
    refine ⟨area, harea, fun empty => ?_, hs⟩
    rw [List.length_eq_zero_iff.1 ((Bytes.length_slice hs).trans empty)] at nonempty
    cases nonempty
  · rintro ⟨area, harea, nonempty, hs⟩
    refine ⟨⟨area, harea, hs⟩, ?_⟩
    rw [Bool.not_eq_true', List.isEmpty_eq_false_iff, ← List.length_pos_iff, Bytes.length_slice hs]
    exact Nat.pos_of_ne_zero nonempty

theorem present?_eq_none : f.present? c = none ↔ f.Lacks c := by
  rw [Option.eq_none_iff_forall_ne_some]
  unfold Lacks
  simp only [ne_eq, present?_eq_some, Holds, not_exists, not_and]
  constructor
  · intro h area harea
    cases hs : area.slice f.bytes with
    | none => exact .inr rfl
    | some bs => exact .inl (by_contra fun nonempty => h bs area harea nonempty hs)
  · intro h bs area harea nonempty hs
    rcases h area harea with empty | outside
    · exact nonempty empty
    · rw [outside] at hs
      cases hs

theorem gbb_eq_ok {summary : GbbSummary} : f.gbb = .ok summary ↔
    ∃ area bytes gbb, f.area .gbb = some area ∧ area.length ≠ 0 ∧ area.slice f.bytes = some bytes ∧
      Gbb.parse bytes = .ok gbb ∧ summary = {
        area
        hwid := gbb.hwid
        flags := gbb.header.flags
        rootKey := gbb.rootKey.toOption
        recoveryKey := gbb.recoveryKey.toOption } := by
  have there : ∀ {area : Area}, (f.area .gbb).filter (!·.isEmpty) = some area ↔
      f.area .gbb = some area ∧ area.length ≠ 0 := fun {area} => by
    rw [Option.filter_eq_some_iff, Area.isEmpty_eq_false]
  unfold gbb
  cases harea : (f.area .gbb).filter (!·.isEmpty) with
  | none =>
    constructor
    · intro h; cases h
    · rintro ⟨area, _, _, named, nonempty, -⟩
      rw [there.2 ⟨named, nonempty⟩] at harea
      cases harea
  | some area =>
    obtain ⟨named, nonempty⟩ := there.1 harea
    cases hs : area.slice f.bytes with
    | none =>
      constructor
      · intro h
        simp only [hs] at h
        cases h
      · rintro ⟨area', _, _, named', -, hs', -⟩
        obtain rfl := Option.some.inj (named.symm.trans named')
        rw [hs] at hs'
        cases hs'
    | some bytes =>
      simp only [hs, bind_eq_ok, liftCodec_eq_ok, pure_eq_ok]
      constructor
      · rintro ⟨gbb, parsed, rfl⟩
        exact ⟨area, bytes, gbb, named, nonempty, hs, parsed, rfl⟩
      · rintro ⟨area', bytes', gbb, named', -, hs', parsed, rfl⟩
        obtain rfl := Option.some.inj (named.symm.trans named')
        obtain rfl := Option.some.inj (hs.symm.trans hs')
        exact ⟨gbb, parsed, rfl⟩

theorem gbb_rootKey_eq_some {key : PackedKey} :
    f.gbb.toOption.bind (·.rootKey) = some key ↔ f.HoldsRootKey key := by
  simp only [Option.bind_eq_some_iff, toOption_eq_some, gbb_eq_ok]
  constructor
  · rintro ⟨_, ⟨area, bytes, gbb, named, nonempty, hs, parsed, rfl⟩, hkey⟩
    exact ⟨bytes, gbb, ⟨area, named, nonempty, hs⟩, parsed, toOption_eq_some.1 hkey⟩
  · rintro ⟨bytes, gbb, ⟨area, named, nonempty, hs⟩, parsed, hkey⟩
    exact ⟨_, ⟨area, bytes, gbb, named, nonempty, hs, parsed, rfl⟩, toOption_eq_some.2 hkey⟩

/-- A component of an image that was read is lacking just if the flash map does not name it, or its
entry does not fit into the image or is empty. -/
theorem lacks_ofMap {bytes : Bytes} {map : FlashMap} :
    (ofMap map bytes).Lacks c ↔ ∀ entry, map.findArea c.name = some entry →
      entry.size = 0 ∨ bytes.length < entry.offset.toNat + entry.size.toNat ∨
        word32Bound ≤ entry.offset.toNat + entry.size.toNat := by
  have area : (ofMap map bytes).area c
      = (map.findArea c.name).map fun entry => (entry.clamp bytes.length).toArea := rfl
  unfold Lacks
  rw [area]
  cases found : map.findArea c.name with
  | none =>
    constructor
    · intro _ _ h; cases h
    · intro _ _ h; cases h
  | some entry =>
    simp only [Option.map_some, Option.some.injEq, forall_eq']
    by_cases fits : entry.offset.toNat + entry.size.toNat < word32Bound ∧
        entry.offset.toNat + entry.size.toNat ≤ bytes.length
    · have kept : entry.clamp bytes.length = entry := if_pos fits
      have there : entry.toArea.slice bytes ≠ none := by
        have inside := Bytes.slice_eq_some.2 ⟨fits.2, rfl⟩
        show bytes.slice entry.offset.toNat entry.size.toNat ≠ none
        rw [inside]
        nofun
      have length : entry.toArea.length = 0 ↔ entry.size = 0 := UInt32.toNat_inj (b := 0)
      rw [kept]
      show entry.toArea.length = 0 ∨ entry.toArea.slice bytes = none ↔ _
      rw [length]
      have small := not_le.2 fits.1
      have inside := not_lt.2 fits.2
      tauto
    · have emptied : entry.clamp bytes.length = { entry with offset := 0, size := 0 } := if_neg fits
      rw [emptied]
      refine ⟨fun _ => .inr ?_, fun _ => .inl rfl⟩
      omega

/-! ## Slots by themselves -/

theorem rootKey?_eq_some {key : PackedKey} : f.rootKey? options = some key ↔
    options.rootKey = some key ∨ options.rootKey = none ∧ f.HoldsRootKey key := by
  unfold rootKey?
  cases given : options.rootKey with
  | none =>
    rw [← gbb_rootKey_eq_some]
    show f.gbb.toOption.bind (·.rootKey) = some key ↔ _
    simp
  | some other =>
    show some other = some key ↔ _
    simp

theorem rootKey?_eq_none (noKey : options.rootKey = none) (noGbb : ∀ key, ¬ f.HoldsRootKey key) :
    f.rootKey? options = none := by
  rw [Option.eq_none_iff_forall_ne_some]
  intro key hkey
  rcases rootKey?_eq_some.1 hkey with given | ⟨-, held⟩
  · rw [noKey] at given
    cases given
  · exact noGbb key held

theorem judgeSlot_of_lacks (h : f.Lacks (.vblock id) ∨ f.Lacks (.body id)) :
    f.judgeSlot options payload id = .missing := by
  unfold judgeSlot
  rcases h with chain | body
  · rw [present?_eq_none.2 chain]
  · rw [present?_eq_none.2 body]
    cases f.present? (.vblock id) <;> rfl

theorem judgeSlot_of_holds {chain body : Bytes} (hchain : f.Holds (.vblock id) chain)
    (hbody : f.Holds (.body id) body) :
    f.judgeSlot options payload id = judgeWith options payload chain body (f.rootKey? options) := by
  unfold judgeSlot
  rw [present?_eq_some.2 hchain, present?_eq_some.2 hbody]

/-- Without a root key the best that can be said of a slot is that it is missing. -/
theorem isTrusted_judgeSlot (noKey : f.rootKey? options = none) :
    (f.judgeSlot options payload id).isTrusted = false := by
  unfold judgeSlot
  rw [noKey]
  cases f.present? (.vblock id) with
  | none => rfl
  | some chain => cases f.present? (.body id) <;> rfl

/-- The key that a GBB holds is a matter of its bytes. -/
theorem holdsRootKey_congr {f' : FirmwareImage} (h : f.component? .gbb = f'.component? .gbb)
    (key : PackedKey) : f.HoldsRootKey key ↔ f'.HoldsRootKey key := by
  unfold HoldsRootKey
  simp only [← present?_eq_some, present?, h]

theorem judgeSlot_congr {f' : FirmwareImage} (gbb : f.component? .gbb = f'.component? .gbb)
    (body : f.component? (.body id) = f'.component? (.body id))
    (chain : f.component? (.vblock id) = f'.component? (.vblock id)) :
    f.judgeSlot options payload id = f'.judgeSlot options payload id := by
  have key : f.rootKey? options = f'.rootKey? options := by
    refine Option.ext fun key => ?_
    rw [rootKey?_eq_some, rootKey?_eq_some, holdsRootKey_congr gbb]
  unfold judgeSlot present?
  rw [key, body, chain]

/-- The verdict on a slot is that it is missing, if it lacks one of its areas; that there is no root
key, if none is given and the GBB holds none; and else what the chain and the body of the slot are
worth under that key. So it is the same for any two images with the same GBB and the same two areas of
the slot, and no slot is trusted without a root key. An image that was read lacks what its flash map
does not name, or does not place inside the image, or leaves empty. -/
theorem slots_judged_by_themselves (options : VerifyOptions) (payload : PayloadFormat) (id : SlotId) :
    (∀ f : FirmwareImage,
      (f.Lacks (.vblock id) ∨ f.Lacks (.body id) →
        (f.verify options payload).verdict id = .untrusted .missingArea .start) ∧
      (∀ chain body, f.Holds (.vblock id) chain → f.Holds (.body id) body →
        (options.rootKey = none → (∀ key, ¬ f.HoldsRootKey key) →
          (f.verify options payload).verdict id = .untrusted .rootKeyUnavailable .start) ∧
        ∀ key, options.rootKey = some key ∨ options.rootKey = none ∧ f.HoldsRootKey key →
          (f.verify options payload).verdict id
            = Verifier.judge ⟨options, .software, payload⟩ key chain body) ∧
      (options.rootKey = none → (∀ key, ¬ f.HoldsRootKey key) →
        ((f.verify options payload).verdict id).isTrusted = false)) ∧
    (∀ f f' : FirmwareImage, f.component? .gbb = f'.component? .gbb →
      f.component? (.body id) = f'.component? (.body id) →
      f.component? (.vblock id) = f'.component? (.vblock id) →
      (f.verify options payload).verdict id = (f'.verify options payload).verdict id) ∧
    ∀ bytes f map c, parse bytes = .ok f → FlashMap.find bytes = some map →
      (f.Lacks c ↔ ∀ entry, map.findArea c.name = some entry →
        entry.size = 0 ∨ bytes.length < entry.offset.toNat + entry.size.toNat ∨
          2 ^ 32 ≤ entry.offset.toNat + entry.size.toNat) := by
  refine ⟨fun f => ⟨?_, ?_, ?_⟩, ?_, ?_⟩
  · intro lacking
    rw [verify_eq]
    exact judgeSlot_of_lacks lacking
  · intro chain body hchain hbody
    rw [verify_eq]
    refine ⟨fun noKey noGbb => ?_, fun key known => ?_⟩
    · show f.judgeSlot options payload id = _
      rw [judgeSlot_of_holds hchain hbody, rootKey?_eq_none noKey noGbb]
      rfl
    · show f.judgeSlot options payload id = _
      rw [judgeSlot_of_holds hchain hbody, rootKey?_eq_some.2 known]
      rfl
  · intro noKey noGbb
    rw [verify_eq]
    exact isTrusted_judgeSlot (rootKey?_eq_none noKey noGbb)
  · intro f f' gbb body chain
    rw [verify_eq, verify_eq]
    exact judgeSlot_congr gbb body chain
  · intro bytes f map c parsed found
    obtain ⟨map', found', rfl⟩ := parse_eq_ok.1 parsed
    obtain rfl := Option.some.inj (found.symm.trans found')
    exact lacks_ofMap

/-- The bytes of an image with a GBB of 54 bytes and two slots, the second with a body of `size` bytes. -/
def siblingBytes (gbb : Bytes) (size : UInt32) : Bytes :=
  let map := FlashMap.build "FMAP" 0 330
    [.named "GBB" 266 54, .named "VBLOCK_A" 320 4, .named "FW_MAIN_A" 324 2,
      .named "VBLOCK_B" 326 2, .named "FW_MAIN_B" 328 size]
  map.encode.toOption.getD [] ++ gbb ++ [1, 2, 3, 4] ++ [5, 6] ++ [7, 7] ++ [8, 9]

/-- Such an image, and where the second body is in it. -/
def siblingImage (gbb : Bytes) (size : UInt32) (bodyB : Area) : FirmwareImage where
  bytes := siblingBytes gbb size
  area
    | .gbb => some ⟨266, 54⟩
    | .body .a => some ⟨324, 2⟩
    | .body .b => some bodyB
    | .vblock .a => some ⟨320, 4⟩
    | .vblock .b => some ⟨326, 2⟩

def keyedGbb : Bytes := (Gbb.build "" 0 (some ⟨1, 5, [7]⟩) none 54).toOption.getD []

def blankGbb : Bytes := List.replicate 54 0

/-- Slot A is judged alike whether slot B is there or does not fit into the image; with a GBB that
cannot be read there is no key to judge it by. -/
theorem sibling_images_judged_alike :
    parse (siblingBytes keyedGbb 2) = .ok (siblingImage keyedGbb 2 ⟨328, 2⟩) ∧
    parse (siblingBytes keyedGbb 0x1000) = .ok (siblingImage keyedGbb 0x1000 ⟨0, 0⟩) ∧
    parse (siblingBytes blankGbb 2) = .ok (siblingImage blankGbb 2 ⟨328, 2⟩) ∧
    ((siblingImage keyedGbb 2 ⟨328, 2⟩).verify .none .raw).verdict .a
      = .untrusted .keyblockMalformed .start ∧
    ((siblingImage keyedGbb 0x1000 ⟨0, 0⟩).verify .none .raw).verdict .a
      = .untrusted .keyblockMalformed .start ∧
    ((siblingImage keyedGbb 0x1000 ⟨0, 0⟩).verify .none .raw).verdict .b
      = .untrusted .missingArea .start ∧
    ((siblingImage blankGbb 2 ⟨328, 2⟩).verify .none .raw).verdict .a
      = .untrusted .rootKeyUnavailable .start := by
  have parsedWhole : parse (siblingBytes keyedGbb 2) = .ok (siblingImage keyedGbb 2 ⟨328, 2⟩) :=
    parse_of_areas (by decide +kernel)
  have parsedCut : parse (siblingBytes keyedGbb 0x1000) = .ok (siblingImage keyedGbb 0x1000 ⟨0, 0⟩) :=
    parse_of_areas (by decide +kernel)
  have parsedKeyless : parse (siblingBytes blankGbb 2) = .ok (siblingImage blankGbb 2 ⟨328, 2⟩) :=
    parse_of_areas (by decide +kernel)
  obtain ⟨slotA, alike, -⟩ := slots_judged_by_themselves .none .raw .a
  obtain ⟨slotB, -, -⟩ := slots_judged_by_themselves .none .raw .b
  have holds : ∀ {f : FirmwareImage} {c : FirmwareComponent} {bs : Bytes}, f.present? c = some bs →
      f.Holds c bs := present?_eq_some.1
  have judged : ((siblingImage keyedGbb 2 ⟨328, 2⟩).verify .none .raw).verdict .a
      = .untrusted .keyblockMalformed .start := by
    have key : (siblingImage keyedGbb 2 ⟨328, 2⟩).HoldsRootKey ⟨1, 5, [7]⟩ :=
      gbb_rootKey_eq_some.1 (by decide +kernel)
    obtain ⟨-, present, -⟩ := slotA (siblingImage keyedGbb 2 ⟨328, 2⟩)
    rw [(present [1, 2, 3, 4] [5, 6] (holds (by decide +kernel)) (holds (by decide +kernel))).2
      ⟨1, 5, [7]⟩ (.inr ⟨rfl, key⟩)]
    decide +kernel
  have same : ((siblingImage keyedGbb 2 ⟨328, 2⟩).verify .none .raw).verdict .a
      = ((siblingImage keyedGbb 0x1000 ⟨0, 0⟩).verify .none .raw).verdict .a :=
    alike _ _ (by decide +kernel) (by decide +kernel) (by decide +kernel)
  refine ⟨parsedWhole, parsedCut, parsedKeyless, judged, same ▸ judged, ?_, ?_⟩
  · obtain ⟨missing, -, -⟩ := slotB (siblingImage keyedGbb 0x1000 ⟨0, 0⟩)
    refine missing (.inr fun area harea => ?_)
    obtain rfl := Option.some.inj harea
    exact .inl rfl
  · have noKey : (siblingImage blankGbb 2 ⟨328, 2⟩).gbb.toOption.bind (·.rootKey) = none := by
      decide +kernel
    obtain ⟨-, present, -⟩ := slotA (siblingImage blankGbb 2 ⟨328, 2⟩)
    refine (present [1, 2, 3, 4] [5, 6] (holds (by decide +kernel)) (holds (by decide +kernel))).1 rfl ?_
    intro key held
    rw [gbb_rootKey_eq_some.2 held] at noKey
    cases noKey

end FirmwareImage
end VerifiedBoot

/-
Computations that succeed and computations that fail. A computation made of others succeeds just if
each of them does, with the values and states that it passes on, and fails where the first of them
fails, so that what a function did is read off its definition.
-/
import VerifiedBoot.Error
import Mathlib.Tactic

namespace VerifiedBoot

variable {ε ε' α β : Type}

/-! ## Steps -/

theorem bind_eq_ok {x : Except ε α} {f : α → Except ε β} {b : β} :
    (x >>= f) = .ok b ↔ ∃ a, x = .ok a ∧ f a = .ok b := by
  constructor
  · intro h
    cases x with
    | ok a => exact ⟨a, rfl, h⟩
    | error e => cases h
  · rintro ⟨a, rfl, h⟩
    exact h

/-- A computation fails where its first part does, or after it. -/
theorem bind_eq_error {x : Except ε α} {f : α → Except ε β} {e : ε} :
    (x >>= f) = .error e ↔ x = .error e ∨ ∃ a, x = .ok a ∧ f a = .error e := by
  cases x with
  | ok a =>
    constructor
    · intro h; exact .inr ⟨a, rfl, h⟩
    · rintro (h | ⟨_, ha, h⟩)
      · cases h
      · cases ha; exact h
  | error e' =>
    constructor
    · intro h; cases h; exact .inl rfl
    · rintro (h | ⟨_, ha, -⟩)
      · cases h; rfl
      · cases ha

theorem mapError_eq_error {x : Except ε α} {f : ε → ε'} {e : ε'} :
    x.mapError f = .error e ↔ ∃ cause, x = .error cause ∧ f cause = e := by
  cases x <;> simp [Except.mapError]

theorem mapError_ok_iff {x : Except ε α} {f : ε → ε'} {a : α} :
    x.mapError f = .ok a ↔ x = .ok a := by
  cases x with
  | ok b => constructor <;> (intro h; cases h; rfl)
  | error e => constructor <;> (intro h; cases h)

theorem map_eq_ok {x : Except ε α} {f : α → β} {b : β} :
    f <$> x = .ok b ↔ ∃ a, x = .ok a ∧ f a = b := by
  constructor
  · intro h
    cases x with
    | ok a => exact ⟨a, rfl, Except.ok.inj h⟩
    | error e => cases h
  · rintro ⟨a, rfl, rfl⟩
    rfl

theorem pure_eq_ok {a b : α} : (pure a : Except ε α) = .ok b ↔ a = b :=
  ⟨fun h => by cases h; rfl, fun h => by rw [h]; rfl⟩

/-- A computation with a state goes on from the state that its first part leaves. -/
theorem run_bind_eq_ok {σ : Type} {x : EStateM ε σ α} {f : α → EStateM ε σ β} {s s'' : σ} {b : β} :
    (x >>= f) s = .ok b s'' ↔ ∃ a s', x s = .ok a s' ∧ f a s' = .ok b s'' := by
  show EStateM.bind x f s = _ ↔ _
  unfold EStateM.bind
  cases x s <;> simp

theorem run_bind_of_ok {σ : Type} {x : EStateM ε σ α} {f : α → EStateM ε σ β} {s s' : σ} {a : α}
    (h : x s = .ok a s') : (x >>= f) s = f a s' := by
  show EStateM.bind x f s = _
  unfold EStateM.bind
  rw [h]

theorem run_bind_of_error {σ : Type} {x : EStateM ε σ α} {f : α → EStateM ε σ β} {s s' : σ} {e : ε}
    (h : x s = .error e s') : (x >>= f) s = .error e s' := by
  show EStateM.bind x f s = _
  unfold EStateM.bind
  rw [h]

theorem run_get_bind {σ : Type} {f : σ → EStateM ε σ β} {s : σ} : (get >>= f) s = f s s := rfl

/-- The value that a computation yields from a state, and the state that it leaves. -/
theorem run'_map_eq_some {σ γ : Type} {x : EStateM ε σ α} {s : σ} {f : α → γ} {c : γ} :
    (x.run' s).map f = some c ↔ ∃ a s', x s = .ok a s' ∧ f a = c := by
  delta EStateM.run' EStateM.run
  cases x s <;> simp

/-- Whether a computation succeeds from a state. -/
theorem run'_isSome_iff {σ : Type} {x : EStateM ε σ α} {s : σ} :
    (x.run' s).isSome = true ↔ ∃ a s', x s = .ok a s' := by
  delta EStateM.run' EStateM.run
  cases x s <;> simp

/-- What holds of every result holds of the result. -/
theorem forall_ok_iff {x : Except ε α} {a : α} {p : α → Prop} (h : x = .ok a) :
    (∀ b, x = .ok b → p b) ↔ p a := by
  constructor
  · intro all; exact all a h
  · intro ha b hb
    rw [h] at hb
    cases hb
    exact ha

/-- A computation goes past a check just if what the check refuses does not hold. -/
theorem refuse_eq_ok {p : Prop} [Decidable p] {e : ε} {f : α → Except ε β} {x : Except ε β} {b : β} :
    (if p then throw e >>= f else x) = .ok b ↔ ¬ p ∧ x = .ok b := by
  by_cases h : p
  · rw [if_pos h]
    constructor
    · intro he; cases he
    · rintro ⟨hp, -⟩; exact absurd h hp
  · rw [if_neg h]
    exact ⟨fun hx => ⟨h, hx⟩, fun hx => hx.2⟩

/-! ## Whole computations -/

/-- A computation over a list succeeds just if it does so on each member. -/
theorem mapM_eq_ok_iff {f : α → Except ε β} {xs : List α} {ys : List β} :
    xs.mapM f = .ok ys ↔ xs.map f = ys.map .ok := by
  induction xs generalizing ys with
  | nil =>
    rw [List.mapM_nil, pure_eq_ok]
    cases ys <;> simp
  | cons x xs ih =>
    rw [List.mapM_cons]
    simp only [bind_eq_ok, pure_eq_ok, ih, List.map_cons]
    constructor
    · rintro ⟨y, hy, ys, hys, rfl⟩
      rw [hy, hys, List.map_cons]
    · intro h
      cases ys with
      | nil => cases h
      | cons y ys =>
        obtain ⟨hy, hys⟩ := List.cons.inj h
        exact ⟨y, hy, ys, hys, rfl⟩

/-- A computation over a list fails as it does on one of the members. -/
theorem exists_mem_of_mapM_eq_error {f : α → Except ε β} {xs : List α} {e : ε}
    (h : xs.mapM f = .error e) : ∃ x ∈ xs, f x = .error e := by
  induction xs with
  | nil => cases h
  | cons x xs ih =>
    rw [List.mapM_cons] at h
    rcases bind_eq_error.1 h with hx | ⟨y, -, h⟩
    · exact ⟨x, List.mem_cons_self, hx⟩
    · rcases bind_eq_error.1 h with hxs | ⟨ys, -, h⟩
      · obtain ⟨x', hx', hf⟩ := ih hxs
        exact ⟨x', List.mem_cons_of_mem _ hx', hf⟩
      · cases h

/-- A computation over a list fails as it does on the first member that it fails on. -/
theorem mapM_eq_error_of_first {f : α → Except ε β} {before after : List α} {x : α} {e : ε}
    (hb : ∀ a ∈ before, ∃ b, f a = .ok b) (hx : f x = .error e) :
    (before ++ x :: after).mapM f = .error e := by
  induction before with
  | nil =>
    rw [List.nil_append, List.mapM_cons, hx]
    rfl
  | cons a before ih =>
    obtain ⟨b, hab⟩ := hb a List.mem_cons_self
    rw [List.cons_append, List.mapM_cons, hab, ih fun a' ha' => hb a' (List.mem_cons_of_mem _ ha')]
    rfl

/-- What holds of each result holds along the list of results. -/
theorem map_eq_map_of_ok {γ : Type} {f : α → Except ε β} {g : β → γ} {h : α → γ} {xs : List α}
    {ys : List β} (hm : xs.map f = ys.map .ok) (hg : ∀ x ∈ xs, ∀ y, f x = .ok y → g y = h x) :
    ys.map g = xs.map h := by
  induction xs generalizing ys with
  | nil => rw [List.map_eq_nil_iff.1 hm.symm, List.map_nil, List.map_nil]
  | cons x xs ih =>
    obtain ⟨y, rest, rfl, hy, hrest⟩ := List.map_eq_cons_iff.1 hm.symm
    rw [List.map_cons, List.map_cons, hg x List.mem_cons_self y hy.symm,
      ih hrest.symm fun x' hx' => hg x' (List.mem_cons_of_mem _ hx')]

/-- Results are picked out as the members are that they come from. -/
theorem map_filter_of_ok {f : α → Except ε β} {p : α → Bool} {q : β → Bool} {xs : List α} {ys : List β}
    (hm : xs.map f = ys.map .ok) (hq : ∀ x ∈ xs, ∀ y, f x = .ok y → q y = p x) :
    (xs.filter p).map f = (ys.filter q).map .ok := by
  induction xs generalizing ys with
  | nil =>
    rw [List.map_eq_nil_iff.1 hm.symm]
    rfl
  | cons x xs ih =>
    obtain ⟨y, rest, rfl, hy, hrest⟩ := List.map_eq_cons_iff.1 hm.symm
    have tail := ih hrest.symm fun x' hx' => hq x' (List.mem_cons_of_mem _ hx')
    rw [List.filter_cons, List.filter_cons, hq x List.mem_cons_self y hy.symm]
    split_ifs
    · rw [List.map_cons, List.map_cons, hy, tail]
    · exact tail

theorem isOk_iff {x : Except ε Unit} : x.isOk = true ↔ x = .ok () := by
  cases x with
  | ok u => exact ⟨fun _ => rfl, fun _ => rfl⟩
  | error e => constructor <;> (intro h; cases h)

theorem toOption_eq_some {x : Except ε α} {a : α} : x.toOption = some a ↔ x = .ok a := by
  cases x with
  | ok b => exact ⟨fun h => congrArg _ (Option.some.inj h), fun h => congrArg _ (Except.ok.inj h)⟩
  | error e => constructor <;> (intro h; cases h)

theorem liftCodec_eq_ok {r : Except CodecError α} {a : α} :
    liftCodec r = .ok a ↔ r = .ok a := mapError_ok_iff

theorem liftTrust_eq_ok {r : Except TrustError α} {a : α} :
    liftTrust r = .ok a ↔ r = .ok a := mapError_ok_iff

theorem sizeSum_eq (sizes : List Nat) : sizeSum sizes
    = if sizes.sum < sizeBound then .ok sizes.sum else .error (.stopped .sum) := by
  rw [List.sum_eq_foldr]
  rfl

/-- A sum of sizes is made just if it fits into a machine word. -/
theorem sizeSum_eq_ok {sizes : List Nat} {n : Nat} :
    sizeSum sizes = .ok n ↔ sizes.sum < sizeBound ∧ sizes.sum = n := by
  rw [sizeSum_eq]
  split_ifs with fits
  · exact ⟨fun h => ⟨fits, Except.ok.inj h⟩, fun h => congrArg _ h.2⟩
  · exact ⟨nofun, fun h => absurd h.1 fits⟩

theorem sizeSum_eq_stopped {sizes : List Nat} {fault : SizeFault} :
    sizeSum sizes = .error (.stopped fault) ↔ fault = .sum ∧ sizeBound ≤ sizes.sum := by
  rw [sizeSum_eq]
  split_ifs with fits
  · exact ⟨nofun, fun h => absurd fits (not_lt.2 h.2)⟩
  · constructor
    · rintro ⟨⟩
      exact ⟨rfl, not_lt.1 fits⟩
    · rintro ⟨rfl, -⟩
      rfl

theorem ensureCapacity_eq_ok {n : Nat} {u : Unit} : ensureCapacity n = .ok u ↔ n < allocationBound := by
  unfold ensureCapacity
  split_ifs with fits
  · exact ⟨fun _ => fits, fun _ => rfl⟩
  · exact ⟨nofun, fun h => absurd h fits⟩

theorem ensureCapacity_eq_stopped {n : Nat} {fault : SizeFault} :
    ensureCapacity n = .error (.stopped fault) ↔ fault = .capacity ∧ allocationBound ≤ n := by
  unfold ensureCapacity
  split_ifs with fits
  · exact ⟨nofun, fun h => absurd fits (not_lt.2 h.2)⟩
  · constructor
    · rintro ⟨⟩
      exact ⟨rfl, not_lt.1 fits⟩
    · rintro ⟨rfl, -⟩
      rfl

/-! ## Failures -/

/-- Whatever a computation fails with has a property. -/
def FailsOnly (p : ε → Prop) (x : Except ε α) : Prop := ∀ e, x = .error e → p e

namespace FailsOnly
variable {p : ε → Prop} {x : Except ε α}

theorem ok (a : α) : FailsOnly p (.ok a : Except ε α) := fun _ h => by cases h

theorem error {e : ε} (h : p e) : FailsOnly p (.error e : Except ε α) := by
  intro _ he
  cases he
  exact h

theorem bind {f : α → Except ε β} (hx : FailsOnly p x) (hf : ∀ a, x = .ok a → FailsOnly p (f a)) :
    FailsOnly p (x >>= f) := by
  intro e h
  rcases bind_eq_error.1 h with he | ⟨a, ha, he⟩
  · exact hx e he
  · exact hf a ha e he

theorem map {f : α → β} (hx : FailsOnly p x) : FailsOnly p (f <$> x) := by
  rw [← bind_pure_comp]
  exact hx.bind fun a _ => ok (f a)

theorem mono {q : ε → Prop} (hx : FailsOnly p x) (h : ∀ e, p e → q e) : FailsOnly q x :=
  fun e he => h e (hx e he)

/-- Past a check that refuses with a failure of the kind. -/
theorem refuse {q : Prop} [Decidable q] {e : ε} {f : α → Except ε β} {y : Except ε β} (he : p e)
    (hy : FailsOnly p y) : FailsOnly p (if q then throw e >>= f else y) := by
  split
  · exact error he
  · exact hy

theorem mapError {q : ε' → Prop} {f : ε → ε'} (hx : FailsOnly p x) (hf : ∀ e, p e → q (f e)) :
    FailsOnly q (x.mapError f) := by
  intro e h
  obtain ⟨cause, hc, rfl⟩ := mapError_eq_error.1 h
  exact hf cause (hx cause hc)

theorem mapM {f : α → Except ε β} (hf : ∀ a, FailsOnly p (f a)) (xs : List α) :
    FailsOnly p (xs.mapM f) := by
  intro e h
  obtain ⟨a, -, ha⟩ := exists_mem_of_mapM_eq_error h
  exact hf a e ha

theorem liftTrust {q : Error → Prop} (hq : ∀ cause, q (.trust cause)) (y : Except TrustError α) :
    FailsOnly q (liftTrust y) := by
  intro e h
  obtain ⟨cause, -, rfl⟩ := mapError_eq_error.1 h
  exact hq cause

theorem sizeSum {q : Error → Prop} (hq : q (.stopped .sum)) (sizes : List Nat) :
    FailsOnly q (sizeSum sizes) := by
  rw [sizeSum_eq]
  split_ifs
  · exact ok _
  · exact error hq

theorem ensureCapacity {q : Error → Prop} (hq : q (.stopped .capacity)) (n : Nat) :
    FailsOnly q (ensureCapacity n) := by
  unfold VerifiedBoot.ensureCapacity
  split_ifs
  · exact ok _
  · exact error hq

end FailsOnly

/-! ## Reported failures -/

/-- Whether an error is about what the caller gave: no internal fault, and no stop of the program. -/
def Error.isReported : Error → Bool
  | inArea _ cause => cause.isReported
  | internal _ => false
  | stopped _ => false
  | _ => true

/-- A computation that fails only with errors about what the caller gave. -/
def Reports (x : Except Error α) : Prop := FailsOnly (·.isReported = true) x

theorem Reports.policy (cause : PolicyError) : Reports (.error (.policy cause) : Except Error α) :=
  FailsOnly.error rfl

theorem Reports.codec (x : Except CodecError α) : Reports (liftCodec x) := by
  intro e h
  obtain ⟨cause, -, rfl⟩ := mapError_eq_error.1 h
  rfl

theorem Reports.trust (x : Except TrustError α) : Reports (liftTrust x) :=
  FailsOnly.liftTrust (fun _ => rfl) x

end VerifiedBoot

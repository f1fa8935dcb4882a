/-
Slices that may be out of range. A part of a byte string is cut out between two offsets, and where the
string does not reach that far there is neither a value nor an error to go on with. A computation that
is written with such cuts is settled if it ends as one without them does: in a value, or in an error of
its own, and never at a slice that is out of range.

The program itself stops at sizes that the machine has no place for. There a computation goes out of
range when it is run, and everywhere else it is settled.
-/
import VerifiedBoot.Proofs.Codec.Record

namespace VerifiedBoot

variable {ε ε' α β : Type}

/-- How a computation that slices byte strings ends without a value. -/
inductive Stop (ε : Type) where
  | failed (e : ε)
  /-- At a slice whose offsets are not in order or not in the string, or at a size out of bounds. -/
  | outOfRange
deriving DecidableEq, Repr

abbrev Sliced (ε α : Type) := Except (Stop ε) α

/-- The bytes from offset `start` up to offset `stop`, which must be offsets in the string. -/
def Bytes.cut (bs : Bytes) (start stop : Nat) : Sliced ε Bytes :=
  if start ≤ stop ∧ stop ≤ bs.length then .ok (bs.between start stop) else .error .outOfRange

/-! ## Cuts in range -/

namespace Bytes
variable {bs : Bytes} {start stop n : Nat}

theorem cut_eq_ok (order : start ≤ stop) (inside : stop ≤ bs.length) :
    (bs.cut start stop : Sliced ε Bytes) = .ok (bs.between start stop) := if_pos ⟨order, inside⟩

theorem cut_to (h : n ≤ bs.length) : (bs.cut 0 n : Sliced ε Bytes) = .ok (bs.take n) :=
  cut_eq_ok n.zero_le h

theorem cut_from (h : n ≤ bs.length) : (bs.cut n bs.length : Sliced ε Bytes) = .ok (bs.drop n) := by
  rw [cut_eq_ok h le_rfl, between, ← List.length_drop, List.take_length]

end Bytes

/-! ## Settled computations -/

namespace Sliced

/-- A computation without a slice that could be out of range. -/
def settled (x : Except ε α) : Sliced ε α := x.mapError .failed

/-- The value or the error of a computation, to go on with. -/
def outcome : Sliced ε α → Sliced ε' (Except ε α)
  | .ok a => .ok (.ok a)
  | .error (.failed e) => .ok (.error e)
  | .error .outOfRange => .error .outOfRange

/-- A computation with its errors in other words. -/
def withError (f : ε → ε') (x : Sliced ε α) : Sliced ε' α := do settled ((← x.outcome).mapError f)

theorem settled_ne_outOfRange {x : Except ε α} : settled x ≠ .error .outOfRange := by
  cases x with
  | ok a => nofun
  | error e => nofun

@[simp] theorem outcome_settled (x : Except ε α) :
    ((settled x).outcome : Sliced ε' (Except ε α)) = .ok x := by
  cases x <;> rfl

@[simp] theorem withError_settled (f : ε → ε') (x : Except ε α) :
    (settled x).withError f = settled (x.mapError f) := by
  cases x <;> rfl

/-- What comes after a settled computation needs to be settled only for the value that it yields. -/
theorem settled_bind {x : Except ε α} {f : α → Except ε β} {g : α → Sliced ε β}
    (h : ∀ a, x = .ok a → g a = settled (f a)) : (settled x >>= g) = settled (x >>= f) := by
  cases x with
  | ok a => exact h a rfl
  | error e => rfl

/-! ## Where the program stops -/

/-- A computation of the program as it is run: where the program stops, it is out of range. -/
def asRun (x : Except Error α) : Sliced Error α :=
  match x with
  | .ok a => .ok a
  | .error (.stopped _) => .error .outOfRange
  | .error e => .error (.failed e)

theorem asRun_eq_outOfRange {x : Except Error α} :
    asRun x = .error .outOfRange ↔ ∃ fault, x = .error (.stopped fault) := by
  cases x with
  | ok a => simp [asRun]
  | error e => cases e <;> simp [asRun]

theorem settled_eq_asRun {x : Except Error α} (h : ∀ fault, x ≠ .error (.stopped fault)) :
    settled x = asRun x := by
  cases x with
  | ok a => rfl
  | error e =>
    cases e with
    | stopped fault => exact absurd rfl (h fault)
    | _ => rfl

theorem asRun_bind {x : Except Error α} {f : α → Except Error β} {g : α → Sliced Error β}
    (h : ∀ a, x = .ok a → g a = asRun (f a)) : (asRun x >>= g) = asRun (x >>= f) := by
  cases x with
  | ok a => exact h a rfl
  | error e => cases e <;> rfl

end Sliced

/-- What is only reported does not stop the program. -/
theorem Reports.ne_stopped {x : Except Error α} (h : Reports x) (fault : SizeFault) :
    x ≠ .error (.stopped fault) := fun stopped => by cases h _ stopped

/-- Where the rest of a computation only reports, it stops the program just if its first part does. -/
theorem Reports.bind_stopped_iff {x : Except Error α} {f : α → Except Error β} {fault : SizeFault}
    (h : ∀ a, x = .ok a → Reports (f a)) :
    (x >>= f) = .error (.stopped fault) ↔ x = .error (.stopped fault) := by
  rw [bind_eq_error, or_iff_left]
  rintro ⟨a, ha, stopped⟩
  exact (h a ha).ne_stopped fault stopped

theorem Reports.settled_eq_asRun {x : Except Error α} (h : Reports x) :
    Sliced.settled x = Sliced.asRun x := Sliced.settled_eq_asRun h.ne_stopped

/-! ## Settled reads -/

/-- A read that slices byte strings other than the one that is read. -/
abbrev SlicedRead (α : Type) := EStateM (Stop CodecError) Reader α

namespace SlicedRead

/-- A read that slices nothing. -/
def settled (read : Read α) : SlicedRead α := fun r =>
  match read r with
  | .ok a r' => .ok a r'
  | .error e r' => .error (.failed e) r'

def cut (bs : Bytes) (start stop : Nat) : SlicedRead Bytes := fun r =>
  match bs.cut start stop with
  | .ok part => .ok part r
  | .error e => .error e r

def parseFrom (read : SlicedRead α) (bs : Bytes) (position : Nat) : Sliced CodecError α :=
  match read (Reader.ofBytes bs position) with
  | .ok a _ => .ok a
  | .error e _ => .error e

variable {read : Read α} {r : Reader}

theorem settled_of_ok {a : α} {r' : Reader} (h : read r = .ok a r') : settled read r = .ok a r' := by
  unfold settled
  rw [h]

theorem settled_of_error {e : CodecError} {r' : Reader} (h : read r = .error e r') :
    settled read r = .error (.failed e) r' := by
  unfold settled
  rw [h]

theorem settled_bind {next : α → Read β} {next' : α → SlicedRead β}
    (h : ∀ a r', read r = .ok a r' → next' a r' = settled (next a) r') :
    (settled read >>= next') r = settled (read >>= next) r := by
  cases hread : read r with
  | ok a r' =>
    have whole : (read >>= next) r = next a r' := run_bind_of_ok hread
    rw [run_bind_of_ok (settled_of_ok hread), h a r' hread]
    unfold settled
    rw [whole]
  | error e r' =>
    rw [run_bind_of_error (settled_of_error hread), settled_of_error (run_bind_of_error hread)]

theorem cut_bind {bs : Bytes} {n : Nat} (hn : n ≤ bs.length) (next : Bytes → SlicedRead β) :
    (cut bs 0 n >>= next) r = next (bs.take n) r := by
  show EStateM.bind (cut bs 0 n) next r = _
  unfold EStateM.bind cut
  rw [Bytes.cut_to hn]

theorem parseFrom_settled (bs : Bytes) (position : Nat) :
    (settled read).parseFrom bs position = Sliced.settled (read.parseFrom bs position) := by
  unfold parseFrom settled Read.parseFrom Read.start
  cases read (Reader.ofBytes bs position) <;> rfl

end SlicedRead

/-- A reader inside its string stays there, and in the same string. -/
theorem Read.Exact.inside {read : Read α} {written : Nat → α → Bytes → Prop}
    (h : read.Exact written) {r r' : Reader} {a : α} (hr : read r = .ok a r')
    (inside : r.position ≤ r.size) : r.position ≤ r'.position ∧ r'.position ≤ r'.size ∧
      r'.size = r.size := by
  obtain ⟨bs, -, ahead, rfl⟩ := (h r a r').1 hr
  have fits := ahead.length_le
  rw [r.ahead_length] at fits
  refine ⟨Nat.le_add_right _ _, ?_, rfl⟩
  show r.position + bs.length ≤ r.size
  omega

end VerifiedBoot

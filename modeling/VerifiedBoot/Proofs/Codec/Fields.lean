/-
Fields one after another. Each kind of field is read just where its bytes stand, so a run of reads
gives back the fields that were written, in their order, and stops right behind them. Where the bytes
end too soon, the run goes as far as there are whole fields and stops at the first one that is not: words
and blocks are then truncated, and counted bytes are out of bounds before the reader moves.
-/
import VerifiedBoot.Proofs.Codec.Record

namespace VerifiedBoot

/-! ## Short reads -/

namespace Read

variable {r : Reader} {n : Nat}

theorem fixed_of_short (h : r.remaining < n) : fixed n r = .error .truncated r.atEnd :=
  if_neg (not_le.2 h)

theorem counted_of_short (h : r.remaining < n) :
    counted n r = .error (.outOfBounds n r.remaining) r :=
  if_neg (not_le.2 h)

/-- What is made of a fixed number of bytes is truncated where they are not all there. -/
theorem map_fixed_of_short {α : Type} {f : Bytes → α} (h : r.remaining < n) :
    (do return f (← fixed n) : Read α) r = .error .truncated r.atEnd :=
  run_bind_of_error (fixed_of_short h)

end Read

theorem lengthField_eq_ok {n : Nat} {bs : Bytes} :
    lengthField n = .ok bs ↔ ∃ w : UInt32, w.toNat = n ∧ bs = Bytes.le32 w := by
  simp only [lengthField, bind_eq_ok, pure_eq_ok, toLength_eq_ok]
  exact exists_congr fun w => and_congr_right fun _ => eq_comm

/-! ## Fields -/

/-- A field of a record, with its value. -/
inductive Field where
  | word8 (v : UInt8)
  | word16 (v : UInt16)
  | word32 (v : UInt32)
  | word64 (v : UInt64)
  /-- A length, in a word of 32 bits. -/
  | length (n : Nat)
  | block {n : Nat} (b : ByteBlock n)
  /-- Bytes whose number is known to the reader. -/
  | bytes (bs : Bytes)

/-- What is known of a field before it is read. -/
inductive FieldKind where
  | word8
  | word16
  | word32
  | word64
  | length
  | block (n : Nat)
  | bytes (n : Nat)
deriving DecidableEq, Repr

namespace FieldKind

/-- The number of bytes of a field. -/
def width : FieldKind → Nat
  | word8 => 1
  | word16 => 2
  | word32 => 4
  | word64 => 8
  | length => 4
  | block n => n
  | bytes n => n

def read : FieldKind → Read Field
  | word8 => .word8 <$> Read.word8
  | word16 => .word16 <$> Read.word16
  | word32 => .word32 <$> Read.word32
  | word64 => .word64 <$> Read.word64
  | length => (fun w => .length w.toNat) <$> Read.word32
  | block n => .block <$> Read.block n
  | bytes n => .bytes <$> Read.counted n

/-- How the read of a field fails where only `left` bytes are left. -/
def shortage (left : Nat) : FieldKind → CodecError
  | bytes n => .outOfBounds n left
  | _ => .truncated

/-- Where a reader is after it found too few bytes for a field. -/
def stop (r : Reader) : FieldKind → Reader
  | bytes _ => r
  | _ => r.atEnd

end FieldKind

namespace Field

def kind : Field → FieldKind
  | word8 _ => .word8
  | word16 _ => .word16
  | word32 _ => .word32
  | word64 _ => .word64
  | length _ => .length
  | @block n _ => .block n
  | bytes bs => .bytes bs.length

def write : Field → Except CodecError Bytes
  | word8 v => .ok [v]
  | word16 v => .ok (Bytes.le16 v)
  | word32 v => .ok (Bytes.le32 v)
  | word64 v => .ok (Bytes.le64 v)
  | length n => lengthField n
  | block b => .ok b.bytes
  | bytes bs => .ok bs

variable {f : Field} {bs : Bytes}

theorem length_write (h : f.write = .ok bs) : bs.length = f.kind.width := by
  cases f with
  | length n =>
    obtain ⟨w, -, rfl⟩ := lengthField_eq_ok.1 h
    exact Bytes.length_le32 w
  | block b =>
    cases h
    exact b.length_eq
  | word8 v => cases h; rfl
  | word16 v => cases h; exact Bytes.length_le16 v
  | word32 v => cases h; exact Bytes.length_le32 v
  | word64 v => cases h; exact Bytes.length_le64 v
  | bytes bs => cases h; rfl

/-- Only a length can be too large to be written. -/
theorem write_ok (h : ∀ n, f = .length n → n < word32Bound) : ∃ bs, f.write = .ok bs := by
  cases f with
  | length n =>
    exact ⟨_, lengthField_eq_ok.2 ⟨UInt32.ofNat n, UInt32.toNat_ofNat_of_lt (h n rfl), rfl⟩⟩
  | _ => exact ⟨_, rfl⟩

end Field

namespace Read

variable {α : Type} {read : Read α} {written : Nat → α → Bytes → Prop}

/-- A read whose value is taken as a field is exact with the bytes of that field. -/
theorem Exact.map {toField : α → Field} (h : Exact read written) {kind : FieldKind}
    (hw : ∀ pos f bs, (∃ v, written pos v bs ∧ toField v = f) ↔ f.kind = kind ∧ f.write = .ok bs) :
    Exact (toField <$> read) fun _ f bs => f.kind = kind ∧ f.write = .ok bs := by
  refine (h.bind fun v => exact_pure (toField v)).congr ?_
  intro pos f bs
  rw [← hw pos f bs]
  constructor
  · rintro ⟨v, x, _, hx, ⟨rfl, rfl⟩, rfl⟩
    exact ⟨v, (List.append_nil x).symm ▸ hx, rfl⟩
  · rintro ⟨v, hv, rfl⟩
    exact ⟨v, bs, [], hv, ⟨rfl, rfl⟩, (List.append_nil bs).symm⟩

end Read

namespace FieldKind

/-- A field of a kind is read just where one is written. -/
theorem exact_read (kind : FieldKind) :
    kind.read.Exact fun _ f bs => f.kind = kind ∧ f.write = .ok bs := by
  cases kind with
  | word8 =>
    refine Read.exact_word8.map fun _ f bs => ?_
    cases f <;> simp [Field.kind, Field.write, eq_comm]
  | word16 =>
    refine Read.exact_word16.map fun _ f bs => ?_
    cases f <;> simp [Field.kind, Field.write, eq_comm]
  | word32 =>
    refine Read.exact_word32.map fun _ f bs => ?_
    cases f <;> simp [Field.kind, Field.write, eq_comm]
  | word64 =>
    refine Read.exact_word64.map fun _ f bs => ?_
    cases f <;> simp [Field.kind, Field.write, eq_comm]
  | length =>
    refine Read.exact_word32.map fun _ f bs => ?_
    cases f <;> simp [Field.kind, Field.write, lengthField_eq_ok, and_comm]
  | block n =>
    refine (Read.exact_block n).map fun _ f bs => ?_
    cases f with
    | @block m b =>
      simp only [Field.kind, Field.write, FieldKind.block.injEq, Except.ok.injEq]
      constructor
      · rintro ⟨v, rfl, same⟩
        cases same
        exact ⟨rfl, rfl⟩
      · rintro ⟨rfl, rfl⟩
        exact ⟨b, rfl, rfl⟩
    | _ => simp [Field.kind]
  | bytes n =>
    refine (Read.exact_counted n).map fun _ f bs => ?_
    cases f with
    | bytes x =>
      simp only [Field.kind, Field.write, FieldKind.bytes.injEq, Except.ok.injEq, Field.bytes.injEq]
      constructor
      · rintro ⟨v, ⟨rfl, hn⟩, rfl⟩
        exact ⟨hn, rfl⟩
      · rintro ⟨hn, rfl⟩
        exact ⟨x, ⟨rfl, hn⟩, rfl⟩
    | _ => simp [Field.kind]

/-- With too few bytes left, a field is not read. -/
theorem read_of_short {kind : FieldKind} {r : Reader} (h : r.remaining < kind.width) :
    kind.read r = .error (kind.shortage r.remaining) (kind.stop r) := by
  cases kind with
  | bytes n => exact run_bind_of_error (Read.counted_of_short h)
  | _ => exact run_bind_of_error (Read.map_fixed_of_short h)

end FieldKind

/-! ## Fields in a row -/

/-- The bytes of fields one after another. -/
def writeFields : List Field → Except CodecError Bytes
  | [] => .ok []
  | f :: fs => do return (← f.write) ++ (← writeFields fs)

/-- What reads one after another yield: the fields up to the first that fails, how that one failed,
and the reader in the end. -/
structure FieldsRead where
  fields : List Field
  failure : Option CodecError
  reader : Reader

def readFields : List FieldKind → Reader → FieldsRead
  | [], r => ⟨[], none, r⟩
  | kind :: kinds, r =>
    match kind.read r with
    | .ok f r' => { readFields kinds r' with fields := f :: (readFields kinds r').fields }
    | .error e r' => ⟨[], some e, r'⟩

variable {fs : List Field} {bs : Bytes}

theorem writeFields_cons_eq_ok {f : Field} : writeFields (f :: fs) = .ok bs ↔
    ∃ x y, f.write = .ok x ∧ writeFields fs = .ok y ∧ bs = x ++ y := by
  simp only [writeFields, bind_eq_ok, pure_eq_ok]
  constructor
  · rintro ⟨x, hx, y, hy, rfl⟩
    exact ⟨x, y, hx, hy, rfl⟩
  · rintro ⟨x, y, hx, hy, rfl⟩
    exact ⟨x, hx, y, hy, rfl⟩

theorem writeFields_ok (h : ∀ n, .length n ∈ fs → n < word32Bound) : ∃ bs, writeFields fs = .ok bs := by
  induction fs with
  | nil => exact ⟨[], rfl⟩
  | cons f fs ih =>
    obtain ⟨x, hx⟩ := Field.write_ok (f := f) fun n hf => h n (hf ▸ List.mem_cons_self)
    obtain ⟨y, hy⟩ := ih fun n hn => h n (List.mem_cons_of_mem f hn)
    exact ⟨x ++ y, writeFields_cons_eq_ok.2 ⟨x, y, hx, hy, rfl⟩⟩

/-- Where the bytes of fields stand, these are read, and what comes after them is read behind them. -/
theorem readFields_append (hw : writeFields fs = .ok bs) {r : Reader} (ahead : bs <+: r.ahead)
    (kinds : List FieldKind) :
    readFields (fs.map Field.kind ++ kinds) r = { readFields kinds (r.skip bs.length) with
      fields := fs ++ (readFields kinds (r.skip bs.length)).fields } := by
  induction fs generalizing bs r with
  | nil =>
    cases hw
    rw [List.length_nil, Reader.skip_zero]
    rfl
  | cons f fs ih =>
    obtain ⟨x, y, hx, hy, rfl⟩ := writeFields_cons_eq_ok.1 hw
    obtain ⟨px, py⟩ := append_prefix_iff.1 ahead
    have first : f.kind.read r = .ok f (r.skip x.length) :=
      (f.kind.exact_read _ _ _).2 ⟨x, ⟨rfl, hx⟩, px, rfl⟩
    simp only [List.map_cons, List.cons_append, readFields, first]
    rw [ih hy (r := r.skip x.length) py, Reader.skip_skip, List.length_append]

/-- Before the end of the bytes of fields there are whole fields, and a field that is cut. -/
theorem exists_cut_field (hw : writeFields fs = .ok bs) {n : Nat} (hn : n < bs.length) :
    ∃ whole f rest written, fs = whole ++ f :: rest ∧ writeFields whole = .ok written ∧
      written <+: bs ∧ written.length ≤ n ∧ n < written.length + f.kind.width := by
  induction fs generalizing bs n with
  | nil =>
    cases hw
    exact absurd hn (Nat.not_lt_zero n)
  | cons f fs ih =>
    obtain ⟨x, y, hx, hy, rfl⟩ := writeFields_cons_eq_ok.1 hw
    by_cases cut : n < x.length
    · refine ⟨[], f, fs, [], rfl, rfl, List.nil_prefix, n.zero_le, ?_⟩
      rw [← Field.length_write hx]
      exact (Nat.zero_add x.length).symm ▸ cut
    · rw [List.length_append] at hn
      obtain ⟨whole, g, rest, written, rfl, hwritten, start, low, high⟩ :=
        ih hy (n := n - x.length) (by omega)
      refine ⟨f :: whole, g, rest, x ++ written, rfl,
        writeFields_cons_eq_ok.2 ⟨x, written, hx, hwritten, rfl⟩,
        (List.prefix_append_right_inj x).2 start, ?_, ?_⟩
      · rw [List.length_append]
        omega
      · rw [List.length_append]
        omega

theorem Reader.ofBytes_skip (bs : Bytes) (pos n : Nat) :
    (Reader.ofBytes bs pos).skip n = Reader.ofBytes bs (pos + n) := by
  simp [Reader.ofBytes, Reader.skip, List.drop_drop]

/-- Fields are read back just as they were written, in whatever they stand, and the reader is then
right behind them. Of bytes that are cut off before the end, the fields that are whole are read as they
were written, and the first that is not fails: it is truncated, or out of bounds if it is bytes of a
known number. -/
theorem fields_read_back (fields : List Field) (fits : ∀ n, .length n ∈ fields → n < 2 ^ 32) :
    ∃ bs, writeFields fields = .ok bs ∧
      (∀ before tail, readFields (fields.map Field.kind)
          (Reader.ofBytes (before ++ bs ++ tail) before.length)
        = ⟨fields, none, Reader.ofBytes (before ++ bs ++ tail) (before.length + bs.length)⟩) ∧
      ∀ before n, n < bs.length →
        ∃ whole cut rest written, fields = whole ++ cut :: rest ∧ writeFields whole = .ok written ∧
          written.length ≤ n ∧ n < written.length + cut.kind.width ∧
          readFields (fields.map Field.kind) (Reader.ofBytes (before ++ bs.take n) before.length)
            = ⟨whole, some (cut.kind.shortage (n - written.length)),
                cut.kind.stop (Reader.ofBytes (before ++ bs.take n) (before.length + written.length))⟩ := by
  obtain ⟨bs, hbs⟩ := writeFields_ok fits
  refine ⟨bs, hbs, fun before tail => ?_, fun before n hn => ?_⟩
  · have ahead : bs <+: (Reader.ofBytes (before ++ bs ++ tail) before.length).ahead := by
      simp [Reader.ofBytes]
    have run := readFields_append hbs ahead []
    rw [List.append_nil, Reader.ofBytes_skip] at run
    rw [run]
    simp [readFields]
  · obtain ⟨whole, cut, rest, written, rfl, hwritten, start, low, high⟩ := exists_cut_field hbs hn
    refine ⟨whole, cut, rest, written, rfl, hwritten, low, high, ?_⟩
    have ahead : written <+: (Reader.ofBytes (before ++ bs.take n) before.length).ahead := by
      simpa [Reader.ofBytes, List.prefix_take_iff] using ⟨start, low⟩
    have left : (Reader.ofBytes (before ++ bs.take n) (before.length + written.length)).remaining
        = n - written.length := by
      simp only [Reader.remaining, Reader.ofBytes, List.length_append, List.length_take]
      omega
    have few : (Reader.ofBytes (before ++ bs.take n) (before.length + written.length)).remaining
        < cut.kind.width := by
      rw [left]
      omega
    have short := FieldKind.read_of_short few
    rw [List.map_append, readFields_append hwritten ahead, Reader.ofBytes_skip, List.map_cons]
    simp only [readFields, short, left, List.append_nil]

/-- A word, a length, a block and bytes: eleven bytes in all, of which the last one is missing in the
second run and the last six in the third. -/
def sampleFields : List Field := [.word16 0x1234, .length 3, .block (ByteBlock.zeros 2), .bytes [7, 8, 9]]

theorem sample_fields_read_back : (∀ n, .length n ∈ sampleFields → n < 2 ^ 32) ∧
    ∃ bs, writeFields sampleFields = .ok bs ∧
      readFields (sampleFields.map Field.kind) (Reader.ofBytes ([5] ++ bs ++ [6]) 1)
        = ⟨sampleFields, none, Reader.ofBytes ([5] ++ bs ++ [6]) 12⟩ ∧
      readFields (sampleFields.map Field.kind) (Reader.ofBytes (bs.take 10) 0)
        = ⟨sampleFields.take 3, some (.outOfBounds 3 2), Reader.ofBytes (bs.take 10) 8⟩ ∧
      readFields (sampleFields.map Field.kind) (Reader.ofBytes (bs.take 5) 0)
        = ⟨sampleFields.take 1, some .truncated, Reader.ofBytes (bs.take 5) 5⟩ := by
  have fits : ∀ n, .length n ∈ sampleFields → n < 2 ^ 32 := by
    simp [sampleFields]
  obtain ⟨bs, written, read, -⟩ := fields_read_back sampleFields fits
  cases written
  exact ⟨fits, _, rfl, read [5] [6], rfl, rfl⟩

end VerifiedBoot

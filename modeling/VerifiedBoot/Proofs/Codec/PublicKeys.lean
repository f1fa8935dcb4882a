/-
Public keys in their three forms. Each reader accepts just what is written in its form, up to the
version for the two forms that carry none. The forms share no bytes: packed keys and DER have one size
and different first bytes, and PEM text is longer, since its marks alone are. So the order in which a
file is tried decides nothing, and a key is read back from any form.
-/
import VerifiedBoot.Key.Public
import VerifiedBoot.Proofs.Codec.Pem
import VerifiedBoot.Proofs.Codec.Record
import VerifiedBoot.Proofs.Codec.Text

namespace VerifiedBoot

/-- What is read at the second try was refused at the first. -/
theorem orElseLazy_eq_ok {ε α : Type} {x : Except ε α} {f : Unit → Except ε α} {a : α} :
    x.orElseLazy f = .ok a ↔ x = .ok a ∨ (∃ e, x = .error e) ∧ f () = .ok a := by
  cases x <;> simp [Except.orElseLazy]

namespace PublicKey

variable {bs : Bytes} {k : PublicKey} {version : UInt32}

/-! ## Packed form -/

theorem ofMaterial_eq_ok {material : Bytes} {e : SchemeError} :
    ofMaterial material version e = .ok k ↔ material = k.material.bytes ∧ k.version = version := by
  obtain ⟨⟨bytes, length⟩, v⟩ := k
  unfold ofMaterial
  constructor
  · intro h
    split_ifs at h with size
    cases h
    exact ⟨rfl, rfl⟩
  · rintro ⟨rfl, rfl⟩
    exact dif_pos length

theorem ofPacked_eq_ok {packed : PackedKey} : ofPacked packed = .ok k ↔ packed = k.toPacked := by
  obtain ⟨algorithm, v, material⟩ := packed
  unfold ofPacked toPacked
  split_ifs with ed25519
  · simp only at ed25519
    rw [ofMaterial_eq_ok, PackedKey.mk.injEq, eq_comm (a := k.version)]
    exact ⟨fun ⟨hm, hv⟩ => ⟨ed25519, hv, hm⟩, fun ⟨_, hv, hm⟩ => ⟨hm, hv⟩⟩
  · simp only [PackedKey.mk.injEq, false_iff]
    exact fun h => ed25519 h.1

theorem encode_toPacked (k : PublicKey) : k.toPacked.encode = .ok k.toBytes := by
  refine PackedKey.encode_toBytes ?_
  show k.material.bytes.length < word32Bound
  rw [k.material.length_eq]
  decide

theorem length_toBytes (k : PublicKey) : k.toBytes.length = 44 := by
  rw [PackedKey.length_encode k.encode_toPacked]
  show 12 + k.material.bytes.length = 44
  rw [k.material.length_eq]

theorem head?_toBytes (k : PublicKey) : k.toBytes.head? = some 1 := by
  obtain ⟨field, -, written⟩ := PackedKey.encode_eq_ok.1 k.encode_toPacked
  rw [← written]
  rfl

/-- The packed form is read just where it stands alone. -/
theorem ofBytes_eq_ok : ofBytes bs = .ok k ↔ bs = k.toBytes := by
  simp only [ofBytes, bind_eq_ok, refuse_eq_ok, liftCodec_eq_ok, not_not, ofPacked_eq_ok]
  constructor
  · rintro ⟨_, parsed, size, rfl⟩
    obtain ⟨x, encoded, start⟩ := PackedKey.exact_read.parse_ok.1 parsed
    rw [k.encode_toPacked] at encoded
    cases encoded
    exact (start.eq_of_length ((PackedKey.length_encode k.encode_toPacked).trans size)).symm
  · rintro rfl
    refine ⟨k.toPacked, ?_, (PackedKey.length_encode k.encode_toPacked).symm, rfl⟩
    exact PackedKey.exact_read.parse_ok.2 ⟨k.toBytes, k.encode_toPacked, List.prefix_rfl⟩

/-! ## DER and PEM -/

/-- DER is the header with the material after it. -/
theorem ofDer_eq_ok : ofDer bs version = .ok k ↔ bs = k.toDer ∧ k.version = version := by
  unfold ofDer toDer
  constructor
  · intro h
    split_ifs at h with header
    obtain ⟨material, hversion⟩ := ofMaterial_eq_ok.1 h
    rw [← material, ← header, List.length_take_of_le, List.take_append_drop]
    · exact ⟨rfl, hversion⟩
    · rw [← header]
      exact List.length_take_le' _ _
  · rintro ⟨rfl, hversion⟩
    rw [List.take_left, if_pos rfl, List.drop_left]
    exact ofMaterial_eq_ok.2 ⟨rfl, hversion⟩

theorem length_toDer (k : PublicKey) : k.toDer.length = 44 := by
  unfold toDer
  rw [List.length_append, k.material.length_eq]
  rfl

theorem ofPem_eq_ok {text : List Char} : ofPem text version = .ok k ↔
    Pem.decode pemLabel text = some k.toDer ∧ k.version = version := by
  unfold ofPem
  cases Pem.decode pemLabel text with
  | none => simp
  | some der =>
    rw [ofDer_eq_ok, Option.some.injEq]

theorem decode_toPem (k : PublicKey) : Pem.decode pemLabel k.toPem = some k.toDer :=
  Pem.decode_encode (by decide +kernel) k.toDer

end PublicKey

/-! ## Forms -/

/-- The forms of a public key. -/
inductive KeyForm where
  | packed
  | der
  | pem
deriving DecidableEq, Repr

namespace KeyForm

/-- Reads bytes in one form. A form without a version takes the one given. -/
def read (bs : Bytes) (version : UInt32) : KeyForm → Except Error PublicKey
  | packed => PublicKey.ofBytes bs
  | der => PublicKey.ofDer bs version
  | pem =>
    match Utf8.decodeChars? bs with
    | some text => PublicKey.ofPem text version
    | none => .error .unreadable

def write (k : PublicKey) : KeyForm → Bytes
  | packed => k.toBytes
  | der => k.toDer
  | pem => Bytes.ofText (String.ofList k.toPem)

/-- The version that is read from a key with a version, where one is given. -/
def versionRead (k : PublicKey) (given : UInt32) : KeyForm → UInt32
  | packed => k.version
  | _ => given

variable {bs : Bytes} {k k' : PublicKey} {version version' : UInt32} {form form' : KeyForm}

theorem read_pem_eq_ok : read bs version pem = .ok k ↔ ∃ text, Utf8.decodeChars? bs = some text ∧
    Pem.decode PublicKey.pemLabel text = some k.toDer ∧ k.version = version := by
  show (match Utf8.decodeChars? bs with
    | some text => PublicKey.ofPem text version
    | none => .error .unreadable) = _ ↔ _
  cases Utf8.decodeChars? bs with
  | none => simp
  | some text => simp [PublicKey.ofPem_eq_ok]

/-- A key is read back from each form. -/
theorem read_write (k : PublicKey) (version : UInt32) (form : KeyForm) :
    read (write k form) version form = .ok { k with version := versionRead k version form } := by
  cases form with
  | packed => exact PublicKey.ofBytes_eq_ok.2 rfl
  | der => exact PublicKey.ofDer_eq_ok.2 ⟨rfl, rfl⟩
  | pem =>
    refine read_pem_eq_ok.2 ⟨k.toPem, ?_, k.decode_toPem, rfl⟩
    rw [write, Utf8.decodeChars?_ofText, String.toList_ofList]

/-- The size and the first byte of what can be read tell its form. -/
def Shows (bs : Bytes) : KeyForm → Prop
  | packed => bs.length = 44 ∧ bs.head? = some 1
  | der => bs.length = 44 ∧ bs.head? = some 0x30
  | pem => 44 < bs.length

theorem shows_of_read (h : read bs version form = .ok k) : Shows bs form := by
  cases form with
  | packed =>
    obtain rfl := PublicKey.ofBytes_eq_ok.1 h
    exact ⟨k.length_toBytes, k.head?_toBytes⟩
  | der =>
    obtain ⟨rfl, -⟩ := PublicKey.ofDer_eq_ok.1 h
    exact ⟨k.length_toDer, rfl⟩
  | pem =>
    obtain ⟨text, decoded, read, -⟩ := read_pem_eq_ok.1 h
    have marks : 44 < (Pem.beginMark PublicKey.pemLabel).length
        + (Pem.endMark PublicKey.pemLabel).length := by decide
    exact marks.trans_le ((Pem.length_of_decode read).trans (Utf8.length_decodeChars?_le decoded))

theorem Shows.unique (h : Shows bs form) (h' : Shows bs form') : form = form' := by
  cases form <;> cases form' <;> simp_all [Shows]

/-- Whether bytes can be read does not depend on the version that is given for them. -/
theorem read_of_read (version' : UInt32) (h : read bs version form = .ok k) :
    ∃ k', read bs version' form = .ok k' := by
  cases form with
  | packed => exact ⟨k, h⟩
  | der =>
    obtain ⟨rfl, -⟩ := PublicKey.ofDer_eq_ok.1 h
    exact ⟨{ k with version := version' }, PublicKey.ofDer_eq_ok.2 ⟨rfl, rfl⟩⟩
  | pem =>
    obtain ⟨text, decoded, read, -⟩ := read_pem_eq_ok.1 h
    exact ⟨{ k with version := version' }, read_pem_eq_ok.2 ⟨text, decoded, read, rfl⟩⟩

end KeyForm

/-! ## Any form -/

namespace PublicKey

variable {bs : Bytes} {k : PublicKey}

/-- A key is read in whichever form it is in: the order in which they are tried does not matter. -/
theorem ofAny_eq_ok : ofAny bs = .ok k ↔ ∃ form : KeyForm, form.read bs 1 = .ok k := by
  have text : ((match Utf8.decodeChars? bs with
      | some text => (ofPem text 1).mapError fun _ => .unreadable
      | none => .error .unreadable) : Except Error PublicKey) = .ok k ↔
        KeyForm.pem.read bs 1 = .ok k := by
    unfold KeyForm.read
    cases Utf8.decodeChars? bs with
    | none => rfl
    | some text => exact mapError_ok_iff
  simp only [ofAny, orElseLazy_eq_ok]
  constructor
  · rintro (h | ⟨-, h | ⟨-, h⟩⟩)
    · exact ⟨.packed, h⟩
    · exact ⟨.der, h⟩
    · exact ⟨.pem, text.1 h⟩
  · rintro ⟨form, h⟩
    have refused (other : KeyForm) (ne : other ≠ form) : ∃ e, other.read bs 1 = .error e := by
      cases read : other.read bs 1 with
      | ok k' => exact absurd ((KeyForm.shows_of_read read).unique (KeyForm.shows_of_read h)) ne
      | error e => exact ⟨e, rfl⟩
    cases form with
    | packed => exact .inl h
    | der => exact .inr ⟨refused .packed (by decide), .inl h⟩
    | pem =>
      exact .inr ⟨refused .packed (by decide),
        .inr ⟨refused .der (by decide), text.2 h⟩⟩

/-- Bytes can be read in one form at most, and as a packed key just if they are its bytes. A key is read
back from every form, and gets version 1 from those that carry none; what is read in no form is refused. -/
theorem key_forms_unambiguous :
    (∀ (bs : Bytes) (form form' : KeyForm) (version version' : UInt32) (k k' : PublicKey),
      form.read bs version = .ok k → form'.read bs version' = .ok k' → form = form') ∧
    (∀ bs k, ofBytes bs = .ok k ↔ bs = k.toBytes) ∧
    (∀ k, ofAny k.toBytes = .ok k ∧ ofAny k.toDer = .ok { k with version := 1 } ∧
      ofAny (Bytes.ofText (String.ofList k.toPem)) = .ok { k with version := 1 }) ∧
    ∀ bs, (∃ e, ofAny bs = .error e) ↔
      ∀ (form : KeyForm) (version : UInt32), ∃ e, form.read bs version = .error e := by
  refine ⟨?_, fun bs k => ofBytes_eq_ok, ?_, ?_⟩
  · intro bs form form' version version' k k' h h'
    exact (KeyForm.shows_of_read h).unique (KeyForm.shows_of_read h')
  · intro k
    exact ⟨ofAny_eq_ok.2 ⟨.packed, KeyForm.read_write k 1 .packed⟩,
      ofAny_eq_ok.2 ⟨.der, KeyForm.read_write k 1 .der⟩,
      ofAny_eq_ok.2 ⟨.pem, KeyForm.read_write k 1 .pem⟩⟩
  · intro bs
    constructor
    · rintro ⟨e, refused⟩ form version
      cases read : form.read bs version with
      | error e' => exact ⟨e', rfl⟩
      | ok k =>
        obtain ⟨k', read'⟩ := KeyForm.read_of_read 1 read
        rw [ofAny_eq_ok.2 ⟨form, read'⟩] at refused
        cases refused
    · intro refused
      cases read : ofAny bs with
      | error e => exact ⟨e, rfl⟩
      | ok k =>
        obtain ⟨form, read'⟩ := ofAny_eq_ok.1 read
        obtain ⟨e, refused'⟩ := refused form 1
        rw [read'] at refused'
        cases refused'

def sample : PublicKey := ⟨ByteBlock.zeros 32, 7⟩

/-- DER of a key is a key of any version, and never a packed key. -/
theorem sample_der_is_not_packed :
    KeyForm.der.read sample.toDer 9 = .ok { sample with version := 9 } ∧
    ∀ k, KeyForm.packed.read sample.toDer 9 ≠ .ok k := by
  have read : KeyForm.der.read sample.toDer 9 = .ok { sample with version := 9 } := by
    decide +kernel
  refine ⟨read, fun k packed => ?_⟩
  have same := key_forms_unambiguous.1 _ _ _ _ _ _ _ read packed
  exact absurd same (by decide)

end PublicKey
end VerifiedBoot

import Signatory.Lib.Der
import Signatory.Signer.Policy

/-!
# `cryptobyte`

The builder and the reader of DER elements are those of `golang.org/x/crypto`.  `Cryptobyte` has the functions that are
called here, and `Cryptobyte.Correct` is what their documentation says of them, in the terms of `Lib.Der`.  Contents up
to `limit` bytes are written and read; longer ones are refused.
-/

namespace Signatory.Cryptoutils

open Lib.Der
open Signer (Bytes Error)

/-- `asn1.ObjectIdentifier`. -/
abbrev Oid := List ℕ

/-- `oid.String()`, as `%v` prints it. -/
def Oid.text (oid : Oid) : String := ".".intercalate (oid.map toString)

namespace Asn1

def INTEGER : UInt8 := 0x02
def BIT_STRING : UInt8 := 0x03
def OCTET_STRING : UInt8 := 0x04
def OBJECT_IDENTIFIER : UInt8 := 0x06
def SEQUENCE : UInt8 := 0x30

end Asn1

open Asn1

/-- The functions of `cryptobyte.Builder` and `cryptobyte.String`.  The builder is passed along; a read returns what it
stores and the rest of the string. -/
structure Cryptobyte where
  Builder : Type
  empty : Builder
  AddASN1 : UInt8 → (Builder → Builder) → Builder → Builder
  AddASN1Int64 : ℤ → Builder → Builder
  AddASN1ObjectIdentifier : Oid → Builder → Builder
  AddASN1OctetString : Bytes → Builder → Builder
  AddASN1BitString : Bytes → Builder → Builder
  SetError : Error → Builder → Builder
  Bytes : Builder → Except Error Bytes
  ReadASN1 : UInt8 → Signer.Bytes → Option (Signer.Bytes × Signer.Bytes)
  ReadASN1Integer : Signer.Bytes → Option (ℤ × Signer.Bytes)
  ReadASN1ObjectIdentifier : Signer.Bytes → Option (Oid × Signer.Bytes)
  ReadASN1BitString : Signer.Bytes → Option (BitString × Signer.Bytes)
  /-- The contents are none when the element is not present. -/
  ReadOptionalASN1 : UInt8 → Signer.Bytes → Option (Option Signer.Bytes × Signer.Bytes)
  PeekASN1Tag : UInt8 → Signer.Bytes → Bool
  limit : ℕ

namespace Cryptobyte

/-- The function adds these bytes to the end. -/
def Adds (cb : Cryptobyte) (f : cb.Builder → cb.Builder) (s : Signer.Bytes) : Prop :=
  ∀ b before, cb.Bytes b = .ok before → cb.Bytes (f b) = .ok (before ++ s)

/-- The documented behaviour. -/
structure Correct (cb : Cryptobyte) : Prop where
  limit_ge : 2 ^ 31 ≤ cb.limit
  Bytes_empty : cb.Bytes cb.empty = .ok []
  adds_AddASN1 {tag f s} : LowTag tag → s.length ≤ cb.limit → cb.Adds f s →
    cb.Adds (cb.AddASN1 tag f) (element tag s)
  adds_AddASN1Int64 {v : ℕ} : v < 128 → cb.Adds (cb.AddASN1Int64 v) (element INTEGER [UInt8.ofNat v])
  adds_AddASN1ObjectIdentifier {o} : ValidOid o → (oid o).length ≤ cb.limit →
    cb.Adds (cb.AddASN1ObjectIdentifier o) (element OBJECT_IDENTIFIER (oid o))
  adds_AddASN1OctetString {bs} : bs.length ≤ cb.limit →
    cb.Adds (cb.AddASN1OctetString bs) (element OCTET_STRING bs)
  adds_AddASN1BitString {bs} : bs.length < cb.limit →
    cb.Adds (cb.AddASN1BitString bs) (element BIT_STRING (bits bs))
  -- an element in front is read, and the rest is left
  ReadASN1_element {tag body} : LowTag tag → body.length ≤ cb.limit → ∀ rest,
    cb.ReadASN1 tag (element tag body ++ rest) = some (body, rest)
  ReadASN1_long {tag body} : LowTag tag → cb.limit < body.length → HasDerLength body → ∀ rest,
    cb.ReadASN1 tag (element tag body ++ rest) = none
  ReadASN1Integer_element {v : ℕ} : v < 128 → ∀ rest,
    cb.ReadASN1Integer (element INTEGER [UInt8.ofNat v] ++ rest) = some ((v : ℤ), rest)
  -- arcs of more than 31 bits are refused, the first two as one
  ReadASN1ObjectIdentifier_element {o} : ValidOid o → (∀ n ∈ o, n < 2 ^ 30) → (oid o).length ≤ cb.limit → ∀ rest,
    cb.ReadASN1ObjectIdentifier (element OBJECT_IDENTIFIER (oid o) ++ rest) = some (o, rest)
  ReadASN1BitString_element {bs} : bs.length < cb.limit → ∀ rest,
    cb.ReadASN1BitString (element BIT_STRING (bits bs) ++ rest) = some (⟨bs, 8 * bs.length⟩, rest)
  ReadOptionalASN1_eq (tag s) : cb.ReadOptionalASN1 tag s =
    if cb.PeekASN1Tag tag s then (cb.ReadASN1 tag s).map fun (body, rest) => (some body, rest) else some (none, s)
  PeekASN1Tag_eq (tag s) : cb.PeekASN1Tag tag s = (s.head? == some tag)

lemma Adds.comp {cb : Cryptobyte} {f g : cb.Builder → cb.Builder} {s t : Signer.Bytes} (hf : cb.Adds f s)
    (hg : cb.Adds g t) : cb.Adds (fun b => g (f b)) (s ++ t) := by
  intro b before hb
  rw [hg _ _ (hf _ _ hb), List.append_assoc]

lemma Adds.bytes {cb : Cryptobyte} (hcb : cb.Correct) {f : cb.Builder → cb.Builder} {s : Signer.Bytes}
    (hf : cb.Adds f s) : cb.Bytes (f cb.empty) = .ok s := hf _ _ hcb.Bytes_empty

end Cryptobyte

/-! ## A builder and a reader -/

/-- The builder is its bytes, or its error; the reader is that of `Lib.Der`. -/
def derbyte : Cryptobyte where
  Builder := Except Error Bytes
  empty := .ok []
  AddASN1 tag f b := do
    let s ← b
    let body ← f (.ok [])
    if ¬ LowTag tag then throw { text := "cryptobyte: high-tag number identifier octects not supported" }
    if 2 ^ 32 ≤ body.length then throw { text := "pending ASN.1 child too long" }
    pure (s ++ element tag body)
  AddASN1Int64 v b := do pure ((← b) ++ element INTEGER (integer v))
  AddASN1ObjectIdentifier o b := do
    let s ← b
    if ¬ ValidOid o then throw { text := "cryptobyte: invalid OID: " ++ o.text }
    pure (s ++ element OBJECT_IDENTIFIER (oid o))
  AddASN1OctetString bs b := do pure ((← b) ++ element OCTET_STRING bs)
  AddASN1BitString bs b := do pure ((← b) ++ element BIT_STRING (bits bs))
  SetError e _ := .error e
  Bytes b := b
  ReadASN1 := read
  ReadASN1Integer s := do
    let (body, rest) ← read INTEGER s
    pure (← readInteger body, rest)
  ReadASN1ObjectIdentifier s := do
    let (body, rest) ← read OBJECT_IDENTIFIER s
    pure (← readOid body, rest)
  ReadASN1BitString s := do
    let (body, rest) ← read BIT_STRING s
    pure (← readBits body, rest)
  ReadOptionalASN1 tag s :=
    if s.head? = some tag then (read tag s).map fun (body, rest) => (some body, rest) else some (none, s)
  PeekASN1Tag tag s := s.head? == some tag
  limit := 2 ^ 32 - 1

theorem derbyte_correct : derbyte.Correct where
  limit_ge := by decide
  Bytes_empty := rfl
  adds_AddASN1 {tag f s} htag hlen hf := by
    intro b before hb
    have hlen' : List.length s < 4294967296 := by
      have : s.length ≤ 2 ^ 32 - 1 := hlen
      omega
    have hbody : f (.ok []) = .ok s := hf (.ok []) [] rfl
    change b = .ok before at hb
    simp only [derbyte, hb, hbody]
    simp [htag, hlen', bind, Except.bind, pure, Except.pure]
  adds_AddASN1Int64 {v} hv := by
    intro b before hb
    change b = .ok before at hb
    rw [← integer_small hv, hb]
    rfl
  adds_AddASN1ObjectIdentifier {o} ho _ := by
    intro b before hb
    change b = .ok before at hb
    simp only [derbyte, hb]
    simp [ho, bind, Except.bind, pure, Except.pure]
  adds_AddASN1OctetString _ := by
    intro b before hb
    change b = .ok before at hb
    rw [hb]
    rfl
  adds_AddASN1BitString _ := by
    intro b before hb
    change b = .ok before at hb
    rw [hb]
    rfl
  ReadASN1_element {tag body} htag hlen rest := by
    have hlen' : body.length ≤ 2 ^ 32 - 1 := hlen
    exact read_element htag (by omega) rest
  ReadASN1_long {tag body} _ hlen henc rest := by
    have hlen' : 2 ^ 32 - 1 < body.length := hlen
    exact read_element_long (by omega) henc rest
  ReadASN1Integer_element {v} hv rest := by
    have hread : read INTEGER (element INTEGER [UInt8.ofNat v] ++ rest) = some ([UInt8.ofNat v], rest) :=
      read_element (by decide) (by simp) rest
    simp only [derbyte, hread, readInteger_small hv, Option.bind_eq_bind, Option.bind_some, Option.pure_def]
  ReadASN1ObjectIdentifier_element {o} ho _ hlen rest := by
    have hlen' : (oid o).length ≤ 2 ^ 32 - 1 := hlen
    have hread : read OBJECT_IDENTIFIER (element OBJECT_IDENTIFIER (oid o) ++ rest) = some (oid o, rest) :=
      read_element (by decide) (by omega) rest
    simp only [derbyte, hread, readOid_oid ho, Option.bind_eq_bind, Option.bind_some, Option.pure_def]
  ReadASN1BitString_element {bs} hlen rest := by
    have hlen' : bs.length < 2 ^ 32 - 1 := hlen
    have hread : read BIT_STRING (element BIT_STRING (bits bs) ++ rest) = some (bits bs, rest) :=
      read_element (by decide) (by simp [bits]; omega) rest
    simp only [derbyte, hread, readBits_bits, Option.bind_eq_bind, Option.bind_some, Option.pure_def]
  ReadOptionalASN1_eq tag s := by simp [derbyte]
  PeekASN1Tag_eq _ _ := rfl

end Signatory.Cryptoutils

import Signatory.Lib.BigEndian
import Signatory.Vault.Enclave

/-!
# `cmd/signatory-recovery-tool`: keys out of blobs

A blob holds a key in the form in which it was sent to the signer (`rpc.NewPrivateKey`): scalars and seeds as bytes,
most significant first.  `rpcToCryptPrivateKey` goes back from there: `rpcToCryptPrivateKey_NewPrivateKey`.

The keys of gotez are the parameter `Keys`.  `Keys.Correct` says in which form they are stored, as far as it matters
here: 32 bytes each, and the scalars of BLS keys are the only ones with the least significant byte in front.
-/

namespace Signatory.RecoveryTool

open Vault (CryptPrivateKey NewPrivateKey)
open Vault.Rpc (PrivateKey)
open Lib
open Signer (Bytes Error)

/-! ## Keys of gotez -/

abbrev Bytes32 := { b : Bytes // b.length = 32 }

def Bytes32.reverse (k : Bytes32) : Bytes32 := ⟨k.1.reverse, by rw [List.length_reverse, k.2]⟩

/-- `tz.PrivateKey`. -/
inductive TzPrivateKey where
  | Ed25519PrivateKey (k : Bytes32)
  | Secp256k1PrivateKey (k : Bytes32)
  | P256PrivateKey (k : Bytes32)
  | BLSPrivateKey (k : Bytes32)
  deriving DecidableEq

/-- What is used of `crypt.PrivateKey`; `view` is what `rpc.NewPrivateKey` sees of a key, of a BLS key what `BEBytes`
returns. -/
structure Keys (Priv : Type) where
  view : Priv → CryptPrivateKey
  NewPrivateKey : TzPrivateKey → Except Error Priv

/-- The lowest `len` bytes of a number, least significant first. -/
def littleEndian : ℕ → ℕ → Bytes
  | 0, _ => []
  | len + 1, n => UInt8.ofNat n :: littleEndian len (n / 256)

/-- The form in which a key is stored. -/
inductive StoredAs : CryptPrivateKey → TzPrivateKey → Prop
  | ed25519 (seed : Bytes32) : StoredAs (.Ed25519PrivateKey seed.1) (.Ed25519PrivateKey seed)
  | secp256k1 {d : ℕ} (k : Bytes32) (hd : d < 256 ^ 32) (hk : k.1 = BigEndian.fillBytes 32 d) :
      StoredAs (.ECDSAPrivateKey .S256 256 d) (.Secp256k1PrivateKey k)
  | p256 {d : ℕ} (k : Bytes32) (hd : d < 256 ^ 32) (hk : k.1 = BigEndian.fillBytes 32 d) :
      StoredAs (.ECDSAPrivateKey .P256 256 d) (.P256PrivateKey k)
  | bls {s : ℕ} (k : Bytes32) (hs : s < 256 ^ 32) (hk : k.1 = littleEndian 32 s) :
      StoredAs (.BLSPrivateKey (BigEndian.fillBytes 32 s)) (.BLSPrivateKey k)

/-- What is documented: the sizes, and that a key is read back from the form in which it is stored. -/
structure Keys.Correct {Priv : Type} (ks : Keys Priv) : Prop where
  seed : ∀ {k : Priv} {seed : Bytes}, ks.view k = .Ed25519PrivateKey seed → seed.length = 32
  bitSize : ∀ {k : Priv} {curve : Vault.Curve} {bitSize d : ℕ}, ks.view k = .ECDSAPrivateKey curve bitSize d →
    curve = .P256 ∨ curve = .S256 → bitSize = 256
  scalar : ∀ {k : Priv} {b : Bytes}, ks.view k = .BLSPrivateKey b → ∃ s < 256 ^ 32, b = BigEndian.fillBytes 32 s
  stored : ∀ {k : Priv} {t : TzPrivateKey}, StoredAs (ks.view k) t → ks.NewPrivateKey t = .ok k

/-! ## The conversion -/

section

variable {Priv : Type} (ks : Keys Priv)

/-- One case of `rpcToCryptPrivateKey`: the bytes are copied into an array. -/
def fromBytes (what : String) (wrap : Bytes32 → TzPrivateKey) (b : Bytes) : Except Error Priv :=
  if h : b.length = 32 then ks.NewPrivateKey (wrap ⟨b, h⟩)
  else .error { text := what ++ " wrong length: got " ++ toString b.length ++ ", want 32" }

/-- `rpcToCryptPrivateKey`; the bytes of a BLS key are reversed. -/
def rpcToCryptPrivateKey (p : PrivateKey) : Except Error Priv :=
  if p.Ed25519.getD [] ≠ [] then fromBytes ks "ed25519 seed" .Ed25519PrivateKey (p.Ed25519.getD [])
  else if p.Secp256k1.getD [] ≠ [] then fromBytes ks "secp256k1 scalar" .Secp256k1PrivateKey (p.Secp256k1.getD [])
  else if p.P256.getD [] ≠ [] then fromBytes ks "p256 scalar" .P256PrivateKey (p.P256.getD [])
  else if p.BLS.getD [] ≠ [] then fromBytes ks "bls scalar" (fun k => .BLSPrivateKey k.reverse) (p.BLS.getD [])
  else .error { text := "rpc PrivateKey has no curve bytes set" }

end

/-! ## Bytes -/

lemma littleEndian_eq (len n : ℕ) : littleEndian len n = (BigEndian.fillBytes len n).reverse := by
  induction len generalizing n with
  | zero => rfl
  | succ len ih => rw [littleEndian, BigEndian.fillBytes, List.reverse_append, ih, List.reverse_singleton,
      List.singleton_append]

/-! ## The round trip -/

section

variable {Priv : Type} {ks : Keys Priv}

lemma ne_nil_of_length {b : Bytes} (h : b.length = 32) : b ≠ [] := by
  rintro rfl
  exact absurd h (by decide)

section

variable {b : Bytes} (h : b.length = 32)

include h

lemma rpcToCrypt_ed25519 :
    rpcToCryptPrivateKey ks { Ed25519 := some b } = ks.NewPrivateKey (.Ed25519PrivateKey ⟨b, h⟩) := by
  simp [rpcToCryptPrivateKey, fromBytes, ne_nil_of_length h, h]

lemma rpcToCrypt_secp256k1 :
    rpcToCryptPrivateKey ks { Secp256k1 := some b } = ks.NewPrivateKey (.Secp256k1PrivateKey ⟨b, h⟩) := by
  simp [rpcToCryptPrivateKey, fromBytes, ne_nil_of_length h, h]

lemma rpcToCrypt_p256 :
    rpcToCryptPrivateKey ks { P256 := some b } = ks.NewPrivateKey (.P256PrivateKey ⟨b, h⟩) := by
  simp [rpcToCryptPrivateKey, fromBytes, ne_nil_of_length h, h]

lemma rpcToCrypt_bls :
    rpcToCryptPrivateKey ks { BLS := some b } = ks.NewPrivateKey (.BLSPrivateKey (Bytes32.reverse ⟨b, h⟩)) := by
  simp [rpcToCryptPrivateKey, fromBytes, ne_nil_of_length h, h]

end

/-- The ECDSA keys that are encoded: those on the two curves of Tezos, with a scalar that fits. -/
lemma newPrivateKey_ecdsa {curve : Vault.Curve} {bitSize d : ℕ} {p : PrivateKey}
    (h : NewPrivateKey (.ECDSAPrivateKey curve bitSize d) = .ok p) :
    d < 256 ^ ((bitSize + 7) / 8) ∧
      (curve = .P256 ∧ p = { P256 := some (BigEndian.fillBytes ((bitSize + 7) / 8) d) } ∨
        curve = .S256 ∧ p = { Secp256k1 := some (BigEndian.fillBytes ((bitSize + 7) / 8) d) }) := by
  simp only [NewPrivateKey] at h
  split at h
  case isTrue => cases h
  case isFalse hfits =>
    refine ⟨not_le.1 hfits, ?_⟩
    cases curve with
    | P256 => exact Or.inl ⟨rfl, (Except.ok.inj h).symm⟩
    | S256 => exact Or.inr ⟨rfl, (Except.ok.inj h).symm⟩
    | other name => cases h

/-- **The recovery tool inverts the encoding of keys.** -/
theorem rpcToCryptPrivateKey_NewPrivateKey (hks : ks.Correct) {k : Priv} {p : PrivateKey}
    (h : NewPrivateKey (ks.view k) = .ok p) : rpcToCryptPrivateKey ks p = .ok k := by
  cases hview : ks.view k with
  | ECDSAPrivateKey curve bitSize d =>
    rw [hview] at h
    obtain ⟨hd, hcases⟩ := newPrivateKey_ecdsa h
    obtain rfl := hks.bitSize hview (hcases.imp And.left And.left)
    have hlen : (BigEndian.fillBytes 32 d).length = 32 := BigEndian.length_fillBytes 32 d
    rcases hcases with ⟨rfl, rfl⟩ | ⟨rfl, rfl⟩
    · have hstored := StoredAs.p256 ⟨_, hlen⟩ hd rfl
      rw [← hview] at hstored
      exact (rpcToCrypt_p256 hlen).trans (hks.stored hstored)
    · have hstored := StoredAs.secp256k1 ⟨_, hlen⟩ hd rfl
      rw [← hview] at hstored
      exact (rpcToCrypt_secp256k1 hlen).trans (hks.stored hstored)
  | Ed25519PrivateKey seed =>
    rw [hview] at h
    obtain rfl := Except.ok.inj h
    have hseed := hks.seed hview
    have hstored := StoredAs.ed25519 ⟨seed, hseed⟩
    rw [← hview] at hstored
    exact (rpcToCrypt_ed25519 hseed).trans (hks.stored hstored)
  | BLSPrivateKey b =>
    rw [hview] at h
    obtain rfl := Except.ok.inj h
    obtain ⟨s, hs, hb⟩ := hks.scalar hview
    have hlen : b.length = 32 := by rw [hb, BigEndian.length_fillBytes]
    -- the bytes that were sent, reversed, are those that are stored
    have hbytes : (Bytes32.reverse ⟨b, hlen⟩).1 = littleEndian 32 s := by
      rw [littleEndian_eq, ← hb]
      rfl
    have hstored := StoredAs.bls _ hs hbytes
    rw [← hb, ← hview] at hstored
    exact (rpcToCrypt_bls hlen).trans (hks.stored hstored)
  | other name =>
    rw [hview] at h
    cases h

end

/-! ## Keys as they are stored -/

/-- Keys that are nothing but the bytes that are stored. -/
def storedKeys : Keys TzPrivateKey where
  view
    | .Ed25519PrivateKey k => .Ed25519PrivateKey k.1
    | .Secp256k1PrivateKey k => .ECDSAPrivateKey .S256 256 (BigEndian.ofBytes k.1)
    | .P256PrivateKey k => .ECDSAPrivateKey .P256 256 (BigEndian.ofBytes k.1)
    | .BLSPrivateKey k => .BLSPrivateKey k.1.reverse
  NewPrivateKey := .ok

lemma fillBytes_ofBytes32 {b : Bytes} (h : b.length = 32) : BigEndian.fillBytes 32 (BigEndian.ofBytes b) = b := by
  have hfill := BigEndian.fillBytes_ofBytes b
  rwa [h] at hfill

lemma storedKeys_correct : storedKeys.Correct := by
  constructor
  · rintro (k | k | k | k) seed h <;> cases h
    exact k.2
  · rintro (k | k | k | k) curve bitSize d h - <;> cases h <;> rfl
  · rintro (k | k | k | k) b h <;> cases h
    have hlen := k.reverse.2
    exact ⟨BigEndian.ofBytes k.1.reverse, (BigEndian.ofBytes_lt _).trans_eq (congrArg _ hlen),
      (fillBytes_ofBytes32 hlen).symm⟩
  · intro k t h
    refine congrArg Except.ok ?_
    generalize hview : storedKeys.view k = v at h
    cases h with
    | ed25519 seed =>
      cases k with
      | Ed25519PrivateKey k => exact congrArg _ (Subtype.ext (CryptPrivateKey.Ed25519PrivateKey.inj hview).symm)
      | _ => cases hview
    | secp256k1 k' hd hk =>
      cases k with
      | Secp256k1PrivateKey k =>
        cases hview
        rw [fillBytes_ofBytes32 k.2] at hk
        exact congrArg _ (Subtype.ext hk)
      | _ => cases hview
    | p256 k' hd hk =>
      cases k with
      | P256PrivateKey k =>
        cases hview
        rw [fillBytes_ofBytes32 k.2] at hk
        exact congrArg _ (Subtype.ext hk)
      | _ => cases hview
    | bls k' hs hk =>
      cases k with
      | BLSPrivateKey k =>
        have hrev : k.1.reverse = BigEndian.fillBytes 32 _ := CryptPrivateKey.BLSPrivateKey.inj hview
        rw [littleEndian_eq, ← hrev, List.reverse_reverse] at hk
        exact congrArg _ (Subtype.ext hk)
      | _ => cases hview

/-- A BLS key whose scalar is 256: its bytes begin and end with zeros. -/
def blsKey256 : TzPrivateKey := .BLSPrivateKey ⟨littleEndian 32 256, by decide⟩

theorem rpcToCryptPrivateKey_of_bls :
    NewPrivateKey (storedKeys.view blsKey256) = .ok { BLS := some (List.replicate 30 0 ++ [1, 0]) } ∧
      rpcToCryptPrivateKey storedKeys { BLS := some (List.replicate 30 0 ++ [1, 0]) } = .ok blsKey256 := by
  have h : NewPrivateKey (storedKeys.view blsKey256) = .ok { BLS := some (List.replicate 30 0 ++ [1, 0]) } := by
    decide +kernel
  exact ⟨h, rpcToCryptPrivateKey_NewPrivateKey storedKeys_correct h⟩

end Signatory.RecoveryTool

import Signatory.Vault.Azure.Listing

/-!
# The numbers of an RSA key in a JWK

`rsaPublicKey` keeps the lowest 64 bits of the exponent, and `PublicKey` and `Validate` look at what is left of it.  An
exponent of more than 64 bits is therefore accepted, as another one, whenever these bits are in range: `rsa_jwk_iff`.
-/

namespace Signatory.Vault.Azure

open Lib Lib.BigEndian Lib.Fallible
open Cryptoutils
open Signer (Bytes Error)

/-! ## `crypto/rsa` -/

/-- `PrivateKey.Validate`: the exponents invert each other modulo every prime less one. -/
def validate (k : RsaPrivateKey) : Except Error Unit := do
  if k.e < 2 then throw { text := "crypto/rsa: public exponent too small or negative" }
  if 2 ^ 31 - 1 < k.e then throw { text := "crypto/rsa: public exponent too large" }
  if k.primes.any (· ≤ 1) then throw { text := "crypto/rsa: invalid prime value" }
  if k.primes.prod ≠ k.n then throw { text := "crypto/rsa: invalid modulus" }
  if k.primes.any fun p => (k.e * k.d) % (p - 1 : ℤ) ≠ 1 then throw { text := "crypto/rsa: invalid exponents" }

/-- The values for the primes after the second one; `r` is the product of the primes before. -/
def crtValues (d : ℕ) : ℕ → List ℕ → List CrtValue
  | _, [] => []
  | r, p :: primes => ⟨d % (p - 1), Cryptoutils.Curve.invMod p r⟩ :: crtValues d (r * p) primes

/-- `PrivateKey.Precompute`. -/
def precompute (k : RsaPrivateKey) : RsaPrivateKey :=
  match k.primes with
  | p :: q :: oth =>
    { k with
      dp := k.d % (p - 1)
      dq := k.d % (q - 1)
      qinv := Cryptoutils.Curve.invMod p q
      crtValues := crtValues k.d (p * q) oth }
  | _ => k

def validateAndPrecompute (k : RsaPrivateKey) : Except Error RsaPrivateKey := do
  validate k
  pure (precompute k)

/-- What is used of `Validate` and `Precompute`: a key that passes has a modulus, and an exponent that fits 31 bits, and
neither is changed. -/
structure Validates (finish : RsaPrivateKey → Except Error RsaPrivateKey) : Prop where
  modulus : ∀ {k k' : RsaPrivateKey}, finish k = .ok k' → k.n ≠ 0
  pos : ∀ {k k' : RsaPrivateKey}, finish k = .ok k' → 0 < k.e
  le : ∀ {k k' : RsaPrivateKey}, finish k = .ok k' → k.e ≤ 2 ^ 31 - 1
  unchanged : ∀ {k k' : RsaPrivateKey}, finish k = .ok k' → k'.toRsaPublicKey = k.toRsaPublicKey

lemma precompute_public (k : RsaPrivateKey) : (precompute k).toRsaPublicKey = k.toRsaPublicKey := by
  unfold precompute
  split <;> rfl

lemma validateAndPrecompute_validates : Validates validateAndPrecompute := by
  have hsteps : ∀ {k k' : RsaPrivateKey}, validateAndPrecompute k = .ok k' →
      (¬ k.e < 2 ∧ ¬ 2 ^ 31 - 1 < k.e) ∧ (¬ k.primes.any (· ≤ 1) = true ∧ ¬ k.primes.prod ≠ k.n) ∧
        precompute k = k' := by
    intro k k' h
    obtain ⟨u, hvalid, hpure⟩ := ok_bind_iff.1 h
    simp only [validate, ok_check_iff, ok_check_bind_iff] at hvalid
    obtain ⟨hsmall, hlarge, hprime, hmodulus, -⟩ := hvalid
    exact ⟨⟨hsmall, hlarge⟩, ⟨hprime, hmodulus⟩, ok_pure_iff.1 hpure⟩
  constructor
  · intro k k' h hzero
    obtain ⟨-, ⟨hprime, hmodulus⟩, -⟩ := hsteps h
    rw [hzero, not_not, List.prod_eq_zero_iff] at hmodulus
    exact hprime (List.any_eq_true.2 ⟨0, hmodulus, rfl⟩)
  · intro k k' h
    have := (hsteps h).1.1
    omega
  · intro k k' h
    exact not_lt.1 (hsteps h).1.2
  · intro k k' h
    rw [← (hsteps h).2.2]
    exact precompute_public k

/-! ## What is decoded -/

lemma parseBase64UInt_ok_iff {s : Bytes} {n : ℕ} : parseBase64UInt s = .ok n ↔ IsUInt s n := by
  constructor
  · intro h
    unfold parseBase64UInt at h
    cases hs : b64.decode s with
    | none => simp [hs] at h
    | some buf =>
      rw [hs] at h
      exact ⟨buf, hs, Except.ok.inj h⟩
  · exact parseBase64UInt_of_isUInt

lemma IsUInt.unique {s : Bytes} {n m : ℕ} (hn : IsUInt s n) (hm : IsUInt s m) : n = m :=
  Except.ok.inj ((parseBase64UInt_of_isUInt hn).symm.trans (parseBase64UInt_of_isUInt hm))

variable {j : Jwk}

lemma Jwk.not_isEC_of_isRSA (h : j.isRSA = true) : ¬ j.isEC = true := by
  simp only [Jwk.isRSA, Bool.or_eq_true, decide_eq_true_eq] at h
  rcases h with h | h <;> simp [Jwk.isEC, h]

lemma Jwk.rsaPublicKey_ok_iff {k : RsaPublicKey} :
    j.rsaPublicKey = .ok k ↔ ∃ n e, IsUInt j.n n ∧ IsUInt j.e e ∧ k = ⟨n, toInt64 e⟩ := by
  simp only [Jwk.rsaPublicKey, ok_bind_iff, ok_pure_iff, parseBase64UInt_ok_iff]
  constructor
  · rintro ⟨n, hn, e, he, rfl⟩
    exact ⟨n, e, hn, he, rfl⟩
  · rintro ⟨n, e, hn, he, rfl⟩
    exact ⟨n, hn, e, he, rfl⟩

lemma Jwk.publicKey_ok_iff (hrsa : j.isRSA = true) {key : Cryptoutils.PublicKey} :
    j.PublicKey = .ok key ↔
      ∃ n e, IsUInt j.n n ∧ IsUInt j.e e ∧ Accepted n e ∧ key = .rsa ⟨n, toInt64 e⟩ := by
  simp only [Jwk.PublicKey, if_neg (Jwk.not_isEC_of_isRSA hrsa), if_pos hrsa, ok_bind_iff,
    ok_check_bind_iff, ok_pure_iff, Jwk.rsaPublicKey_ok_iff]
  constructor
  · rintro ⟨k, ⟨n, e, hn, he, rfl⟩, hsign, hlarge, rfl⟩
    dsimp only at hsign hlarge
    have hle : toInt64 e ≤ 2 ^ 31 - 1 := not_lt.1 hlarge
    exact ⟨n, e, hn, he, ⟨by omega, by omega, hle⟩, rfl⟩
  · rintro ⟨n, e, hn, he, haccepted, rfl⟩
    have hmodulus := haccepted.modulus
    have hpos := haccepted.pos
    have hle := haccepted.le
    refine ⟨_, ⟨n, e, hn, he, rfl⟩, ?_, ?_, rfl⟩
    · dsimp only
      omega
    · dsimp only
      omega

/-- The RSA keys that `PrivateKey` returns: their public part was accepted by `Validate`. -/
lemma Jwk.privateKey_ok (hrsa : j.isRSA = true) {finish : RsaPrivateKey → Except Error RsaPrivateKey}
    (hfinish : Validates finish) {key : Cryptoutils.PrivateKey} (h : j.PrivateKey finish = .ok key) :
    ∃ n e k, IsUInt j.n n ∧ IsUInt j.e e ∧ Accepted n e ∧ key = .rsa k ∧ k.toRsaPublicKey = ⟨n, toInt64 e⟩ := by
  simp only [Jwk.PrivateKey, if_neg (Jwk.not_isEC_of_isRSA hrsa), if_pos hrsa, ok_bind_iff,
    ok_check_bind_iff, ok_pure_iff, Jwk.rsaPublicKey_ok_iff] at h
  obtain ⟨-, pub, ⟨n, e, hn, he, rfl⟩, d, -, p, -, q, -, oth, -, k, hk, rfl⟩ := h
  have hmodulus := hfinish.modulus hk
  have hpos := hfinish.pos hk
  have hle := hfinish.le hk
  dsimp only at hmodulus hpos hle
  exact ⟨n, e, k, hn, he, ⟨hmodulus, hpos, hle⟩, rfl, hfinish.unchanged hk⟩

/-- An exponent that is positive as an `int64` is what its lowest 64 bits say. -/
lemma toInt64_of_pos {e : ℕ} (h : 0 < toInt64 e) : toInt64 e = (e % 2 ^ 64 : ℕ) := by
  unfold toInt64 Int.bmod at h ⊢
  dsimp only at h ⊢
  split at h <;> omega

/-! ## The numbers -/

/-- The public key has the numbers of the JWK. -/
structure SameNumbers (j : Jwk) (k : RsaPublicKey) : Prop where
  modulus : IsUInt j.n k.n
  exponent : ∃ e : ℕ, IsUInt j.e e ∧ k.e = e

/-- No number is changed by decoding, and no exponent is accepted that does not fit 31 bits. -/
structure KeepsNumbers (finish : RsaPrivateKey → Except Error RsaPrivateKey) (j : Jwk) : Prop where
  pub : ∀ key, j.PublicKey = .ok key → ∃ k, key = .rsa k ∧ SameNumbers j k
  range : ∀ e, IsUInt j.e e → ¬ (1 ≤ e ∧ e ≤ 2 ^ 31 - 1) → ∃ err, j.PublicKey = .error err
  priv : ∀ key, j.PrivateKey finish = .ok key → ∃ k, key = .rsa k ∧ SameNumbers j k.toRsaPublicKey

/-- The exponent does not fit 64 bits, but what is left of it is in range; the modulus is not zero. -/
structure Wraps (j : Jwk) : Prop where
  modulus : ∃ n, IsUInt j.n n ∧ n ≠ 0
  exponent : ∃ e, IsUInt j.e e ∧ 2 ^ 64 ≤ e ∧ 1 ≤ e % 2 ^ 64 ∧ e % 2 ^ 64 ≤ 2 ^ 31 - 1

lemma exponent_eq_of_not_wraps (h : ¬ Wraps j) {n e : ℕ} (hn : IsUInt j.n n) (he : IsUInt j.e e)
    (haccepted : Accepted n e) : toInt64 e = e := by
  have hbits := toInt64_of_pos haccepted.pos
  have hpos := haccepted.pos
  have hle := haccepted.le
  rcases lt_or_ge e (2 ^ 64) with hlt | hge
  · rw [hbits, Nat.mod_eq_of_lt hlt]
  · exact absurd ⟨⟨n, hn, haccepted.modulus⟩, e, he, hge, by omega, by omega⟩ h

lemma sameNumbers_of_not_wraps (h : ¬ Wraps j) {n e : ℕ} (hn : IsUInt j.n n) (he : IsUInt j.e e)
    (haccepted : Accepted n e) : SameNumbers j ⟨n, toInt64 e⟩ := by
  have hsame := exponent_eq_of_not_wraps h hn he haccepted
  refine ⟨hn, e, he, ?_⟩
  dsimp only
  exact hsame

/-- **RSA numbers are decoded as they are, unless the exponent wraps around.** -/
theorem rsa_jwk_iff (hrsa : j.isRSA = true) {finish : RsaPrivateKey → Except Error RsaPrivateKey}
    (hfinish : Validates finish) : KeepsNumbers finish j ↔ ¬ Wraps j := by
  constructor
  · rintro ⟨hpub, -, -⟩ ⟨⟨n, hn, hmodulus⟩, e, he, hge, hpos, hle⟩
    have hbits : toInt64 e = (e % 2 ^ 64 : ℕ) := by
      unfold toInt64 Int.bmod
      dsimp only
      split <;> omega
    have haccepted : Accepted n e := ⟨hmodulus, by omega, by omega⟩
    have hkey := (Jwk.publicKey_ok_iff hrsa).2 ⟨n, e, hn, he, haccepted, rfl⟩
    obtain ⟨k, hk, hsame⟩ := hpub _ hkey
    obtain rfl := Cryptoutils.PublicKey.rsa.inj hk
    obtain ⟨e', he', heq⟩ := hsame.exponent
    obtain rfl := he.unique he'
    dsimp only at heq
    omega
  · intro hwraps
    refine ⟨?_, ?_, ?_⟩
    · intro key hkey
      obtain ⟨n, e, hn, he, haccepted, rfl⟩ := (Jwk.publicKey_ok_iff hrsa).1 hkey
      exact ⟨_, rfl, sameNumbers_of_not_wraps hwraps hn he haccepted⟩
    · intro e he hrange
      cases hkey : j.PublicKey with
      | error err => exact ⟨err, rfl⟩
      | ok key =>
        obtain ⟨n, e', hn, he', haccepted, -⟩ := (Jwk.publicKey_ok_iff hrsa).1 hkey
        obtain rfl := he.unique he'
        have heq := exponent_eq_of_not_wraps hwraps hn he haccepted
        have hpos := haccepted.pos
        have hle := haccepted.le
        exact absurd ⟨by omega, by omega⟩ hrange
    · intro key hkey
      obtain ⟨n, e, k, hn, he, haccepted, rfl, hk⟩ := Jwk.privateKey_ok hrsa hfinish hkey
      refine ⟨k, rfl, ?_⟩
      rw [hk]
      exact sameNumbers_of_not_wraps hwraps hn he haccepted

/-! ## A small key -/

/-- The key with the primes 61 and 53, with any exponent in the JWK. -/
def smallJwk (e : ℕ) : Jwk where
  keyType := "RSA"
  n := encodeUInt 3233
  e := encodeUInt e
  p := encodeUInt 61
  q := encodeUInt 53
  d := encodeUInt 413

theorem rsa_jwk_of_small :
    (∃ k, (smallJwk 17).PrivateKey validateAndPrecompute = .ok (.rsa k)) ∧
      (KeepsNumbers validateAndPrecompute (smallJwk 17) ↔ ¬ Wraps (smallJwk 17)) := by
  refine ⟨⟨{ n := 3233, e := 17, d := 413, primes := [61, 53], dp := 53, dq := 49, qinv := 38 }, ?_⟩, ?_⟩
  · decide +kernel
  · exact rsa_jwk_iff rfl validateAndPrecompute_validates

/-- The exponent `2 ^ 64 + 17` becomes 17. -/
theorem exponent_wraps :
    IsUInt (smallJwk (2 ^ 64 + 17)).e (2 ^ 64 + 17) ∧ (smallJwk (2 ^ 64 + 17)).PublicKey = .ok (.rsa ⟨3233, 17⟩) ∧
      ¬ KeepsNumbers validateAndPrecompute (smallJwk (2 ^ 64 + 17)) := by
  have he : IsUInt (smallJwk (2 ^ 64 + 17)).e (2 ^ 64 + 17) := isUInt_encodeUInt _
  have hkey : (smallJwk (2 ^ 64 + 17)).PublicKey = .ok (.rsa ⟨3233, 17⟩) := by decide +kernel
  refine ⟨he, hkey, fun hkeeps => ?_⟩
  obtain ⟨k, hk, hsame⟩ := hkeeps.pub _ hkey
  obtain rfl := Cryptoutils.PublicKey.rsa.inj hk
  obtain ⟨e, he', heq⟩ := hsame.exponent
  obtain rfl := he.unique he'
  exact absurd heq (by decide)

end Signatory.Vault.Azure

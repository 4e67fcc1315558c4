import Signatory.Auth
import Signatory.Lib.Fallible
import Signatory.Lib.Framing

/-!
# `pkg/server`: authentication of sign requests

A client signs the bytes of `AuthenticatedBytesToSign`: two constant bytes, the public key hash and the message, with
nothing between them.  `authenticateSignRequest` tries all authorized keys on the signature and enters the hash of the
one that fits into the request.

* `authenticateSignRequest_ok`: what a request that is let through has passed;
* `authentication_binds`: a signature made for one request lets no other request through.
-/

namespace Signatory.Server

open Hashmap Signer Auth Lib.Fallible Lib.Framing

/-- What is used of gotez: the binary encoding of a public key hash, and signatures. -/
structure AuthCodec (PKH PK Sig : Type) where
  encode : PKH → Except Error Bytes
  ParseSignature : String → Except Error Sig
  Verify : Sig → PK → Bytes → Bool

variable {Enc PKH PK Sig : Type}

section Model

variable (codec : AuthCodec PKH PK Sig)

/-- `signatory.AuthenticatedBytesToSign`. -/
def AuthenticatedBytesToSign (req : SignRequest PKH) : Except Error Bytes := do
  let keyHashBytes ← codec.encode req.publicKeyHash
  return 4 :: 1 :: (keyHashBytes ++ req.message)

variable (auth : AuthorizedKeysStorage PKH PK)

/-- The loop over the hashes of the authorized keys. -/
def tryKeys (req : SignRequest PKH) (sig : Sig) (authBytes : Bytes) : List PKH → Except Error (SignRequest PKH)
  | [] => throw (Wrap { text := "invalid authentication signature" } 403)
  | pkh :: hashes => do
    let pub ← auth.GetPublicKey pkh
    if codec.Verify sig pub authBytes then
      return { req with clientPublicKeyHash := some pkh }
    tryKeys req sig authBytes hashes

/-- `Server.authenticateSignRequest`; `v` is the form value `authentication`.  The request is returned as it is left. -/
def authenticateSignRequest (v : String) (req : SignRequest PKH) : Except Error (SignRequest PKH) := do
  if v = "" then
    throw (Wrap { text := "missing authentication signature field" } 401)
  let authBytes ← (AuthenticatedBytesToSign codec req).mapError (Wrap · 400)
  let sig ← (codec.ParseSignature v).mapError (Wrap · 400)
  let hashes ← auth.ListPublicKeys
  tryKeys codec auth req sig authBytes hashes

end Model

/-! ## What is authenticated -/

section Ok

variable {codec : AuthCodec PKH PK Sig} {auth : AuthorizedKeysStorage PKH PK} {v : String} {req req' : SignRequest PKH}

lemma authenticatedBytes_ok {authBytes : Bytes} (h : AuthenticatedBytesToSign codec req = .ok authBytes) :
    ∃ keyHashBytes, codec.encode req.publicKeyHash = .ok keyHashBytes ∧
      authBytes = 4 :: 1 :: (keyHashBytes ++ req.message) := by
  simp only [AuthenticatedBytesToSign, ok_bind_iff, ok_pure_iff] at h
  obtain ⟨keyHashBytes, henc, rfl⟩ := h
  exact ⟨keyHashBytes, henc, rfl⟩

lemma tryKeys_ok {sig : Sig} {authBytes : Bytes} {hashes : List PKH}
    (h : tryKeys codec auth req sig authBytes hashes = .ok req') :
    ∃ pkh ∈ hashes, ∃ pub, auth.GetPublicKey pkh = .ok pub ∧ codec.Verify sig pub authBytes = true ∧
      req' = { req with clientPublicKeyHash := some pkh } := by
  induction hashes with
  | nil => cases h
  | cons pkh hashes ih =>
    simp only [tryKeys, ok_bind_iff] at h
    obtain ⟨pub, hpub, h⟩ := h
    split at h
    case isTrue hverify => exact ⟨pkh, List.mem_cons_self, pub, hpub, hverify, (ok_pure_iff.1 h).symm⟩
    case isFalse =>
      obtain ⟨pkh', hmem, hrest⟩ := ih h
      exact ⟨pkh', List.mem_cons_of_mem _ hmem, hrest⟩

theorem authenticateSignRequest_ok (h : authenticateSignRequest codec auth v req = .ok req') :
    ∃ authBytes sig hashes, AuthenticatedBytesToSign codec req = .ok authBytes ∧ codec.ParseSignature v = .ok sig ∧
      auth.ListPublicKeys = .ok hashes ∧ tryKeys codec auth req sig authBytes hashes = .ok req' := by
  simp only [authenticateSignRequest, ok_bind_iff, ok_check_bind_iff, ok_mapError_iff] at h
  obtain ⟨-, authBytes, hbytes, sig, hsig, hashes, hlist, htry⟩ := h
  exact ⟨authBytes, sig, hashes, hbytes, hsig, hlist, htry⟩

end Ok

/-! ## A signature for one request -/

section Binding

variable [DecidableEq Enc] [ToComparable PKH Enc] (codec : AuthCodec PKH PK Sig) (hash : PK → PKH) (keys : List PK)

/-- The authorized key `pub` has verified the signature over the bytes of the request, and its hash is entered. -/
def VerifiedBy (v : String) (req req' : SignRequest PKH) (pkh : PKH) (pub : PK) : Prop :=
  pkh ∈ keys.map hash ∧ pub ∈ keys ∧ toComparable (hash pub) = toComparable pkh ∧
    req' = { req with clientPublicKeyHash := some pkh } ∧
    ∃ authBytes sig, AuthenticatedBytesToSign codec req = .ok authBytes ∧ codec.ParseSignature v = .ok sig ∧
      codec.Verify sig pub authBytes = true

/-- Signatures cannot be forged: one that the holder of an authorized key has made for some bytes (`Made`) verifies,
under the authorized keys, for no other bytes. -/
def Unforgeable (Made : PK → Bytes → Sig → Prop) : Prop :=
  ∀ pk ∈ keys, ∀ bytes sig, Made pk bytes sig → ∀ pub ∈ keys, ∀ bytes', codec.Verify sig pub bytes' = true →
    bytes' = bytes

variable {codec hash keys}

lemma authenticatedBytes_inj (hfree : PrefixFree fun pkh x => codec.encode pkh = .ok x) {r₁ r₂ : SignRequest PKH}
    {authBytes : Bytes} (h₁ : AuthenticatedBytesToSign codec r₁ = .ok authBytes)
    (h₂ : AuthenticatedBytesToSign codec r₂ = .ok authBytes) :
    r₁.publicKeyHash = r₂.publicKeyHash ∧ r₁.message = r₂.message := by
  obtain ⟨x, hx, rfl⟩ := authenticatedBytes_ok h₁
  obtain ⟨y, hy, e⟩ := authenticatedBytes_ok h₂
  have happend : x ++ r₁.message = y ++ r₂.message := by simpa using e
  exact hfree.append_inj hx hy happend

lemma verifiedBy_of_ok {v : String} {req req' : SignRequest PKH}
    (h : authenticateSignRequest codec (StaticAuthorizedKeys hash keys) v req = .ok req') :
    ∃ pkh pub, VerifiedBy codec hash keys v req req' pkh pub := by
  obtain ⟨authBytes, sig, hashes, hbytes, hsig, hlist, hloop⟩ := authenticateSignRequest_ok h
  obtain ⟨pkh, hmem, pub, hpub, hverify, rfl⟩ := tryKeys_ok hloop
  obtain rfl := Except.ok.inj (listPublicKeys_static.symm.trans hlist)
  obtain ⟨hkeys, hhash⟩ := getPublicKey_static hpub
  exact ⟨pkh, pub, hmem, hkeys, hhash, rfl, authBytes, sig, hbytes, hsig, hverify⟩

/-- **Client authentication binds the key and the message.**  A request that is let through has the hash of an
authorized key entered that verified the signature over the bytes of the request; and a signature made with an
authorized key for the request `r₁` lets `r₂` through only if both have the same public key hash and message. -/
theorem authentication_binds (hfree : PrefixFree fun pkh x => codec.encode pkh = .ok x)
    {Made : PK → Bytes → Sig → Prop} (hunf : Unforgeable codec keys Made) :
    (∀ v req req', authenticateSignRequest codec (StaticAuthorizedKeys hash keys) v req = .ok req' →
        ∃ pkh pub, VerifiedBy codec hash keys v req req' pkh pub) ∧
      ∀ v sig pk r₁ r₂ req' authBytes, codec.ParseSignature v = .ok sig → pk ∈ keys →
        AuthenticatedBytesToSign codec r₁ = .ok authBytes → Made pk authBytes sig →
        authenticateSignRequest codec (StaticAuthorizedKeys hash keys) v r₂ = .ok req' →
        r₂.publicKeyHash = r₁.publicKeyHash ∧ r₂.message = r₁.message := by
  refine ⟨fun v req req' h => verifiedBy_of_ok h, ?_⟩
  intro v sig pk r₁ r₂ req' authBytes hsig hpk hbytes hmade hok
  obtain ⟨pkh, pub, -, hpub, -, -, authBytes', sig', hbytes', hsig', hverify⟩ := verifiedBy_of_ok hok
  obtain rfl := Except.ok.inj (hsig.symm.trans hsig')
  obtain rfl := hunf pk hpk authBytes sig hmade pub hpub authBytes' hverify
  exact authenticatedBytes_inj hfree hbytes' hbytes

end Binding

/-- A public key hash as it is encoded: a tag and 20 bytes. -/
abbrev TaggedHash := {x : Bytes // x.length = 21}

instance : ToComparable TaggedHash TaggedHash := ⟨id, id⟩

def zeroHash : TaggedHash := ⟨List.replicate 21 0, rfl⟩

/-- A request to sign the message with the key whose hash is zero. -/
def zeroRequest (message : Bytes) : SignRequest TaggedHash := ⟨none, zeroHash, ⟨2⟩, [], message⟩

/-- A signature is the key and the bytes it was made for; there is one, for the message `[17]`. -/
def taggedCodec : AuthCodec TaggedHash TaggedHash (TaggedHash × Bytes) where
  encode pkh := .ok pkh.1
  ParseSignature
    | "edsig" => .ok (zeroHash, 4 :: 1 :: (List.replicate 21 0 ++ [17]))
    | _ => .error { text := "invalid signature" }
  Verify sig pk bytes := decide (sig = (pk, bytes))

lemma prefixFree_tagged : PrefixFree fun pkh x => taggedCodec.encode pkh = .ok x := by
  intro a b x y hx hy hp
  obtain rfl := Except.ok.inj hx
  obtain rfl := Except.ok.inj hy
  have heq : a.1 = b.1 := hp.eq_of_length (a.2.trans b.2.symm)
  exact ⟨Subtype.ext heq, heq⟩

/-- The signature for the message `[17]` lets this message through, and not the message `[18]`. -/
theorem authentication_binds_zero :
    (authenticateSignRequest taggedCodec (StaticAuthorizedKeys id [zeroHash]) "edsig" (zeroRequest [17])).isOk = true ∧
      ∀ req', authenticateSignRequest taggedCodec (StaticAuthorizedKeys id [zeroHash]) "edsig" (zeroRequest [18]) ≠
        .ok req' := by
  have hunf : Unforgeable taggedCodec [zeroHash] fun pk bytes sig => sig = (pk, bytes) := by
    rintro pk hpk bytes sig rfl pub hpub bytes' hverify
    exact (Prod.mk.inj (of_decide_eq_true hverify)).2.symm
  refine ⟨rfl, fun req' hok => ?_⟩
  have h := (authentication_binds prefixFree_tagged hunf).2 "edsig" _ zeroHash (zeroRequest [17])
    (zeroRequest [18]) req' _ rfl List.mem_cons_self rfl rfl hok
  exact absurd h.2 (by decide)

end Signatory.Server

import Signatory.Cryptoutils.Elliptic
import Signatory.Lib.Base64
import Signatory.Lib.Fallible

/-!
# `azure/jwk`

JSON web keys (RFC 7517), of which the fields of EC and RSA keys are used.  A private key that is encoded is decoded to
the same key, but numbers are written without their leading bytes of zero, so the fields of an EC key have the width
that RFC 7518 asks for just when there are none: `ec_jwk_iff`.
-/

namespace Signatory.Vault.Azure

open Lib Lib.BigEndian Lib.Fallible
open Cryptoutils
open Signer (Bytes Error)

/-- `RSAPrime`. -/
structure RsaPrime where
  r : Bytes := []
  d : Bytes := []
  t : Bytes := []
  deriving DecidableEq

/-- `JWK`; a text in Base64 is one of bytes, and empty when the field is not there. -/
structure Jwk where
  keyType : String := ""
  keyID : String := ""
  -- elliptic curve keys
  curve : String := ""
  x : Bytes := []
  y : Bytes := []
  -- RSA keys
  n : Bytes := []
  e : Bytes := []
  p : Bytes := []
  q : Bytes := []
  dp : Bytes := []
  dq : Bytes := []
  qi : Bytes := []
  oth : List RsaPrime := []
  -- both
  d : Bytes := []
  deriving DecidableEq

def ErrPublic : Error := { text := "public key" }

def b64 : Base64.Encoding := Base64.RawURLEncoding

lemma b64_lawful : b64.Lawful := Base64.rawURLEncoding_lawful

def parseBase64UInt (s : Bytes) : Except Error ℕ :=
  match b64.decode s with
  | none => .error { text := "illegal base64 data" }
  | some buf => .ok (ofBytes buf)

/-- `curveByName`; unknown names have none. -/
def curveByName (name : String) : Option Curve :=
  if name = "P-224" then some .P224
  else if name = "P-256" then some .P256
  else if name = "P-384" then some .P384
  else if name = "P-521" then some .P521
  else if name = "P-256K" ∨ name = "SECP256K1" ∨ name = "secp256k1" then some .S256
  else none

def curveName : Curve → String
  | .P224 => "P-224"
  | .P256 => "P-256"
  | .P384 => "P-384"
  | .P521 => "P-521"
  | .S256 => "P-256K"
  | .other _ => ""

/-- `int(x.Int64())`. -/
def toInt64 (n : ℕ) : ℤ := Int.bmod n (2 ^ 64)

namespace Jwk

def ecPublicKey (j : Jwk) : Except Error EcdsaPublicKey := do
  let some curve := curveByName j.curve
    | throw { text := "jwk: unknown curve: " ++ j.curve }
  let x ← parseBase64UInt j.x
  let y ← parseBase64UInt j.y
  if ¬ curve.IsOnCurve x y then throw { text := "jwk: invalid point: " ++ toString x ++ ", " ++ toString y }
  pure ⟨curve, x, y⟩

def rsaPublicKey (j : Jwk) : Except Error RsaPublicKey := do
  let n ← parseBase64UInt j.n
  let e ← parseBase64UInt j.e
  pure ⟨n, toInt64 e⟩

def isEC (j : Jwk) : Bool := j.keyType = "EC" || j.keyType = "EC-HSM"

def isRSA (j : Jwk) : Bool := j.keyType = "RSA" || j.keyType = "RSA-HSM"

def PublicKey (j : Jwk) : Except Error Cryptoutils.PublicKey :=
  if j.isEC then j.ecPublicKey.map .ecdsa
  else if j.isRSA then do
    let key ← j.rsaPublicKey
    if key.n = 0 ∨ key.e ≤ 0 then throw { text := "jwk: public key contains zero or negative value" }
    if 2 ^ 31 - 1 < key.e then throw { text := "jwk: public key contains large public exponent" }
    pure (.rsa key)
  else throw { text := "jwk: unknown key type: " ++ j.keyType }

/-- The further primes. -/
def othPrimes : List RsaPrime → Except Error (List ℕ)
  | [] => pure []
  | a :: oth => do
    let r ← parseBase64UInt a.r
    if r = 0 then throw { text := "jwk: private key contains zero or negative prime" }
    let rest ← othPrimes oth
    pure (r :: rest)

/-- `finish` is `Validate` and `Precompute` of `crypto/rsa`. -/
def PrivateKey (finish : RsaPrivateKey → Except Error RsaPrivateKey) (j : Jwk) : Except Error Cryptoutils.PrivateKey :=
  if j.isEC then do
    if j.d = [] then throw ErrPublic
    let pub ← j.ecPublicKey
    let d ← parseBase64UInt j.d
    pure (.ecdsa ⟨pub, d⟩)
  else if j.isRSA then do
    if j.d = [] then throw ErrPublic
    let pub ← j.rsaPublicKey
    let d ← parseBase64UInt j.d
    let p ← parseBase64UInt j.p
    let q ← parseBase64UInt j.q
    let oth ← othPrimes j.oth
    let key ← finish { toRsaPublicKey := pub, d := d, primes := p :: q :: oth }
    pure (.rsa key)
  else throw { text := "jwk: unknown key type: " ++ j.keyType }

end Jwk

/-- The bytes of a number in Base64. -/
def encodeUInt (n : ℕ) : Bytes := b64.encode (bytes n)

def populateECPublicKey (key : EcdsaPublicKey) : Jwk where
  keyType := "EC"
  curve := curveName key.curve
  x := encodeUInt key.x
  y := encodeUInt key.y

def populateRSAPublicKey (key : RsaPublicKey) : Jwk where
  keyType := "RSA"
  n := encodeUInt key.n
  e := encodeUInt key.e.natAbs

def EncodePrivateKey : PrivateKey → Except Error Jwk
  | .ecdsa k => pure { populateECPublicKey k.toEcdsaPublicKey with d := encodeUInt k.d }
  | .rsa k =>
    match k.primes with
    | p :: q :: oth =>
      if k.crtValues.length ≠ oth.length then throw { text := "jwk: invalid RSA primes number" }
      else pure { populateRSAPublicKey k.toRsaPublicKey with
        d := encodeUInt k.d
        p := encodeUInt p
        q := encodeUInt q
        dp := encodeUInt k.dp
        dq := encodeUInt k.dq
        qi := encodeUInt k.qinv
        oth := List.zipWith (fun r crt => ⟨encodeUInt r, encodeUInt crt.exp, encodeUInt crt.coeff⟩) oth k.crtValues }
    | _ => throw { text := "jwk: invalid RSA primes number" }
  | key => throw { text := "jwk: unknown private key type: " ++ key.typeName }

/-! ## EC keys -/

/-- The text decodes to bytes of this number. -/
def HasWidth (width : ℕ) (s : Bytes) : Prop := ∃ buf, b64.decode s = some buf ∧ buf.length = width

/-- What RFC 7518 asks of the fields of an EC key. -/
structure HasFixedWidth (c : Curve) (j : Jwk) : Prop where
  x : HasWidth ((c.Params.bitSize + 7) / 8) j.x
  y : HasWidth ((c.Params.bitSize + 7) / 8) j.y
  d : HasWidth ((bitLen c.Params.n + 7) / 8) j.d

/-- No byte in front is zero. -/
structure NoLeadingZero (k : EcdsaPrivateKey) : Prop where
  x : 256 ^ (k.curve.byteLen - 1) ≤ k.x
  y : 256 ^ (k.curve.byteLen - 1) ≤ k.y
  d : 256 ^ (k.curve.scalarLen - 1) ≤ k.d

lemma decode_encodeUInt (n : ℕ) : b64.decode (encodeUInt n) = some (bytes n) :=
  Base64.Encoding.decode_encode b64_lawful (bytes n)

lemma parseBase64UInt_encodeUInt (n : ℕ) : parseBase64UInt (encodeUInt n) = .ok n := by
  rw [parseBase64UInt, decode_encodeUInt]
  exact congrArg Except.ok (ofBytes_bytes n)

lemma encodeUInt_ne_nil {n : ℕ} (h : n ≠ 0) : encodeUInt n ≠ [] := by
  intro hnil
  have hparse := parseBase64UInt_encodeUInt n
  rw [hnil] at hparse
  exact h (Except.ok.inj hparse).symm

/-- The width is right just when the first byte is not zero. -/
lemma hasWidth_encodeUInt {width n : ℕ} (hpos : 0 < width) (h : n < 256 ^ width) :
    HasWidth width (encodeUInt n) ↔ 256 ^ (width - 1) ≤ n := by
  obtain ⟨k, rfl⟩ : ∃ k, width = k + 1 := ⟨width - 1, by omega⟩
  have hlen : (bytes n).length = byteLen n := length_bytes n
  constructor
  · rintro ⟨buf, hbuf, hwidth⟩
    obtain rfl := Option.some.inj ((decode_encodeUInt n).symm.trans hbuf)
    exact (byteLen_eq_succ.1 (hlen.symm.trans hwidth)).1
  · intro hge
    exact ⟨bytes n, decode_encodeUInt n, hlen.trans (byteLen_eq_succ.2 ⟨hge, h⟩)⟩

lemma curveByName_curveName {c : Curve} (hc : c.Named) : curveByName (curveName c) = some c := by
  cases c with
  | other => exact hc.elim
  | _ => decide

lemma ecPublicKey_populate {k : EcdsaPublicKey} (hc : k.curve.Named) (hon : k.curve.IsOnCurve k.x k.y = true)
    (d : Bytes) : ({ populateECPublicKey k with d := d } : Jwk).ecPublicKey = .ok k := by
  simp only [Jwk.ecPublicKey, populateECPublicKey, curveByName_curveName hc, parseBase64UInt_encodeUInt, bind,
    Except.bind, hon]
  rfl

lemma PrivateKey_EncodePrivateKey {k : EcdsaPrivateKey} (hk : k.Valid)
    (finish : RsaPrivateKey → Except Error RsaPrivateKey) :
    Jwk.PrivateKey finish { populateECPublicKey k.toEcdsaPublicKey with d := encodeUInt k.d } = .ok (.ecdsa k) := by
  have hd : k.d ≠ 0 := by
    have := hk.pos
    omega
  have hpub := ecPublicKey_populate hk.named hk.onCurve (encodeUInt k.d)
  have hec : ({ populateECPublicKey k.toEcdsaPublicKey with d := encodeUInt k.d } : Jwk).isEC = true := rfl
  rw [Jwk.PrivateKey, if_pos hec, if_neg (encodeUInt_ne_nil hd), hpub]
  simp only [bind, Except.bind, parseBase64UInt_encodeUInt]
  rfl

/-- **An EC key is decoded again from its encoding, and its fields have the width they should just when no byte in front
is zero.** -/
theorem ec_jwk_iff {k : EcdsaPrivateKey} (hk : k.Valid) (finish : RsaPrivateKey → Except Error RsaPrivateKey) :
    ∃ j, EncodePrivateKey (.ecdsa k) = .ok j ∧ Jwk.PrivateKey finish j = .ok (.ecdsa k) ∧
      (HasFixedWidth k.curve j ↔ NoLeadingZero k) := by
  have hc := hk.named
  obtain ⟨hx, hy⟩ := Curve.coordinates_lt hc hk.onCurve
  have hlens : 0 < k.curve.byteLen ∧ 0 < k.curve.scalarLen := Curve.lengths_pos hc
  refine ⟨_, rfl, PrivateKey_EncodePrivateKey hk finish, ?_⟩
  constructor
  · rintro ⟨h₁, h₂, h₃⟩
    exact ⟨(hasWidth_encodeUInt hlens.1 hx).1 h₁, (hasWidth_encodeUInt hlens.1 hy).1 h₂,
      (hasWidth_encodeUInt hlens.2 hk.d_lt).1 h₃⟩
  · rintro ⟨h₁, h₂, h₃⟩
    exact ⟨(hasWidth_encodeUInt hlens.1 hx).2 h₁, (hasWidth_encodeUInt hlens.1 hy).2 h₂,
      (hasWidth_encodeUInt hlens.2 hk.d_lt).2 h₃⟩

theorem ec_jwk_of_unitKey :
    ∃ j, EncodePrivateKey (.ecdsa (unitKey .P256)) = .ok j ∧ Jwk.PrivateKey .ok j = .ok (.ecdsa (unitKey .P256)) ∧
      (HasFixedWidth .P256 j ↔ NoLeadingZero (unitKey .P256)) := by
  have hk : (unitKey .P256).Valid := unitKey_valid trivial
  exact ec_jwk_iff hk .ok

/-- The scalar one is written as one byte, in place of 32. -/
theorem short_scalar :
    (unitKey .P256).Valid ∧ ∃ j, EncodePrivateKey (.ecdsa (unitKey .P256)) = .ok j ∧ b64.decode j.d = some [1] ∧
      ¬ HasFixedWidth .P256 j := by
  have hd : b64.decode (encodeUInt 1) = some [1] := by decide +kernel
  refine ⟨unitKey_valid trivial, _, rfl, hd, ?_⟩
  rintro ⟨-, -, buf, hbuf, hwidth⟩
  obtain rfl := Option.some.inj (hd.symm.trans hbuf)
  exact absurd hwidth (by decide +kernel)

end Signatory.Vault.Azure

import Signatory.Lib.BigEndian
import Signatory.Signer.Policy

/-!
# `crypto/elliptic`, and the keys of the standard library

The curves of the packages here are the four NIST curves of the standard library and secp256k1, with the parameters of
FIPS 186 and SEC 2.  A curve of any other package is given by its parameters.  A panic is an error here: nothing after
it is done.
-/

namespace Signatory.Cryptoutils

open Lib.BigEndian
open Signer (Bytes Error)

/-- `y ^ 2 = x ^ 3 + a x + b` modulo `p`, with a base point of order `n`. -/
structure CurveParams where
  p : ℕ
  n : ℕ
  a : ℕ
  b : ℕ
  gx : ℕ
  gy : ℕ
  bitSize : ℕ
  name : String
  deriving DecidableEq

/-- `elliptic.Curve`. -/
inductive Curve where
  | P224
  | P256
  | P384
  | P521
  | S256
  | other (params : CurveParams)
  deriving DecidableEq

namespace Curve

def Params : Curve → CurveParams
  | P224 => {
      p := 2 ^ 224 - 2 ^ 96 + 1
      n := 26959946667150639794667015087019625940457807714424391721682722368061
      a := 2 ^ 224 - 2 ^ 96 - 2
      b := 0xb4050a850c04b3abf54132565044b0b7d7bfd8ba270b39432355ffb4
      gx := 0xb70e0cbd6bb4bf7f321390b94a03c1d356c21122343280d6115c1d21
      gy := 0xbd376388b5f723fb4c22dfe6cd4375a05a07476444d5819985007e34
      bitSize := 224
      name := "P-224" }
  | P256 => {
      p := 2 ^ 256 - 2 ^ 224 + 2 ^ 192 + 2 ^ 96 - 1
      n := 115792089210356248762697446949407573529996955224135760342422259061068512044369
      a := 2 ^ 256 - 2 ^ 224 + 2 ^ 192 + 2 ^ 96 - 4
      b := 0x5ac635d8aa3a93e7b3ebbd55769886bc651d06b0cc53b0f63bce3c3e27d2604b
      gx := 0x6b17d1f2e12c4247f8bce6e563a440f277037d812deb33a0f4a13945d898c296
      gy := 0x4fe342e2fe1a7f9b8ee7eb4a7c0f9e162bce33576b315ececbb6406837bf51f5
      bitSize := 256
      name := "P-256" }
  | P384 => {
      p := 2 ^ 384 - 2 ^ 128 - 2 ^ 96 + 2 ^ 32 - 1
      n := 0xffffffffffffffffffffffffffffffffffffffffffffffffc7634d81f4372ddf581a0db248b0a77aecec196accc52973
      a := 2 ^ 384 - 2 ^ 128 - 2 ^ 96 + 2 ^ 32 - 4
      b := 0xb3312fa7e23ee7e4988e056be3f82d19181d9c6efe8141120314088f5013875ac656398d8a2ed19d2a85c8edd3ec2aef
      gx := 0xaa87ca22be8b05378eb1c71ef320ad746e1d3b628ba79b9859f741e082542a385502f25dbf55296c3a545e3872760ab7
      gy := 0x3617de4a96262c6f5d9e98bf9292dc29f8f41dbd289a147ce9da3113b5f0b8c00a60b1ce1d7e819d7a431d7c90ea0e5f
      bitSize := 384
      name := "P-384" }
  | P521 => {
      p := 2 ^ 521 - 1
      n := 2 ^ 521 - 0x5ae79787c40d069948033feb708f65a2fc44a36477663b851449048e16ec79bf7
      a := 2 ^ 521 - 4
      b := 0x51953eb9618e1c9a1f929a21a0b68540eea2da725b99b315f3b8b489918ef109e1 * 2 ^ 256 +
        0x56193951ec7e937b1652c0bd3bb1bf073573df883d2c34f1ef451fd46b503f00
      gx := 0xc6858e06b70404e9cd9e3ecb662395b4429c648139053fb521f828af606b4d3dba * 2 ^ 256 +
        0xa14b5e77efe75928fe1dc127a2ffa8de3348b3c1856a429bf97e7e31c2e5bd66
      gy := 0x11839296a789a3bc0045c8a5fb42c7d1bd998f54449579b446817afbd17273e662c * 2 ^ 256 +
        0x97ee72995ef42640c550b9013fad0761353c7086a272c24088be94769fd16650
      bitSize := 521
      name := "P-521" }
  | S256 => {
      p := 2 ^ 256 - 2 ^ 32 - 977
      n := 0xfffffffffffffffffffffffffffffffebaaedce6af48a03bbfd25e8cd0364141
      a := 0
      b := 7
      gx := 0x79be667ef9dcbbac55a06295ce870b07029bfcdb2dce28d959f2815b16f81798
      gy := 0x483ada7726a3c4655da4fbfc0e1108a8fd17b448a68554199c47d08ffb10d4b8
      bitSize := 256
      name := "secp256k1" }
  | other params => params

/-- One of the five curves that have a name here. -/
def Named : Curve → Prop
  | other _ => False
  | _ => True

instance : DecidablePred Named := fun c => by cases c <;> unfold Named <;> infer_instance

def IsOnCurve (c : Curve) (x y : ℕ) : Bool :=
  x < c.Params.p && y < c.Params.p &&
    (y * y) % c.Params.p == (x * x * x + c.Params.a * x + c.Params.b) % c.Params.p

/-- The bytes of a coordinate. -/
def byteLen (c : Curve) : ℕ := (c.Params.bitSize + 7) / 8

/-- The bytes of a scalar. -/
def scalarLen (c : Curve) : ℕ := (bitLen c.Params.n + 7) / 8

/-! ## Multiples of the base point -/

/-- `b ^ e` modulo `m`, for an exponent of at most `fuel` bits. -/
def powMod (m : ℕ) : ℕ → ℕ → ℕ → ℕ
  | 0, _, _ => 1 % m
  | fuel + 1, b, e => if e % 2 = 1 then b * powMod m fuel (b * b % m) (e / 2) % m else powMod m fuel (b * b % m) (e / 2)

/-- The inverse modulo a prime. -/
def invMod (p x : ℕ) : ℕ := powMod p (bitLen p) (x % p) (p - 2)

/-- The sum of two points, `none` being the one at infinity. -/
def add (c : Curve) : Option (ℕ × ℕ) → Option (ℕ × ℕ) → Option (ℕ × ℕ)
  | none, q => q
  | p, none => p
  | some (x₁, y₁), some (x₂, y₂) =>
    let p := c.Params.p
    if x₁ = x₂ ∧ (y₁ + y₂) % p = 0 then none
    else
      -- the slope of the tangent, or of the line through the points
      let s := if x₁ = x₂ then (3 * x₁ * x₁ + c.Params.a) * invMod p (2 * y₁) % p
        else (y₂ + p - y₁) * invMod p (x₂ + p - x₁) % p
      let x := (s * s + 2 * p - x₁ - x₂) % p
      some (x, (s * (x₁ + p - x) + p - y₁) % p)

/-- `k` times the base point, for `k` of at most `fuel` bits. -/
def multiple (c : Curve) : ℕ → ℕ → Option (ℕ × ℕ)
  | 0, _ => none
  | fuel + 1, k =>
    if k = 0 then none
    else
      let half := c.multiple fuel (k / 2)
      let twice := c.add half half
      if k % 2 = 1 then c.add twice (some (c.Params.gx, c.Params.gy)) else twice

/-- The point at infinity has the coordinates zero. -/
def ScalarBaseMult (c : Curve) (k : Bytes) : ℕ × ℕ := (c.multiple (8 * k.length) (ofBytes k)).getD (0, 0)

/-! ## Points as bytes -/

/-- `elliptic.Marshal`, the uncompressed form. -/
def Marshal (c : Curve) (x y : ℕ) : Except Error Bytes :=
  if c.IsOnCurve x y then .ok (4 :: (fillBytes c.byteLen x ++ fillBytes c.byteLen y))
  else .error { text := "panic: crypto/elliptic: attempted operation on invalid point" }

/-- `elliptic.Unmarshal`. -/
def Unmarshal (c : Curve) : Bytes → Option (ℕ × ℕ)
  | 4 :: data =>
    let x := ofBytes (data.take c.byteLen)
    let y := ofBytes (data.drop c.byteLen)
    if data.length = 2 * c.byteLen ∧ x < c.Params.p ∧ y < c.Params.p ∧ c.IsOnCurve x y = true then some (x, y)
    else none
  | _ => none

lemma lengths_pos {c : Curve} (hc : c.Named) : 0 < c.byteLen ∧ 0 < c.scalarLen := by
  cases c with
  | other => exact hc.elim
  | _ => decide +kernel

lemma coordinates_lt {c : Curve} (hc : c.Named) {x y : ℕ} (h : c.IsOnCurve x y = true) :
    x < 256 ^ c.byteLen ∧ y < 256 ^ c.byteLen := by
  have hp : c.Params.p ≤ 256 ^ c.byteLen := by
    cases c with
    | other => exact hc.elim
    | _ => decide +kernel
  simp only [IsOnCurve, Bool.and_eq_true, decide_eq_true_eq] at h
  omega

lemma Unmarshal_point {c : Curve} (hc : c.Named) {x y : ℕ} (h : c.IsOnCurve x y = true) :
    c.Unmarshal (4 :: (fillBytes c.byteLen x ++ fillBytes c.byteLen y)) = some (x, y) := by
  obtain ⟨hx, hy⟩ := coordinates_lt hc h
  have htake : (fillBytes c.byteLen x ++ fillBytes c.byteLen y).take c.byteLen = fillBytes c.byteLen x :=
    List.take_left' (length_fillBytes _ _)
  have hdrop : (fillBytes c.byteLen x ++ fillBytes c.byteLen y).drop c.byteLen = fillBytes c.byteLen y :=
    List.drop_left' (length_fillBytes _ _)
  have hon := h
  simp only [IsOnCurve, Bool.and_eq_true, decide_eq_true_eq] at hon
  simp only [Unmarshal, htake, hdrop, ofBytes_fillBytes hx, ofBytes_fillBytes hy]
  refine if_pos ⟨?_, hon.1.1, hon.1.2, h⟩
  simp only [List.length_append, length_fillBytes]
  omega

end Curve

/-! ## Keys -/

/-- `ecdsa.PublicKey`. -/
structure EcdsaPublicKey where
  curve : Curve
  x : ℕ
  y : ℕ
  deriving DecidableEq

/-- `ecdsa.PrivateKey`. -/
structure EcdsaPrivateKey extends EcdsaPublicKey where
  d : ℕ
  deriving DecidableEq

/-- `rsa.PublicKey`. -/
structure RsaPublicKey where
  n : ℕ
  e : ℤ
  deriving DecidableEq

/-- `rsa.CRTValue`, without the product of the primes before. -/
structure CrtValue where
  exp : ℕ
  coeff : ℕ
  deriving DecidableEq

/-- `rsa.PrivateKey` and its precomputed values. -/
structure RsaPrivateKey extends RsaPublicKey where
  d : ℕ
  primes : List ℕ
  dp : ℕ := 0
  dq : ℕ := 0
  qinv : ℕ := 0
  crtValues : List CrtValue := []
  deriving DecidableEq

/-- `crypto.PublicKey`, of the types that occur. -/
inductive PublicKey where
  | ecdsa (k : EcdsaPublicKey)
  | ed25519 (k : Bytes)
  | rsa (k : RsaPublicKey)
  deriving DecidableEq

/-- `crypto.PrivateKey`; of other types the name is all that is used. -/
inductive PrivateKey where
  | ecdsa (k : EcdsaPrivateKey)
  | ed25519 (k : Bytes)
  | rsa (k : RsaPrivateKey)
  | other (typeName : String)
  deriving DecidableEq

/-- The `%T` of a private key. -/
def PrivateKey.typeName : PrivateKey → String
  | ecdsa _ => "*ecdsa.PrivateKey"
  | ed25519 _ => "ed25519.PrivateKey"
  | rsa _ => "*rsa.PrivateKey"
  | other typeName => typeName

/-- A private key on a named curve: the scalar is in range, and the point is its multiple of the base point. -/
structure EcdsaPrivateKey.Valid (k : EcdsaPrivateKey) : Prop where
  named : k.curve.Named
  pos : 1 ≤ k.d
  lt : k.d < k.curve.Params.n
  onCurve : k.curve.IsOnCurve k.x k.y = true
  matching : k.curve.ScalarBaseMult (fillBytes k.curve.scalarLen k.d) = (k.x, k.y)

lemma EcdsaPrivateKey.Valid.d_lt {k : EcdsaPrivateKey} (h : k.Valid) : k.d < 256 ^ k.curve.scalarLen := by
  have hn : k.curve.Params.n < 256 ^ k.curve.scalarLen := byteLen_le.1 le_rfl
  exact h.lt.trans hn

/-- The base point is the key with the scalar one. -/
def unitKey (c : Curve) : EcdsaPrivateKey := ⟨⟨c, c.Params.gx, c.Params.gy⟩, 1⟩

lemma unitKey_valid {c : Curve} (hc : c.Named) : (unitKey c).Valid := by
  cases c with
  | other => exact hc.elim
  | _ => exact ⟨hc, by decide +kernel, by decide +kernel, by decide +kernel, by decide +kernel⟩

end Signatory.Cryptoutils

import Signatory.Cryptoutils.X509

/-!
# Public keys of the services

`pkixPublicKey` is the DER encoding of a public key, which the services return.  Keys on the named curves are parsed; an
RSA key is refused by `x509`, with an error that is not the one that says that a type of keys is not supported.
-/

namespace Signatory.Cryptoutils

open Lib.BigEndian Lib.Der Asn1
open Signer (Bytes Error)

/-! ## The encoding -/

def pkixPublicKey (algo key : Bytes) : Bytes :=
  element SEQUENCE (element SEQUENCE algo ++ element BIT_STRING (bits key))

def ecPublicKeyInfo (k : EcdsaPublicKey) : Bytes := pkixPublicKey (ecAlgorithm k.curve) k.point

def oidPublicKeyRSA : Oid := [1, 2, 840, 113549, 1, 1, 1]

def rsaAlgorithm : Bytes := element OBJECT_IDENTIFIER (oid oidPublicKeyRSA) ++ element 0x05 []

def rsaPublicKeyBytes (k : RsaPublicKey) : Bytes :=
  element SEQUENCE (element INTEGER (natural k.n) ++ element INTEGER (integer k.e))

def rsaPublicKeyInfo (k : RsaPublicKey) : Bytes := pkixPublicKey rsaAlgorithm (rsaPublicKeyBytes k)

/-- The encoding is one of less than a gigabyte. -/
def RsaPublicKey.Small (k : RsaPublicKey) : Prop := (rsaPublicKeyBytes k).length ≤ 2 ^ 30

/-- A point on a named curve. -/
structure EcdsaPublicKey.Valid (k : EcdsaPublicKey) : Prop where
  named : k.curve.Named
  onCurve : k.curve.IsOnCurve k.x k.y = true

section

variable {cb : Cryptobyte} (hcb : cb.Correct)

include hcb

lemma readPKIX_pkixPublicKey {o : Oid} {params key : Bytes} (ho : ValidOid o) (harcs : ∀ n ∈ o, n < 2 ^ 30)
    (hlo : (oid o).length ≤ 9) (hparams : params.length ≤ 50) (hkey : key.length ≤ 2 ^ 30) :
    readPKIX cb (pkixPublicKey (element OBJECT_IDENTIFIER (oid o) ++ params) key) =
      some (o, params, ⟨key, 8 * key.length⟩) := by
  have hlimit := hcb.limit_ge
  have hname : (element OBJECT_IDENTIFIER (oid o)).length ≤ 9 + 6 := length_element_le hlo (by norm_num)
  have halgo : (element OBJECT_IDENTIFIER (oid o) ++ params).length ≤ 65 := by
    rw [List.length_append]
    omega
  have hseq : (element SEQUENCE (element OBJECT_IDENTIFIER (oid o) ++ params)).length ≤ 65 + 6 :=
    length_element_le halgo (by norm_num)
  have hbits : (element BIT_STRING (bits key)).length ≤ 2 ^ 30 + 1 + 6 :=
    length_element_le (Nat.succ_le_succ hkey) (by norm_num)
  have hall : (element SEQUENCE (element OBJECT_IDENTIFIER (oid o) ++ params) ++ element BIT_STRING (bits key)).length ≤
      cb.limit := by
    rw [List.length_append]
    omega
  have h₁ := hcb.ReadASN1_element (show LowTag SEQUENCE by decide) hall []
  rw [List.append_nil] at h₁
  have h₂ := hcb.ReadASN1_element (show LowTag SEQUENCE by decide) (halgo.trans (by omega))
    (element BIT_STRING (bits key))
  have h₃ := hcb.ReadASN1ObjectIdentifier_element ho harcs (hlo.trans (by omega)) params
  have h₄ := hcb.ReadASN1BitString_element (hkey.trans_lt (by omega)) []
  rw [List.append_nil] at h₄
  simp only [readPKIX, pkixPublicKey, h₁, h₂, h₃, h₄, Option.bind_eq_bind, Option.bind_some, Option.pure_def]

omit hcb in
lemma RightAlign_bytes (s : Bytes) : RightAlign ⟨s, 8 * s.length⟩ = s := if_pos (Nat.mul_mod_right 8 s.length)

/-- **A key on a named curve is parsed.** -/
theorem ParsePKIXPublicKey_ecdsa {k : EcdsaPublicKey} (hk : k.Valid) :
    ParsePKIXPublicKey cb (ecPublicKeyInfo k) = .ok (.ecdsa k) := by
  have hc := hk.named
  have hoid := hc.supported.length_oid
  have hparams : (element OBJECT_IDENTIFIER (oid k.curve.oid)).length ≤ 8 + 6 := length_element_le hoid (by norm_num)
  have hread := readPKIX_pkixPublicKey hcb (o := oidPublicKeyECDSA) (by decide) (by decide) (by decide +kernel)
    (hparams.trans (by norm_num)) ((length_point hc).trans (by norm_num))
  have hpoint : k.curve.Unmarshal k.point = some (k.x, k.y) := Curve.Unmarshal_point hc hk.onCurve
  simp only [ParsePKIXPublicKey, ecPublicKeyInfo, ecAlgorithm, hread, if_true,
    readCurve_oid hcb hc.supported.validOid hc.supported.arcs_lt hoid, RightAlign_bytes, bind, Except.bind,
    Option.bind_some, hc.supported.fromOID, hpoint]
  rfl

/-- **An RSA key is refused.** -/
theorem ParsePKIXPublicKey_rsa {k : RsaPublicKey} (hk : k.Small) :
    ParsePKIXPublicKey cb (rsaPublicKeyInfo k) = .error { text := "x509: unsupported algorithm: [5 0]" } := by
  have hread := readPKIX_pkixPublicKey hcb (o := oidPublicKeyRSA) (by decide) (by decide) (by decide +kernel)
    (show (element 0x05 []).length ≤ 50 by decide) hk
  have h₁ : oidPublicKeyRSA ≠ oidPublicKeyECDSA := by decide
  have h₂ : oidPublicKeyRSA ≠ oidPublicKeyEd25519 := by decide
  simp only [ParsePKIXPublicKey, rsaPublicKeyInfo, rsaAlgorithm, hread, if_neg h₁, if_neg h₂]
  rfl

end

/-! ## `cryptoutils` -/

/-- The errors of `crypt`, of which `ErrUnsupportedKeyType` is compared with. -/
inductive CryptError where
  | unsupportedKeyType
  | other (e : Error)
  deriving DecidableEq

/-- `crypt.NewPublicKeyFrom` of gotez; a key is wrapped as it is. -/
structure Crypt where
  NewPublicKeyFrom : PublicKey → Except CryptError PublicKey
  /-- The curves whose keys are accepted. -/
  Supported : Curve → Prop

/-- What is documented: keys on the curves that Tezos uses are among those accepted, RSA keys are not. -/
structure Crypt.Correct (cr : Crypt) : Prop where
  ecdsa {k : EcdsaPublicKey} : cr.Supported k.curve → cr.NewPublicKeyFrom (.ecdsa k) = .ok (.ecdsa k)
  rsa (k : RsaPublicKey) : cr.NewPublicKeyFrom (.rsa k) = .error .unsupportedKeyType
  P256 : cr.Supported .P256
  S256 : cr.Supported .S256

/-- `cryptoutils.ParsePKIXPublicKey`. -/
def Crypt.ParsePKIXPublicKey (cr : Crypt) (cb : Cryptobyte) (der : Bytes) : Except CryptError PublicKey := do
  let key ← (Cryptoutils.ParsePKIXPublicKey cb der).mapError .other
  cr.NewPublicKeyFrom key

lemma Crypt.ParsePKIXPublicKey_ecdsa {cr : Crypt} (hcr : cr.Correct) {cb : Cryptobyte} (hcb : cb.Correct)
    {k : EcdsaPublicKey} (hk : k.Valid) (hs : cr.Supported k.curve) :
    cr.ParsePKIXPublicKey cb (ecPublicKeyInfo k) = .ok (.ecdsa k) := by
  rw [Crypt.ParsePKIXPublicKey, Cryptoutils.ParsePKIXPublicKey_ecdsa hcb hk]
  exact hcr.ecdsa hs

/-- The error of an RSA key is not the one that says so. -/
lemma Crypt.ParsePKIXPublicKey_rsa (cr : Crypt) {cb : Cryptobyte} (hcb : cb.Correct) {k : RsaPublicKey} (hk : k.Small) :
    cr.ParsePKIXPublicKey cb (rsaPublicKeyInfo k) =
      .error (.other { text := "x509: unsupported algorithm: [5 0]" }) := by
  rw [Crypt.ParsePKIXPublicKey, Cryptoutils.ParsePKIXPublicKey_rsa hcb hk]
  rfl

/-- Keys on the two curves that Tezos uses, and Ed25519 keys. -/
def tezosCrypt : Crypt where
  NewPublicKeyFrom
    | .ecdsa k => if k.curve = .P256 ∨ k.curve = .S256 then .ok (.ecdsa k) else .error .unsupportedKeyType
    | .ed25519 k => .ok (.ed25519 k)
    | .rsa _ => .error .unsupportedKeyType
  Supported c := c = .P256 ∨ c = .S256

lemma tezosCrypt_correct : tezosCrypt.Correct where
  ecdsa h := if_pos h
  rsa _ := rfl
  P256 := Or.inl rfl
  S256 := Or.inr rfl

end Signatory.Cryptoutils

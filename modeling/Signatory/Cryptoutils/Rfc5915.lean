import Signatory.Cryptoutils.X509

/-!
# PKCS#8 files of EC keys

`Rfc5915Key` is a key with the choices that RFC 5208 and RFC 5915 leave to the one who writes it, and `encode` the file.
The optional fields of the EC key have the context-specific tags `[0]` and `[1]`, that is the bytes `0xA0` and `0xA1`.

`MarshalPKCS8PrivateKey` writes the bytes 0 and 1 in their place, and `ParsePKCS8PrivateKey` looks for a 0, so that a
curve that is only named there is missed: `ec_files_iff`.
-/

namespace Signatory.Cryptoutils

open Lib.BigEndian Lib.Der Asn1
open Signer (Bytes Error)

/-- The parameters in the algorithm identifier. -/
inductive AlgorithmParameters where
  | namedCurve
  | null
  | absent
  deriving DecidableEq

/-- The forms of a point. -/
inductive PointForm where
  | uncompressed
  | compressed
  deriving DecidableEq

/-- What is in the file. -/
structure EcKeyFile where
  curve : Curve
  d : ℕ
  /-- The parameters in the algorithm identifier. -/
  algorithm : AlgorithmParameters
  /-- Whether the parameters are in the EC key. -/
  parameters : Bool
  publicKey : Option PointForm
  /-- The contents of the set of attributes. -/
  attributes : Option Bytes

namespace EcKeyFile

variable (key : EcKeyFile)

def parametersBytes : Bytes :=
  match key.algorithm with
  | .namedCurve => element OBJECT_IDENTIFIER (oid key.curve.oid)
  | .null => element 0x05 []
  | .absent => []

/-- The public key as bytes. -/
def pointBytes (form : PointForm) : Bytes :=
  let (x, y) := key.curve.ScalarBaseMult (fillBytes key.curve.scalarLen key.d)
  match form with
  | .uncompressed => 4 :: (fillBytes key.curve.byteLen x ++ fillBytes key.curve.byteLen y)
  | .compressed => (if y % 2 = 0 then 2 else 3) :: fillBytes key.curve.byteLen x

/-- The field `[0]` of the EC key. -/
def curveField : Bytes :=
  if key.parameters then element 0xA0 (element OBJECT_IDENTIFIER (oid key.curve.oid)) else []

/-- The field `[1]` of the EC key. -/
def publicKeyField : Bytes :=
  match key.publicKey with
  | none => []
  | some form => element 0xA1 (element BIT_STRING (bits (key.pointBytes form)))

def keyData : Bytes := ecPrivateKey (fillBytes key.curve.scalarLen key.d) (key.curveField ++ key.publicKeyField)

def attributesBytes : Bytes :=
  match key.attributes with
  | none => []
  | some attributes => element 0xA0 attributes

def contents : Bytes :=
  infoContents (element OBJECT_IDENTIFIER (oid oidPublicKeyECDSA) ++ key.parametersBytes) key.keyData
    key.attributesBytes

def encode : Bytes :=
  privateKeyInfo (element OBJECT_IDENTIFIER (oid oidPublicKeyECDSA) ++ key.parametersBytes) key.keyData
    key.attributesBytes

end EcKeyFile

/-- A file of a key on one of the named curves, whose name is in at least one of the two places. -/
structure Rfc5915Key extends EcKeyFile where
  named : curve.Named
  pos : 1 ≤ d
  lt : d < curve.Params.n
  given : algorithm = .namedCurve ∨ parameters = true
  hasDerLength : HasDerLength toEcKeyFile.contents

/-- The contents of the EC key in a file. -/
def ecPrivateKeyIn (der : Bytes) : Option Bytes := do
  let (obj, _) ← read SEQUENCE der
  let (_, obj) ← read INTEGER obj
  let (_, obj) ← read SEQUENCE obj
  let (keyData, _) ← read OCTET_STRING obj
  let (obj, _) ← read SEQUENCE keyData
  pure obj

/-- The EC key in the file ends with the curve under `[0]` and the point under `[1]`. -/
def HasTaggedFields (k : EcdsaPublicKey) (der : Bytes) : Prop :=
  ∃ obj front, ecPrivateKeyIn der = some obj ∧
    obj = front ++ (element 0xA0 (element OBJECT_IDENTIFIER (oid k.curve.oid)) ++
      element 0xA1 (element BIT_STRING (bits k.point)))

/-! ## What is written -/

lemma ecPrivateKeyIn_privateKeyInfo {algo priv rest : Bytes} (halgo : algo.length ≤ 100) (hpriv : priv.length ≤ 66)
    (hrest : rest.length ≤ 200) :
    ecPrivateKeyIn (privateKeyInfo algo (ecPrivateKey priv rest) []) =
      some (element INTEGER [1] ++ (element OCTET_STRING priv ++ rest)) := by
  have hfields := length_ecFields hpriv hrest
  have hkey := length_ecPrivateKey hpriv hrest (by norm_num)
  have hlen : (infoContents algo (ecPrivateKey priv rest) []).length ≤ 0 + 1115 :=
    length_infoContents halgo (hkey.trans (by norm_num)) le_rfl
  have hseq := read_element (show LowTag SEQUENCE by decide) (hlen.trans_lt (by norm_num)) []
  have hint : ∀ s, read INTEGER (element INTEGER [0] ++ s) = some ([0], s) :=
    read_element (by decide) (by simp)
  have halg := read_element (show LowTag SEQUENCE by decide) (halgo.trans_lt (by norm_num))
    (element OCTET_STRING (ecPrivateKey priv rest) ++ [])
  have hdata := read_element (show LowTag OCTET_STRING by decide) (hkey.trans_lt (by norm_num)) []
  have hec := read_element (show LowTag SEQUENCE by decide) (hfields.trans_lt (by norm_num)) []
  rw [List.append_nil] at hseq hec
  simp only [ecPrivateKeyIn, privateKeyInfo, hseq, Option.bind_eq_bind, Option.bind_some, Option.pure_def]
  simp only [infoContents, hint, halg, hdata, Option.bind_some]
  simp only [ecPrivateKey, hec, Option.bind_some]

lemma not_hasTaggedFields {k : EcdsaPrivateKey} (hc : k.curve.Named) :
    ¬ HasTaggedFields k.toEcdsaPublicKey (privateKeyInfo (ecAlgorithm k.curve) (ecKeyData k) []) := by
  rintro ⟨obj, front, hobj, heq⟩
  have hpriv := length_scalar hc k.d
  have hread := ecPrivateKeyIn_privateKeyInfo ((length_ecAlgorithm hc).trans (by norm_num)) hpriv
    ((length_optionalFields hc).trans (by norm_num))
  rw [ecKeyData, hread, Option.some.injEq] at hobj
  rw [← hobj, optionalFields] at heq
  simp only [← List.append_assoc] at heq
  have hlast := List.append_inj_right' heq (by simp [element])
  have htag : (1 : UInt8) = 0xA1 := (List.cons.inj hlast).1
  exact absurd htag (by decide)

/-! ## What is read -/

/-- The parser returns a key with the curve and the scalar of the file. -/
def IsReadBack (cb : Cryptobyte) (NewKeyFromSeed : Bytes → Bytes) (key : EcKeyFile) : Prop :=
  ∃ k, ParsePKCS8PrivateKey cb NewKeyFromSeed key.encode = .ok (.ecdsa k) ∧ k.curve = key.curve ∧ k.d = key.d

namespace EcKeyFile

variable {key : EcKeyFile}

lemma length_parametersBytes (hc : key.curve.Named) : key.parametersBytes.length ≤ 14 := by
  unfold parametersBytes
  cases key.algorithm with
  | namedCurve => exact length_element_le hc.supported.length_oid (by norm_num)
  | null => exact (by decide : (element 0x05 []).length ≤ 14)
  | absent => exact Nat.zero_le _

lemma length_pointBytes (hc : key.curve.Named) (form : PointForm) : (key.pointBytes form).length ≤ 133 := by
  have := hc.supported.byteLen_le
  cases form with
  | uncompressed =>
    simp only [pointBytes, List.length_cons, List.length_append, length_fillBytes]
    omega
  | compressed =>
    simp only [pointBytes, List.length_cons, length_fillBytes]
    omega

lemma length_curveField (hc : key.curve.Named) : key.curveField.length ≤ 20 := by
  have hname : (element OBJECT_IDENTIFIER (oid key.curve.oid)).length ≤ 8 + 6 :=
    length_element_le hc.supported.length_oid (by norm_num)
  unfold curveField
  split
  · exact length_element_le hname (by norm_num)
  · exact Nat.zero_le _

lemma length_publicKeyField (hc : key.curve.Named) : key.publicKeyField.length ≤ 146 := by
  unfold publicKeyField
  cases key.publicKey with
  | none => exact Nat.zero_le _
  | some form =>
    have hbits : (bits (key.pointBytes form)).length ≤ 134 := Nat.succ_le_succ (length_pointBytes hc form)
    exact length_element_le (length_element_le hbits (by norm_num)) (by norm_num)

lemma length_fields (hc : key.curve.Named) : (key.curveField ++ key.publicKeyField).length ≤ 166 := by
  have h₁ := length_curveField hc
  have h₂ := length_publicKeyField hc
  rw [List.length_append]
  omega

lemma head?_fields : (key.curveField ++ key.publicKeyField).head? ≠ some 0 := by
  unfold curveField publicKeyField
  split
  · simp [element]
  · cases key.publicKey with
    | none => simp
    | some form => simp [element]

/-- The scalar is read, and never a curve. -/
lemma readECPrivateKey_keyData {cb : Cryptobyte} (hcb : cb.Correct) (hc : key.curve.Named) :
    readECPrivateKey cb key.keyData = some (fillBytes key.curve.scalarLen key.d, none) := by
  have hpriv := length_scalar hc key.d
  exact readECPrivateKey_absent hcb hpriv (length_fields hc) (by norm_num) head?_fields

lemma readCurve_parametersBytes {cb : Cryptobyte} (hcb : cb.Correct) (hc : key.curve.Named) :
    readCurve cb key.parametersBytes =
      .ok (if key.algorithm = .namedCurve then some key.curve.oid else none) := by
  unfold parametersBytes
  cases key.algorithm with
  | namedCurve => exact readCurve_oid hcb hc.supported.validOid hc.supported.arcs_lt hc.supported.length_oid
  | null => exact readCurve_absent hcb (by simp [element, OBJECT_IDENTIFIER])
  | absent => exact readCurve_absent hcb (by simp)

/-- The file is read up to the EC key, if it is not too long. -/
lemma ParsePKCS8PrivateKey_encode {cb : Cryptobyte} (hcb : cb.Correct) (hc : key.curve.Named)
    (hlen : key.contents.length ≤ cb.limit) (NewKeyFromSeed : Bytes → Bytes) :
    ParsePKCS8PrivateKey cb NewKeyFromSeed key.encode =
      parseECDSAPrivateKey cb (if key.algorithm = .namedCurve then some key.curve.oid else none) key.keyData := by
  have hpriv := length_scalar hc key.d
  have hdata : key.keyData.length ≤ 166 + 81 := length_ecPrivateKey hpriv (length_fields hc) (by norm_num)
  have hparams := length_parametersBytes hc
  rw [encode, ParsePKCS8PrivateKey_ec hcb (hparams.trans (by norm_num)) (hdata.trans (by norm_num)) hlen,
    readCurve_parametersBytes hcb hc]
  rfl

lemma isReadBack_of_namedCurve {cb : Cryptobyte} (hcb : cb.Correct) (hc : key.curve.Named)
    (hd : key.d < key.curve.Params.n) (hlen : key.contents.length ≤ cb.limit) (hnamed : key.algorithm = .namedCurve)
    (NewKeyFromSeed : Bytes → Bytes) : IsReadBack cb NewKeyFromSeed key := by
  have hcurve : (some key.curve.oid <|> none) = some key.curve.oid := rfl
  have hencode := ParsePKCS8PrivateKey_encode hcb hc hlen NewKeyFromSeed
  rw [if_pos hnamed, parseECDSAPrivateKey_eq hc hd (readECPrivateKey_keyData hcb hc) hcurve] at hencode
  exact ⟨_, hencode, rfl, rfl⟩

lemma missing_curve {cb : Cryptobyte} (hcb : cb.Correct) (hc : key.curve.Named) (hlen : key.contents.length ≤ cb.limit)
    (hnamed : key.algorithm ≠ .namedCurve) (NewKeyFromSeed : Bytes → Bytes) :
    ParsePKCS8PrivateKey cb NewKeyFromSeed key.encode = .error { text := "x509: missing curve OID" } := by
  rw [ParsePKCS8PrivateKey_encode hcb hc hlen, if_neg hnamed, parseECDSAPrivateKey, readECPrivateKey_keyData hcb hc]
  rfl

lemma too_long {cb : Cryptobyte} (hcb : cb.Correct) (hlen : cb.limit < key.contents.length)
    (hder : HasDerLength key.contents) (NewKeyFromSeed : Bytes → Bytes) :
    ParsePKCS8PrivateKey cb NewKeyFromSeed key.encode =
      .error { text := "x509: failed to parse PKCS#8 private key" } := by
  have hseq := hcb.ReadASN1_long (show LowTag SEQUENCE by decide) hlen hder []
  rw [List.append_nil] at hseq
  have hread : readPKCS8 cb key.encode = none := by
    have hencode : key.encode = element SEQUENCE key.contents := rfl
    simp only [readPKCS8, hencode, hseq, Option.bind_eq_bind, Option.bind_none]
  rw [ParsePKCS8PrivateKey, hread]
  rfl

end EcKeyFile

/-- **No EC key is written with the tags of RFC 5915, and a file is read back exactly when its algorithm identifier
names the curve** (and it is not longer than the reader allows). -/
theorem ec_files_iff {cb : Cryptobyte} (hcb : cb.Correct) (NewKeyFromSeed : Bytes → Bytes) :
    (∀ k : EcdsaPrivateKey, k.Valid →
      ∃ der, MarshalPKCS8PrivateKey cb (.ecdsa k) = .ok der ∧ ¬ HasTaggedFields k.toEcdsaPublicKey der) ∧
    ∀ key : Rfc5915Key, IsReadBack cb NewKeyFromSeed key.toEcKeyFile ↔
      key.algorithm = .namedCurve ∧ key.contents.length ≤ cb.limit := by
  constructor
  · intro k hk
    exact ⟨_, MarshalPKCS8PrivateKey_ecdsa hcb hk, not_hasTaggedFields hk.named⟩
  · intro key
    constructor
    · rintro ⟨k, hparse, -⟩
      have hlen : key.contents.length ≤ cb.limit := by
        by_contra h
        rw [EcKeyFile.too_long hcb (not_le.1 h) key.hasDerLength] at hparse
        cases hparse
      refine ⟨?_, hlen⟩
      by_contra hnamed
      rw [EcKeyFile.missing_curve hcb key.named hlen hnamed] at hparse
      cases hparse
    · rintro ⟨hnamed, hlen⟩
      exact EcKeyFile.isReadBack_of_namedCurve hcb key.named key.lt hlen hnamed NewKeyFromSeed

/-- The key with the scalar one on P-256, named in the EC key only, or in the algorithm identifier. -/
def unitFile (algorithm : AlgorithmParameters) : EcKeyFile := ⟨.P256, 1, algorithm, true, some .uncompressed, none⟩

lemma length_unitFile (algorithm : AlgorithmParameters) : (unitFile algorithm).contents.length ≤ 200 := by
  cases algorithm <;> decide +kernel

def unitRfc5915Key (algorithm : AlgorithmParameters) : Rfc5915Key where
  toEcKeyFile := unitFile algorithm
  named := trivial
  pos := le_rfl
  lt := (by decide +kernel : 1 < Curve.P256.Params.n)
  given := Or.inr rfl
  hasDerLength := byteLen_le.2 ((length_unitFile algorithm).trans_lt (by norm_num))

theorem ec_files_of_derbyte :
    (∃ der, MarshalPKCS8PrivateKey derbyte (.ecdsa (unitKey .P256)) = .ok der ∧
      ¬ HasTaggedFields (unitKey .P256).toEcdsaPublicKey der) ∧
    (IsReadBack derbyte id (unitFile .namedCurve) ↔ AlgorithmParameters.namedCurve = .namedCurve ∧
      (unitFile .namedCurve).contents.length ≤ derbyte.limit) := by
  have h := ec_files_iff derbyte_correct id
  exact ⟨h.1 _ (unitKey_valid trivial), h.2 (unitRfc5915Key .namedCurve)⟩

/-- The base point of P-256 is written with the wrong tags, and its file with the curve in the EC key is refused. -/
theorem ec_file_refused :
    (unitKey .P256).Valid ∧
    (∃ der, MarshalPKCS8PrivateKey derbyte (.ecdsa (unitKey .P256)) = .ok der ∧
      ¬ HasTaggedFields (unitKey .P256).toEcdsaPublicKey der) ∧
    ParsePKCS8PrivateKey derbyte id (unitRfc5915Key .absent).encode =
      .error { text := "x509: missing curve OID" } := by
  have hk : (unitKey .P256).Valid := unitKey_valid trivial
  refine ⟨hk, ⟨_, MarshalPKCS8PrivateKey_ecdsa derbyte_correct hk, not_hasTaggedFields trivial⟩, ?_⟩
  have hlen : (unitFile .absent).contents.length ≤ derbyte.limit := (length_unitFile .absent).trans (by decide)
  exact EcKeyFile.missing_curve derbyte_correct (unitRfc5915Key .absent).named hlen (by decide) id

end Signatory.Cryptoutils

import Signatory.Cryptoutils.Cryptobyte
import Signatory.Cryptoutils.Elliptic

/-!
# `cryptoutils/x509`

The encoder and the two parsers of keys.  What the encoder writes for a key on a named curve is `pkcs8`, and the parser
returns the key again (`ParsePKCS8PrivateKey_pkcs8`).  The encoder and the parser both take 0 and 1 for the tags of the
optional fields of an EC key.  The parser of public keys knows EC and Ed25519 keys only.
-/

namespace Signatory.Cryptoutils

open Lib.BigEndian Lib.Der Asn1
open Signer (Bytes Error)

def oidPublicKeyECDSA : Oid := [1, 2, 840, 10045, 2, 1]
def oidPublicKeyEd25519 : Oid := [1, 3, 101, 112]

def oidNamedCurveP224 : Oid := [1, 3, 132, 0, 33]
def oidNamedCurveP256 : Oid := [1, 2, 840, 10045, 3, 1, 7]
def oidNamedCurveP384 : Oid := [1, 3, 132, 0, 34]
def oidNamedCurveP521 : Oid := [1, 3, 132, 0, 35]
def oidNamedCurveS256 : Oid := [1, 3, 132, 0, 10]

def namedCurveFromOID (oid : Oid) : Option Curve :=
  if oid = oidNamedCurveP224 then some .P224
  else if oid = oidNamedCurveP256 then some .P256
  else if oid = oidNamedCurveP384 then some .P384
  else if oid = oidNamedCurveP521 then some .P521
  else if oid = oidNamedCurveS256 then some .S256
  else none

def oidFromNamedCurve : Curve → Option Oid
  | .P224 => some oidNamedCurveP224
  | .P256 => some oidNamedCurveP256
  | .P384 => some oidNamedCurveP384
  | .P521 => some oidNamedCurveP521
  | .S256 => some oidNamedCurveS256
  | .other _ => none

/-- A byte string, as `%v` prints it. -/
def bytesText (s : Bytes) : String := "[" ++ " ".intercalate (s.map fun b => toString b.toNat) ++ "]"

def SeedSize : ℕ := 32

section Parse

variable (cb : Cryptobyte)

/-- The curve among the optional fields of an EC key, if it is there. -/
def readOptionalCurve (obj : Bytes) : Option (Option Oid) := do
  let (optCurveData, _) ← cb.ReadOptionalASN1 0 obj
  match optCurveData with
  | none => pure none
  | some s => do
    let (optCurveOid, _) ← cb.ReadASN1ObjectIdentifier s
    pure (some optCurveOid)

/-- The fields of an EC key that are read. -/
def readECPrivateKey (data : Bytes) : Option (Bytes × Option Oid) := do
  let (obj, _) ← cb.ReadASN1 SEQUENCE data
  let (_, obj) ← cb.ReadASN1Integer obj
  let (keyData, obj) ← cb.ReadASN1 OCTET_STRING obj
  let optCurveOid ← readOptionalCurve cb obj
  pure (keyData, optCurveOid)

/-- The loop that takes bytes of zero off the front until `size` are left. -/
def shorten (size : ℕ) : Bytes → Except Error Bytes
  | [] => .ok []
  | b :: keyData =>
    if keyData.length < size then .ok (b :: keyData)
    else if b ≠ 0 then .error { text := "x509: invalid private key length" }
    else shorten size keyData

def parseECDSAPrivateKey (curveOid : Option Oid) (data : Bytes) : Except Error PrivateKey := do
  let some (keyData, optCurveOid) := readECPrivateKey cb data
    | throw { text := "x509: failed to parse EC private key" }
  let some curveOid := curveOid <|> optCurveOid
    | throw { text := "x509: missing curve OID" }
  let some curve := namedCurveFromOID curveOid
    | throw { text := "x509: unknown curve: " ++ curveOid.text }
  let keyData ← shorten curve.scalarLen keyData
  let priv := List.replicate (curve.scalarLen - keyData.length) 0 ++ keyData
  let d := ofBytes priv
  if curve.Params.n ≤ d then throw { text := "x509: invalid EC private key" }
  let (x, y) := curve.ScalarBaseMult priv
  pure (.ecdsa ⟨⟨curve, x, y⟩, d⟩)

/-- The algorithm, its parameters, and the contents of the key. -/
def readPKCS8 (der : Bytes) : Option (Oid × Bytes × Bytes) := do
  let (obj, _) ← cb.ReadASN1 SEQUENCE der
  let (_, obj) ← cb.ReadASN1Integer obj
  let (algo, obj) ← cb.ReadASN1 SEQUENCE obj
  let (algoOid, algo) ← cb.ReadASN1ObjectIdentifier algo
  let (keyData, _) ← cb.ReadASN1 OCTET_STRING obj
  pure (algoOid, algo, keyData)

/-- The named curve in the parameters of the algorithm, if there is one. -/
def readCurve (algo : Bytes) : Except Error (Option Oid) :=
  if cb.PeekASN1Tag OBJECT_IDENTIFIER algo then
    match cb.ReadASN1ObjectIdentifier algo with
    | none => .error { text := "x509: failed to parse EC OID" }
    | some (curve, _) => .ok (some curve)
  else .ok none

/-- `ed25519.NewKeyFromSeed` is a parameter. -/
def ParsePKCS8PrivateKey (NewKeyFromSeed : Bytes → Bytes) (der : Bytes) : Except Error PrivateKey := do
  let some (algoOid, algo, keyData) := readPKCS8 cb der
    | throw { text := "x509: failed to parse PKCS#8 private key" }
  if algoOid = oidPublicKeyECDSA then
    let curve ← readCurve cb algo
    parseECDSAPrivateKey cb curve keyData
  else if algoOid = oidPublicKeyEd25519 then
    let some (priv, _) := cb.ReadASN1 OCTET_STRING keyData
      | throw { text := "x509: failed to parse Ed25519 private key" }
    if priv.length ≠ SeedSize then
      throw { text := "x509: invalid Ed25519 private key length: " ++ toString priv.length }
    pure (.ed25519 (NewKeyFromSeed priv))
  else throw { text := "x509: unsupported algorithm: " ++ bytesText algo }

/-- `BitString.RightAlign`: the bits that fill up the last byte come first. -/
def RightAlign (s : BitString) : Bytes :=
  if s.bitLength % 8 = 0 then s.bytes else fillBytes s.bytes.length (ofBytes s.bytes / 2 ^ (8 - s.bitLength % 8))

/-- The algorithm, its parameters, and the bits of the key. -/
def readPKIX (der : Bytes) : Option (Oid × Bytes × BitString) := do
  let (obj, _) ← cb.ReadASN1 SEQUENCE der
  let (algo, obj) ← cb.ReadASN1 SEQUENCE obj
  let (algoOid, algo) ← cb.ReadASN1ObjectIdentifier algo
  let (keyData, _) ← cb.ReadASN1BitString obj
  pure (algoOid, algo, keyData)

def ParsePKIXPublicKey (der : Bytes) : Except Error PublicKey := do
  let some (algoOid, algo, keyData) := readPKIX cb der
    | throw { text := "x509: failed to parse PKIX public key" }
  let keyBytes := RightAlign keyData
  if algoOid = oidPublicKeyECDSA then
    let curveOid ← readCurve cb algo
    let some curve := curveOid.bind namedCurveFromOID
      | throw { text := "x509: unknown curve: " ++ (curveOid.getD []).text }
    let some (x, y) := curve.Unmarshal keyBytes
      | throw { text := "x509: invalid EC point" }
    pure (.ecdsa ⟨curve, x, y⟩)
  else if algoOid = oidPublicKeyEd25519 then
    if keyBytes.length ≠ 32 then
      throw { text := "x509: invalid Ed25519 public key length: " ++ toString keyBytes.length }
    pure (.ed25519 keyBytes)
  else throw { text := "x509: unsupported algorithm: " ++ bytesText algo }

end Parse

section Marshal

variable (cb : Cryptobyte)

/-- The algorithm identifier. -/
def addAlgorithm (key : PrivateKey) (b : cb.Builder) : cb.Builder :=
  match key with
  | .ecdsa k =>
    let b := cb.AddASN1ObjectIdentifier oidPublicKeyECDSA b
    match oidFromNamedCurve k.curve with
    -- a curve without a name here is one of `elliptic.CurveParams`
    | none => cb.SetError { text := "x509: unknown curve: *elliptic.CurveParams" } b
    | some curveOid => cb.AddASN1ObjectIdentifier curveOid b
  | .ed25519 _ => cb.AddASN1ObjectIdentifier oidPublicKeyEd25519 b
  | key => cb.SetError { text := "x509: unsupported private key type " ++ key.typeName } b

/-- `ECPrivateKey`, with the scalar and the point as bytes. -/
def addECPrivateKey (curveOid : Oid) (priv point : Bytes) (b : cb.Builder) : cb.Builder :=
  cb.AddASN1 SEQUENCE
    (fun b =>
      let b := cb.AddASN1Int64 1 b
      let b := cb.AddASN1OctetString priv b
      let b := cb.AddASN1 0 (cb.AddASN1ObjectIdentifier curveOid) b
      cb.AddASN1 1 (cb.AddASN1BitString point) b)
    b

/-- The contents of the key; the panics of `FillBytes` and `elliptic.Marshal` are the errors of the outer one. -/
def keyBytes (key : PrivateKey) : Except Error (Except Error Bytes) :=
  match key with
  | .ecdsa k => do
    if 256 ^ k.curve.scalarLen ≤ k.d then throw { text := "panic: math/big: buffer too small to fit value" }
    let priv := fillBytes k.curve.scalarLen k.d
    let point ← k.curve.Marshal k.x k.y
    -- the name of a curve that has none is nil
    let curveOid := (oidFromNamedCurve k.curve).getD []
    pure (cb.Bytes (addECPrivateKey cb curveOid priv point cb.empty))
  | .ed25519 k => pure (cb.Bytes (cb.AddASN1OctetString (k.take SeedSize) cb.empty))
  | key => pure (.error { text := "x509: unsupported private key type " ++ key.typeName })

def MarshalPKCS8PrivateKey (key : PrivateKey) : Except Error Bytes := do
  let keyBytes ← keyBytes cb key
  cb.Bytes <| cb.AddASN1 SEQUENCE
    (fun b =>
      let b := cb.AddASN1Int64 0 b
      let b := cb.AddASN1 SEQUENCE (addAlgorithm cb key) b
      match keyBytes with
      | .error e => cb.SetError e b
      | .ok keyBytes => cb.AddASN1OctetString keyBytes b)
    cb.empty

end Marshal

/-! ## What is written -/

/-- The name of a named curve. -/
def Curve.oid (c : Curve) : Oid := (oidFromNamedCurve c).getD []

/-- What the proofs need of a named curve and its name. -/
structure Curve.Supported (c : Curve) : Prop where
  oidFrom : oidFromNamedCurve c = some c.oid
  fromOID : namedCurveFromOID c.oid = some c
  validOid : ValidOid c.oid
  arcs_lt : ∀ n ∈ c.oid, n < 2 ^ 30
  length_oid : (Lib.Der.oid c.oid).length ≤ 8
  scalarLen_le : c.scalarLen ≤ 66
  byteLen_le : c.byteLen ≤ 66

lemma Curve.Named.supported {c : Curve} (hc : c.Named) : c.Supported := by
  cases c with
  | other => exact hc.elim
  | _ => exact ⟨rfl, by decide, by decide, by decide, by decide +kernel, by decide +kernel, by decide +kernel⟩

/-- The contents of a `PrivateKeyInfo` of version 0, with what may follow the key. -/
def infoContents (algo keyData rest : Bytes) : Bytes :=
  element INTEGER [0] ++ (element SEQUENCE algo ++ (element OCTET_STRING keyData ++ rest))

def privateKeyInfo (algo keyData rest : Bytes) : Bytes := element SEQUENCE (infoContents algo keyData rest)

/-- `ECPrivateKey` of version 1, with what may follow the scalar. -/
def ecPrivateKey (priv rest : Bytes) : Bytes :=
  element SEQUENCE (element INTEGER [1] ++ (element OCTET_STRING priv ++ rest))

/-- The algorithm identifier of a key on a named curve. -/
def ecAlgorithm (c : Curve) : Bytes :=
  element OBJECT_IDENTIFIER (oid oidPublicKeyECDSA) ++ element OBJECT_IDENTIFIER (oid c.oid)

/-- The uncompressed point. -/
def EcdsaPublicKey.point (k : EcdsaPublicKey) : Bytes :=
  4 :: (fillBytes k.curve.byteLen k.x ++ fillBytes k.curve.byteLen k.y)

/-- The optional fields as they are written. -/
def optionalFields (k : EcdsaPublicKey) : Bytes :=
  element 0 (element OBJECT_IDENTIFIER (oid k.curve.oid)) ++ element 1 (element BIT_STRING (bits k.point))

/-- The EC key as it is written. -/
def ecKeyData (k : EcdsaPrivateKey) : Bytes :=
  ecPrivateKey (fillBytes k.curve.scalarLen k.d) (optionalFields k.toEcdsaPublicKey)

/-! ### Lengths -/

lemma length_ecAlgorithm {c : Curve} (hc : c.Named) : (ecAlgorithm c).length ≤ 27 := by
  have h₁ : (element OBJECT_IDENTIFIER (oid oidPublicKeyECDSA)).length ≤ 13 := by decide +kernel
  have h₂ : (element OBJECT_IDENTIFIER (oid c.oid)).length ≤ 8 + 6 :=
    length_element_le hc.supported.length_oid (by norm_num)
  rw [ecAlgorithm, List.length_append]
  omega

lemma length_scalar {c : Curve} (hc : c.Named) (d : ℕ) : (fillBytes c.scalarLen d).length ≤ 66 := by
  rw [length_fillBytes]
  exact hc.supported.scalarLen_le

lemma length_point {k : EcdsaPublicKey} (hc : k.curve.Named) : k.point.length ≤ 133 := by
  have := hc.supported.byteLen_le
  simp only [EcdsaPublicKey.point, List.length_cons, List.length_append, length_fillBytes]
  omega

lemma length_optionalFields {k : EcdsaPublicKey} (hc : k.curve.Named) : (optionalFields k).length ≤ 166 := by
  have hpoint : (bits k.point).length ≤ 134 := by
    have := length_point hc
    simp only [bits, List.length_cons]
    omega
  have h₁ : (element OBJECT_IDENTIFIER (oid k.curve.oid)).length ≤ 8 + 6 :=
    length_element_le hc.supported.length_oid (by norm_num)
  have h₂ : (element 0 (element OBJECT_IDENTIFIER (oid k.curve.oid))).length ≤ 8 + 6 + 6 :=
    length_element_le h₁ (by norm_num)
  have h₃ : (element BIT_STRING (bits k.point)).length ≤ 134 + 6 := length_element_le hpoint (by norm_num)
  have h₄ : (element 1 (element BIT_STRING (bits k.point))).length ≤ 134 + 6 + 6 := length_element_le h₃ (by norm_num)
  rw [optionalFields, List.length_append]
  omega

lemma length_ecFields {priv rest : Bytes} {n : ℕ} (hpriv : priv.length ≤ 66) (hrest : rest.length ≤ n) :
    (element INTEGER [1] ++ (element OCTET_STRING priv ++ rest)).length ≤ n + 75 := by
  have h₁ : (element OCTET_STRING priv).length ≤ 66 + 6 := length_element_le hpriv (by norm_num)
  have h₂ : (element INTEGER [1]).length = 3 := by decide
  simp only [List.length_append]
  omega

lemma length_ecPrivateKey {priv rest : Bytes} {n : ℕ} (hpriv : priv.length ≤ 66) (hrest : rest.length ≤ n)
    (hn : n < 2 ^ 31) : (ecPrivateKey priv rest).length ≤ n + 81 := by
  exact length_element_le (length_ecFields hpriv hrest) (by omega)

lemma length_ecKeyData {k : EcdsaPrivateKey} (hc : k.curve.Named) : (ecKeyData k).length ≤ 166 + 81 :=
  length_ecPrivateKey (length_scalar hc k.d) (length_optionalFields hc) (by norm_num)

lemma length_infoContents {algo keyData rest : Bytes} {n : ℕ} (halgo : algo.length ≤ 100) (hkey : keyData.length ≤ 1000)
    (hrest : rest.length ≤ n) : (infoContents algo keyData rest).length ≤ n + 1115 := by
  have h₁ : (element SEQUENCE algo).length ≤ 100 + 6 := length_element_le halgo (by norm_num)
  have h₂ : (element OCTET_STRING keyData).length ≤ 1000 + 6 := length_element_le hkey (by norm_num)
  have h₃ : (element INTEGER [0]).length = 3 := by decide
  simp only [infoContents, List.length_append]
  omega

section Written

variable {cb : Cryptobyte} (hcb : cb.Correct)

include hcb

lemma adds_ecPrivateKey {k : EcdsaPrivateKey} (hc : k.curve.Named) :
    cb.Adds (addECPrivateKey cb k.curve.oid (fillBytes k.curve.scalarLen k.d) k.point) (ecKeyData k) := by
  have hlimit := hcb.limit_ge
  have hpriv := length_scalar hc k.d
  have hpoint := length_point hc
  have hoid := hc.supported.length_oid
  have hfields := length_ecFields hpriv (length_optionalFields hc)
  have hname : (element OBJECT_IDENTIFIER (oid k.curve.oid)).length ≤ 8 + 6 := length_element_le hoid (by norm_num)
  have hbits : (element BIT_STRING (bits k.point)).length ≤ 134 + 6 :=
    length_element_le (Nat.succ_le_succ hpoint) (by norm_num)
  have hversion : cb.Adds (cb.AddASN1Int64 1) (element INTEGER [1]) := hcb.adds_AddASN1Int64 (by norm_num)
  have hscalar := hcb.adds_AddASN1OctetString (hpriv.trans (by omega))
  have hcurve := hcb.adds_AddASN1 (show LowTag 0 by decide) (hname.trans (by omega))
    (hcb.adds_AddASN1ObjectIdentifier hc.supported.validOid (hoid.trans (by omega)))
  have hpub := hcb.adds_AddASN1 (show LowTag 1 by decide) (hbits.trans (by omega))
    (hcb.adds_AddASN1BitString (hpoint.trans_lt (by omega)))
  have hall := hversion.comp (hscalar.comp (hcurve.comp hpub))
  exact hcb.adds_AddASN1 (by decide) (hfields.trans (by omega)) hall

lemma adds_ecAlgorithm {k : EcdsaPrivateKey} (hc : k.curve.Named) :
    cb.Adds (addAlgorithm cb (.ecdsa k)) (ecAlgorithm k.curve) := by
  have hlimit := hcb.limit_ge
  have hoid := hc.supported.length_oid
  have hecdsa : (oid oidPublicKeyECDSA).length ≤ 7 := by decide +kernel
  have hall := (hcb.adds_AddASN1ObjectIdentifier (by decide) (hecdsa.trans (by omega))).comp
    (hcb.adds_AddASN1ObjectIdentifier hc.supported.validOid (hoid.trans (by omega)))
  intro b before hb
  simp only [addAlgorithm, hc.supported.oidFrom]
  exact hall b before hb

lemma MarshalPKCS8PrivateKey_eq {key : PrivateKey} {algo data : Bytes} (hkey : keyBytes cb key = .ok (.ok data))
    (halgo : cb.Adds (addAlgorithm cb key) algo) (hla : algo.length ≤ 100) (hld : data.length ≤ 1000) :
    MarshalPKCS8PrivateKey cb key = .ok (privateKeyInfo algo data []) := by
  have hlimit := hcb.limit_ge
  have hversion : cb.Adds (cb.AddASN1Int64 0) (element INTEGER [0]) := hcb.adds_AddASN1Int64 (by norm_num)
  have hseq := hcb.adds_AddASN1 (show LowTag SEQUENCE by decide) (hla.trans (by omega)) halgo
  have hdata := hcb.adds_AddASN1OctetString (hld.trans (by omega))
  have hlen : (infoContents algo data []).length ≤ 0 + 1115 := length_infoContents hla hld le_rfl
  have hcontents := hversion.comp (hseq.comp hdata)
  rw [← List.append_nil (element OCTET_STRING data)] at hcontents
  have hall := hcb.adds_AddASN1 (show LowTag SEQUENCE by decide) (hlen.trans (by omega)) hcontents
  rw [MarshalPKCS8PrivateKey, hkey]
  exact hall.bytes hcb

/-- **What is written for an EC key.** -/
theorem MarshalPKCS8PrivateKey_ecdsa {k : EcdsaPrivateKey} (hk : k.Valid) :
    MarshalPKCS8PrivateKey cb (.ecdsa k) = .ok (privateKeyInfo (ecAlgorithm k.curve) (ecKeyData k) []) := by
  have hc := hk.named
  have hlen := length_ecKeyData hc
  have hkey : keyBytes cb (.ecdsa k) = .ok (.ok (ecKeyData k)) := by
    simp only [keyBytes, if_neg (not_le.2 hk.d_lt), Curve.Marshal, if_pos hk.onCurve]
    exact congrArg Except.ok ((adds_ecPrivateKey hcb hc).bytes hcb)
  exact MarshalPKCS8PrivateKey_eq hcb hkey (adds_ecAlgorithm hcb hc) ((length_ecAlgorithm hc).trans (by norm_num))
    (hlen.trans (by norm_num))

/-- **What is written for an Ed25519 key.** -/
theorem MarshalPKCS8PrivateKey_ed25519 (k : Bytes) :
    MarshalPKCS8PrivateKey cb (.ed25519 k) =
      .ok (privateKeyInfo (element OBJECT_IDENTIFIER (oid oidPublicKeyEd25519))
        (element OCTET_STRING (k.take SeedSize)) []) := by
  have hlimit := hcb.limit_ge
  have hseed : (k.take SeedSize).length ≤ 32 := List.length_take_le _ _
  have hkey : keyBytes cb (.ed25519 k) = .ok (.ok (element OCTET_STRING (k.take SeedSize))) :=
    congrArg Except.ok ((hcb.adds_AddASN1OctetString (hseed.trans (by omega))).bytes hcb)
  have hlen : (element OCTET_STRING (k.take SeedSize)).length ≤ 32 + 6 := length_element_le hseed (by norm_num)
  have halgo : cb.Adds (addAlgorithm cb (.ed25519 k)) (element OBJECT_IDENTIFIER (oid oidPublicKeyEd25519)) :=
    hcb.adds_AddASN1ObjectIdentifier (by decide) (le_trans (by decide +kernel : _ ≤ 4) (by omega))
  exact MarshalPKCS8PrivateKey_eq hcb hkey halgo (by decide +kernel) (hlen.trans (by norm_num))

/-! ### Reading it back -/

lemma readPKCS8_privateKeyInfo {o : Oid} {params keyData rest : Bytes} (ho : ValidOid o) (harcs : ∀ n ∈ o, n < 2 ^ 30)
    (hlo : (oid o).length ≤ 8) (hparams : params.length ≤ 50) (hkey : keyData.length ≤ 1000)
    (hlen : (infoContents (element OBJECT_IDENTIFIER (oid o) ++ params) keyData rest).length ≤ cb.limit) :
    readPKCS8 cb (privateKeyInfo (element OBJECT_IDENTIFIER (oid o) ++ params) keyData rest) =
      some (o, params, keyData) := by
  have hlimit := hcb.limit_ge
  have hname : (element OBJECT_IDENTIFIER (oid o)).length ≤ 8 + 6 := length_element_le hlo (by norm_num)
  have halgo : (element OBJECT_IDENTIFIER (oid o) ++ params).length ≤ cb.limit := by
    rw [List.length_append]
    omega
  have hseq := hcb.ReadASN1_element (show LowTag SEQUENCE by decide) hlen []
  rw [List.append_nil] at hseq
  have hint : ∀ s, cb.ReadASN1Integer (element INTEGER [0] ++ s) = some (0, s) :=
    hcb.ReadASN1Integer_element (v := 0) (by norm_num)
  have hinner := hcb.ReadASN1_element (show LowTag SEQUENCE by decide) halgo (element OCTET_STRING keyData ++ rest)
  have hoid := hcb.ReadASN1ObjectIdentifier_element ho harcs (hlo.trans (by omega)) params
  have hdata := hcb.ReadASN1_element (show LowTag OCTET_STRING by decide) (hkey.trans (by omega)) rest
  simp only [readPKCS8, privateKeyInfo, hseq, Option.bind_eq_bind, Option.bind_some, Option.pure_def]
  simp only [infoContents, hint, hinner, hoid, hdata, Option.bind_some]

lemma readECPrivateKey_eq {priv rest : Bytes} {n : ℕ} (hpriv : priv.length ≤ 66) (hrest : rest.length ≤ n)
    (hn : n < 2 ^ 30) :
    readECPrivateKey cb (ecPrivateKey priv rest) = (readOptionalCurve cb rest).map fun curve => (priv, curve) := by
  have hlimit := hcb.limit_ge
  have hfields := length_ecFields hpriv hrest
  have hseq := hcb.ReadASN1_element (show LowTag SEQUENCE by decide) (hfields.trans (by omega)) []
  rw [List.append_nil] at hseq
  have hint : ∀ s, cb.ReadASN1Integer (element INTEGER [1] ++ s) = some (1, s) :=
    hcb.ReadASN1Integer_element (v := 1) (by norm_num)
  have hdata := hcb.ReadASN1_element (show LowTag OCTET_STRING by decide) (hpriv.trans (by omega)) rest
  simp only [readECPrivateKey, ecPrivateKey, hseq, hint, hdata, Option.bind_eq_bind, Option.bind_some, Option.pure_def,
    Option.map_eq_bind, Function.comp_def]

/-- Fields with other tags than the one looked for are not read. -/
lemma readECPrivateKey_absent {priv rest : Bytes} {n : ℕ} (hpriv : priv.length ≤ 66) (hrest : rest.length ≤ n)
    (hn : n < 2 ^ 30) (htag : rest.head? ≠ some 0) :
    readECPrivateKey cb (ecPrivateKey priv rest) = some (priv, none) := by
  have hpeek : cb.PeekASN1Tag 0 rest = false := by
    rw [hcb.PeekASN1Tag_eq]
    simpa using htag
  rw [readECPrivateKey_eq hcb hpriv hrest hn, readOptionalCurve, hcb.ReadOptionalASN1_eq, hpeek]
  rfl

lemma readECPrivateKey_ecKeyData {k : EcdsaPrivateKey} (hc : k.curve.Named) :
    readECPrivateKey cb (ecKeyData k) = some (fillBytes k.curve.scalarLen k.d, some k.curve.oid) := by
  have hlimit := hcb.limit_ge
  have hpriv := length_scalar hc k.d
  have hoid := hc.supported.length_oid
  have hname : (element OBJECT_IDENTIFIER (oid k.curve.oid)).length ≤ 8 + 6 := length_element_le hoid (by norm_num)
  have hpeek : cb.PeekASN1Tag 0 (optionalFields k.toEcdsaPublicKey) = true := by
    rw [hcb.PeekASN1Tag_eq]
    rfl
  have hcurve := hcb.ReadASN1_element (show LowTag 0 by decide) (hname.trans (by omega))
    (element 1 (element BIT_STRING (bits k.point)))
  have hread := hcb.ReadASN1ObjectIdentifier_element hc.supported.validOid hc.supported.arcs_lt
    (hoid.trans (by omega)) []
  rw [List.append_nil] at hread
  rw [ecKeyData, readECPrivateKey_eq hcb hpriv (length_optionalFields hc) (by norm_num), readOptionalCurve,
    hcb.ReadOptionalASN1_eq, hpeek, optionalFields, hcurve]
  simp only [if_true, Option.map_some, Option.bind_eq_bind, Option.bind_some, hread, Option.pure_def]

omit hcb in
lemma shorten_of_length_le {size : ℕ} {keyData : Bytes} (h : keyData.length ≤ size) :
    shorten size keyData = .ok keyData := by
  cases keyData with
  | nil => rfl
  | cons b keyData => exact if_pos h

omit hcb in
lemma parseECDSAPrivateKey_eq {c : Curve} {d : ℕ} {curveOid optCurveOid : Option Oid} {data : Bytes} (hc : c.Named)
    (hd : d < c.Params.n) (hread : readECPrivateKey cb data = some (fillBytes c.scalarLen d, optCurveOid))
    (hoid : (curveOid <|> optCurveOid) = some c.oid) :
    parseECDSAPrivateKey cb curveOid data =
      .ok (.ecdsa ⟨⟨c, (c.ScalarBaseMult (fillBytes c.scalarLen d)).1, (c.ScalarBaseMult (fillBytes c.scalarLen d)).2⟩,
        d⟩) := by
  have hlt : d < 256 ^ c.scalarLen := hd.trans (byteLen_le.1 le_rfl)
  have hshort : shorten c.scalarLen (fillBytes c.scalarLen d) = .ok (fillBytes c.scalarLen d) :=
    shorten_of_length_le (length_fillBytes _ _).le
  have hof : ofBytes (fillBytes c.scalarLen d) = d := ofBytes_fillBytes hlt
  simp only [parseECDSAPrivateKey, hread, hoid, hc.supported.fromOID, hshort, length_fillBytes, Nat.sub_self,
    List.replicate_zero, List.nil_append, hof, bind, Except.bind, if_neg (not_le.2 hd)]
  rfl

lemma readCurve_oid {o : Oid} (ho : ValidOid o) (harcs : ∀ n ∈ o, n < 2 ^ 30) (hlen : (oid o).length ≤ 8) :
    readCurve cb (element OBJECT_IDENTIFIER (oid o)) = .ok (some o) := by
  have hlimit := hcb.limit_ge
  have hread := hcb.ReadASN1ObjectIdentifier_element ho harcs (hlen.trans (by omega)) []
  rw [List.append_nil] at hread
  have hpeek : cb.PeekASN1Tag OBJECT_IDENTIFIER (element OBJECT_IDENTIFIER (oid o)) = true := by
    rw [hcb.PeekASN1Tag_eq]
    rfl
  simp only [readCurve, hpeek, if_true, hread]

lemma readCurve_absent {s : Bytes} (h : s.head? ≠ some OBJECT_IDENTIFIER) : readCurve cb s = .ok none := by
  have hpeek : cb.PeekASN1Tag OBJECT_IDENTIFIER s = false := by
    rw [hcb.PeekASN1Tag_eq]
    simpa using h
  simp [readCurve, hpeek]

lemma ParsePKCS8PrivateKey_ec {params keyData rest : Bytes} (hparams : params.length ≤ 50)
    (hkey : keyData.length ≤ 1000)
    (hlen : (infoContents (element OBJECT_IDENTIFIER (oid oidPublicKeyECDSA) ++ params) keyData rest).length ≤ cb.limit)
    (NewKeyFromSeed : Bytes → Bytes) :
    ParsePKCS8PrivateKey cb NewKeyFromSeed
        (privateKeyInfo (element OBJECT_IDENTIFIER (oid oidPublicKeyECDSA) ++ params) keyData rest) =
      readCurve cb params >>= fun curve => parseECDSAPrivateKey cb curve keyData := by
  have hread := readPKCS8_privateKeyInfo hcb (by decide) (by decide) (by decide +kernel) hparams hkey hlen
  simp only [ParsePKCS8PrivateKey, hread, if_true]

/-- **An EC key that was written is read back.** -/
theorem ParsePKCS8PrivateKey_ecdsa {k : EcdsaPrivateKey} (hk : k.Valid) (NewKeyFromSeed : Bytes → Bytes) :
    ParsePKCS8PrivateKey cb NewKeyFromSeed (privateKeyInfo (ecAlgorithm k.curve) (ecKeyData k) []) =
      .ok (.ecdsa k) := by
  have hc := hk.named
  have hlimit := hcb.limit_ge
  have hoid := hc.supported.length_oid
  have hparams : (element OBJECT_IDENTIFIER (oid k.curve.oid)).length ≤ 8 + 6 := length_element_le hoid (by norm_num)
  have hdata := length_ecKeyData hc
  have hlen : (infoContents (ecAlgorithm k.curve) (ecKeyData k) []).length ≤ 0 + 1115 :=
    length_infoContents ((length_ecAlgorithm hc).trans (by norm_num)) (hdata.trans (by norm_num)) le_rfl
  rw [ecAlgorithm, ParsePKCS8PrivateKey_ec hcb (hparams.trans (by norm_num)) (hdata.trans (by norm_num))
    (hlen.trans (by omega)), readCurve_oid hcb hc.supported.validOid hc.supported.arcs_lt hoid]
  have hcurve : (some k.curve.oid <|> some k.curve.oid) = some k.curve.oid := rfl
  have hparse := parseECDSAPrivateKey_eq hc hk.lt (readECPrivateKey_ecKeyData hcb hc) hcurve
  rw [hk.matching] at hparse
  exact hparse

/-- **An Ed25519 key that was written is read back.** -/
theorem ParsePKCS8PrivateKey_ed25519 {seed : Bytes} (hseed : seed.length = SeedSize)
    (NewKeyFromSeed : Bytes → Bytes) :
    ParsePKCS8PrivateKey cb NewKeyFromSeed
        (privateKeyInfo (element OBJECT_IDENTIFIER (oid oidPublicKeyEd25519)) (element OCTET_STRING seed) []) =
      .ok (.ed25519 (NewKeyFromSeed seed)) := by
  have hlimit := hcb.limit_ge
  have hle : seed.length ≤ 32 := hseed.le
  have hdata : (element OCTET_STRING seed).length ≤ 32 + 6 := length_element_le hle (by norm_num)
  have hlen : (infoContents (element OBJECT_IDENTIFIER (oid oidPublicKeyEd25519)) (element OCTET_STRING seed) []).length
      ≤ 0 + 1115 := length_infoContents (by decide +kernel) (hdata.trans (by norm_num)) le_rfl
  have hread : readPKCS8 cb (privateKeyInfo (element OBJECT_IDENTIFIER (oid oidPublicKeyEd25519) ++ [])
      (element OCTET_STRING seed) []) = some (oidPublicKeyEd25519, [], element OCTET_STRING seed) := by
    refine readPKCS8_privateKeyInfo hcb (by decide) (by decide) (by decide +kernel) (by simp)
      (hdata.trans (by norm_num)) ?_
    rw [List.append_nil]
    exact hlen.trans (by omega)
  rw [List.append_nil] at hread
  have hpriv := hcb.ReadASN1_element (show LowTag OCTET_STRING by decide) (hle.trans (by omega)) []
  rw [List.append_nil] at hpriv
  have hne : oidPublicKeyEd25519 ≠ oidPublicKeyECDSA := by decide
  simp only [ParsePKCS8PrivateKey, hread, if_neg hne, if_true, hpriv, hseed]
  rfl

end Written

end Signatory.Cryptoutils

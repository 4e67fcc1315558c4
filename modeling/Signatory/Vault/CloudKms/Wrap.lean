import Signatory.Crypto.Kwp
import Signatory.Cryptoutils.X509
import Signatory.Lib.Aes
import Signatory.Lib.Fallible

/-!
# The key material of an import into Cloud KMS

`wrapPrivateKey` encrypts a fresh AES key for the import job and wraps the private key with it (`CKM_RSA_AES_KEY_WRAP`).
The service takes the material apart again, which `unwrapMaterial` does with the functions of the repository:
`unwrapMaterial_wrapPrivateKey`.
-/

namespace Signatory.Vault.CloudKms

open Lib.BigEndian Lib.Der Lib.Fallible
open Cryptoutils Cryptoutils.Asn1
open Signer (Bytes Error)

/-- The functions of other packages. -/
structure Primitives where
  cb : Cryptobyte
  /-- `aes.NewCipher`. -/
  NewCipher : Bytes → Except Error Kwp.Block
  /-- `ed25519.NewKeyFromSeed`. -/
  NewKeyFromSeed : Bytes → Bytes
  /-- `rsa.EncryptOAEP` with SHA-1 and an empty label; the second argument is what it reads from the random source. -/
  EncryptOAEP : RsaPublicKey → Bytes → Bytes → Except Error Bytes

/-- The RSA key of an import job: the public one, and decryption with the private one. -/
structure JobKey where
  pub : RsaPublicKey
  DecryptOAEP : Bytes → Except Error Bytes

/-- What is documented of the primitives: DER is written and read, AES decryption inverts encryption, and the first half
of an Ed25519 key is its seed. -/
structure Primitives.Correct (p : Primitives) : Prop where
  cb : p.cb.Correct
  NewCipher {key} : key.length = 32 → ∃ block, p.NewCipher key = .ok block ∧ block.Inverts
  seed {s} : s.length = SeedSize → (p.NewKeyFromSeed s).take SeedSize = s

/-- A job key of 4096 bits decrypts what was encrypted for it, which has 512 bytes. -/
def JobKey.Decrypts (p : Primitives) (job : JobKey) : Prop :=
  ∀ random aesKey, aesKey.length = 32 →
    ∃ c, p.EncryptOAEP job.pub random aesKey = .ok c ∧ c.length = 512 ∧ job.DecryptOAEP c = .ok aesKey

section

variable (p : Primitives)

/-- `rand.Read` returns the AES key or fails; `random` is for the encryption. -/
def wrapPrivateKey (read : Except Error Bytes) (random : Bytes) (pubKey : RsaPublicKey) (priv : PrivateKey) :
    Except Error Bytes := do
  let pkcs8Key ← MarshalPKCS8PrivateKey p.cb priv
  let aesKey ← read
  let encAesKey ← p.EncryptOAEP pubKey random aesKey
  let wrapper ← Kwp.NewKWP p.NewCipher aesKey
  let wrappedKey ← Kwp.Wrap wrapper pkcs8Key
  pure (encAesKey ++ wrappedKey)

/-- What the holder of the job's private key does with the material. -/
def unwrapMaterial (job : JobKey) (material : Bytes) : Except Error PrivateKey := do
  let aesKey ← job.DecryptOAEP (material.take 512)
  let wrapper ← Kwp.NewKWP p.NewCipher aesKey
  let pkcs8Key ← Kwp.Unwrap wrapper (material.drop 512)
  ParsePKCS8PrivateKey p.cb p.NewKeyFromSeed pkcs8Key

/-- The EC keys on the named curves and the Ed25519 keys. -/
def IsSigningKey : PrivateKey → Prop
  | .ecdsa k => k.Valid
  | .ed25519 k => ∃ seed, seed.length = SeedSize ∧ k = p.NewKeyFromSeed seed
  | _ => False

end

/-! ## The file in the material -/

lemma length_element_ge (tag : UInt8) (body : Bytes) : body.length + 2 ≤ (element tag body).length := by
  have : 1 ≤ (lengthBytes body.length).length := by
    unfold lengthBytes
    split <;> simp
  simp only [element, List.length_cons, List.length_append]
  omega

lemma length_ecPrivateKey_ge (priv rest : Bytes) : 7 ≤ (ecPrivateKey priv rest).length := by
  have h₁ := length_element_ge SEQUENCE (element INTEGER [1] ++ (element OCTET_STRING priv ++ rest))
  have h₂ := length_element_ge OCTET_STRING priv
  have h₃ : (element INTEGER [1]).length = 3 := by decide
  simp only [List.length_append] at h₁
  rw [ecPrivateKey]
  omega

lemma length_privateKeyInfo {algo data : Bytes} (halgo : algo.length ≤ 100) (hdata : data.length ≤ 1000)
    (hmin : 7 ≤ data.length) :
    16 ≤ (privateKeyInfo algo data []).length ∧ (privateKeyInfo algo data []).length ≤ 8192 := by
  have hle : (infoContents algo data []).length ≤ 0 + 1115 := length_infoContents halgo hdata le_rfl
  have hfile : (privateKeyInfo algo data []).length ≤ 0 + 1115 + 6 := length_element_le hle (by norm_num)
  have h₁ := length_element_ge SEQUENCE (infoContents algo data [])
  have h₂ := length_element_ge SEQUENCE algo
  have h₃ := length_element_ge OCTET_STRING data
  have h₄ : (infoContents algo data []).length =
      3 + ((element SEQUENCE algo).length + (element OCTET_STRING data).length) := by
    simp [infoContents, element, lengthBytes]
    omega
  rw [← privateKeyInfo] at h₁
  omega

/-- A signing key is written to a file of a size that can be wrapped, and read back from it. -/
lemma pkcs8_of_signingKey {p : Primitives} (hp : p.Correct) {priv : PrivateKey} (hpriv : IsSigningKey p priv) :
    ∃ der, MarshalPKCS8PrivateKey p.cb priv = .ok der ∧ 16 ≤ der.length ∧ der.length ≤ 8192 ∧
      ParsePKCS8PrivateKey p.cb p.NewKeyFromSeed der = .ok priv := by
  match priv, hpriv with
  | .ecdsa k, hk =>
    have hc := EcdsaPrivateKey.Valid.named hk
    have hdata := length_ecKeyData hc
    have hmin : 7 ≤ (ecKeyData k).length := length_ecPrivateKey_ge _ _
    have hlen := length_privateKeyInfo ((length_ecAlgorithm hc).trans (by norm_num)) (hdata.trans (by norm_num)) hmin
    exact ⟨_, MarshalPKCS8PrivateKey_ecdsa hp.cb hk, hlen.1, hlen.2, ParsePKCS8PrivateKey_ecdsa hp.cb hk _⟩
  | .ed25519 _, ⟨seed, hseed, rfl⟩ =>
    have hdata : (element OCTET_STRING seed).length ≤ 32 + 6 := length_element_le hseed.le (by norm_num)
    have hmin := length_element_ge OCTET_STRING seed
    have hseed' : seed.length = 32 := hseed
    have halgo : (element OBJECT_IDENTIFIER (oid oidPublicKeyEd25519)).length ≤ 100 := by decide +kernel
    have hlen := length_privateKeyInfo halgo (hdata.trans (by norm_num)) (by omega)
    have hmarshal := MarshalPKCS8PrivateKey_ed25519 hp.cb (p.NewKeyFromSeed seed)
    rw [hp.seed hseed] at hmarshal
    exact ⟨_, hmarshal, hlen.1, hlen.2, ParsePKCS8PrivateKey_ed25519 hp.cb hseed _⟩

/-- The material is the AES key, encrypted, and the file, wrapped with it. -/
lemma wrapPrivateKey_eq {p : Primitives} (hp : p.Correct) {job : JobKey} (hjob : job.Decrypts p) {priv : PrivateKey}
    (hpriv : IsSigningKey p priv) {aesKey : Bytes} (haes : aesKey.length = 32) (random : Bytes) :
    ∃ c block wrapped der, wrapPrivateKey p (.ok aesKey) random job.pub priv = .ok (c ++ wrapped) ∧ c.length = 512 ∧
      job.DecryptOAEP c = .ok aesKey ∧ Kwp.NewKWP p.NewCipher aesKey = .ok block ∧
        Kwp.Unwrap block wrapped = .ok der ∧ ParsePKCS8PrivateKey p.cb p.NewKeyFromSeed der = .ok priv := by
  obtain ⟨der, hmarshal, hmin, hmax, hparse⟩ := pkcs8_of_signingKey hp hpriv
  obtain ⟨c, hencrypt, hlen, hdecrypt⟩ := hjob random aesKey haes
  obtain ⟨block, hcipher, hinverts⟩ := hp.NewCipher haes
  obtain ⟨wrapped, hwrap, hunwrap⟩ := Kwp.Unwrap_Wrap hinverts hmin hmax
  have hkwp : Kwp.NewKWP p.NewCipher aesKey = .ok block := by
    rw [Kwp.NewKWP, if_pos (Or.inr haes), hcipher]
    rfl
  refine ⟨c, block, wrapped, der, ?_, hlen, hdecrypt, hkwp, hunwrap, hparse⟩
  simp only [wrapPrivateKey, ok_bind_iff]
  exact ⟨der, hmarshal, aesKey, rfl, c, hencrypt, block, hkwp, wrapped, hwrap, rfl⟩

/-- **Wrapped key material unwraps to the same key.** -/
theorem unwrapMaterial_wrapPrivateKey {p : Primitives} (hp : p.Correct) {job : JobKey} (hjob : job.Decrypts p)
    {priv : PrivateKey} (hpriv : IsSigningKey p priv) {aesKey : Bytes} (haes : aesKey.length = 32) (random : Bytes) :
    ∃ material, wrapPrivateKey p (.ok aesKey) random job.pub priv = .ok material ∧
      job.DecryptOAEP (material.take 512) = .ok aesKey ∧ unwrapMaterial p job material = .ok priv := by
  obtain ⟨c, block, wrapped, der, hmaterial, hlen, hdecrypt, hkwp, hunwrap, hparse⟩ :=
    wrapPrivateKey_eq hp hjob hpriv haes random
  have htake : (c ++ wrapped).take 512 = c := List.take_left' hlen
  have hdrop : (c ++ wrapped).drop 512 = wrapped := List.drop_left' hlen
  refine ⟨c ++ wrapped, hmaterial, ?_, ?_⟩
  · rw [htake]
    exact hdecrypt
  · simp only [unwrapMaterial, htake, hdrop, ok_bind_iff]
    exact ⟨aesKey, hdecrypt, block, hkwp, der, hunwrap, hparse⟩

/-! ## An instance -/

/-- `aes.NewCipher`. -/
def newCipher (key : Bytes) : Except Error Kwp.Block :=
  if key.length = 16 ∨ key.length = 24 ∨ key.length = 32 then
    .ok { Encrypt := Lib.Aes.encrypt (Lib.Aes.roundKeys key) (Lib.Aes.rounds key)
          Decrypt := Lib.Aes.decrypt (Lib.Aes.roundKeys key) (Lib.Aes.rounds key) }
  else .error { text := "crypto/aes: invalid key size " ++ toString key.length }

lemma newCipher_inverts {key : Bytes} (h : key.length = 32) : ∃ block, newCipher key = .ok block ∧ block.Inverts := by
  refine ⟨_, if_pos (Or.inr (Or.inr h)), ?_⟩
  constructor
  · exact fun s _ => Lib.Aes.isState_encrypt _ _ s
  · exact fun s _ => Lib.Aes.isState_decrypt _ _ s
  · exact fun s hs => Lib.Aes.decrypt_encrypt _ _ hs

/-- AES and DER, and a public-key encryption that leaves the message in 512 bytes. -/
def openPrimitives : Primitives where
  cb := derbyte
  NewCipher := newCipher
  NewKeyFromSeed seed := seed ++ List.replicate 32 0
  EncryptOAEP _ _ message := .ok (message ++ List.replicate (512 - message.length) 0)

def openJob : JobKey where
  pub := ⟨2 ^ 4095 + 1, 65537⟩
  DecryptOAEP c := .ok (c.take 32)

lemma openPrimitives_correct : openPrimitives.Correct where
  cb := derbyte_correct
  NewCipher := newCipher_inverts
  seed h := List.take_left' h

lemma openJob_decrypts : openJob.Decrypts openPrimitives := by
  intro random aesKey haes
  refine ⟨_, rfl, ?_, ?_⟩
  · rw [List.length_append, List.length_replicate, haes]
  · exact congrArg Except.ok (List.take_left' haes)

theorem unwrapMaterial_of_unitKey :
    ∃ material, wrapPrivateKey openPrimitives (.ok (List.replicate 32 7)) [] openJob.pub (.ecdsa (unitKey .P256)) =
        .ok material ∧
      openJob.DecryptOAEP (material.take 512) = .ok (List.replicate 32 7) ∧
      unwrapMaterial openPrimitives openJob material = .ok (.ecdsa (unitKey .P256)) := by
  have hkey : IsSigningKey openPrimitives (.ecdsa (unitKey .P256)) := unitKey_valid (c := .P256) trivial
  exact unwrapMaterial_wrapPrivateKey openPrimitives_correct openJob_decrypts hkey (by simp) []

end Signatory.Vault.CloudKms

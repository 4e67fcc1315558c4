import Signatory.Cryptoutils.Elliptic
import Signatory.Lib.Command
import Signatory.Lib.Fallible

/-!
# `pkg/vault/yubi`: import of keys

The scalar of an ECDSA key is handed to the HSM as the shortest bytes of the number, so it has the 32 bytes of the
algorithm just when the first of them is not zero: `import_data_iff`.  The seed of an Ed25519 key is a byte string
already.  The session with the HSM is any that creates commands and sends them.
-/

namespace Signatory.Vault.Yubi

open Lib.Command Lib.BigEndian
open Cryptoutils
open Signer (Bytes Error)

/-! ## Keys -/

/-- `crypt.PrivateKey`, as far as the types are told apart; an Ed25519 key is a seed and the public key. -/
inductive CryptPrivateKey where
  | ECDSAPrivateKey (k : EcdsaPrivateKey)
  | Ed25519PrivateKey (k : Bytes)
  | other (typeName : String) (pub : PublicKey)

def Seed (k : Bytes) : Bytes := k.take 32

def CryptPrivateKey.Public : CryptPrivateKey → PublicKey
  | .ECDSAPrivateKey k => .ecdsa k.toEcdsaPublicKey
  | .Ed25519PrivateKey k => .ed25519 (k.drop 32)
  | .other _ pub => pub

inductive Algorithm where
  | P256
  | Secp256k1
  | ED25519

inductive Capability where
  | AsymmetricSignEcdsa
  | AsymmetricSignEddsa

/-- What `getPrivateKeyData` returns. -/
structure PrivateKeyData where
  typ : String
  alg : Algorithm
  caps : Capability
  p : Bytes

def getPrivateKeyData : CryptPrivateKey → Except Error PrivateKeyData
  | .ECDSAPrivateKey key =>
    match key.curve with
    | .P256 => .ok ⟨key.curve.Params.name.toLower, .P256, .AsymmetricSignEcdsa, bytes key.d⟩
    | .S256 => .ok ⟨key.curve.Params.name.toLower, .Secp256k1, .AsymmetricSignEcdsa, bytes key.d⟩
    | curve => .error { text := "unsupported curve: " ++ curve.Params.name }
  | .Ed25519PrivateKey key => .ok ⟨"ed25519", .ED25519, .AsymmetricSignEddsa, Seed key⟩
  | .other typeName _ => .error { text := "unsupported private key type: " ++ typeName }

/-! ## The import -/

/-- The arguments of `CreatePutAsymmetricKeyCommand`; the identifier is zero, and there is no second part of the key. -/
structure PutAsymmetricKey where
  label : String
  domains : UInt16
  caps : Capability
  alg : Algorithm
  keyData : Bytes

/-- A reply of the HSM; of other types the name is all that is used. -/
inductive Response where
  | PutAsymmetricKeyResponse (keyID : UInt16)
  | other (typeName : String)

/-- `HSM` with its configuration and session. -/
structure HSM (Command : Type) where
  address : String
  keyImportDomains : UInt16
  create : PutAsymmetricKey → Except Error Command
  send : Command → Except Error Response

structure HsmKey where
  id : UInt16
  pub : PublicKey

variable {Command : Type} (h : HSM Command)

def HSM.named (what : String) (e : Error) : Error :=
  { e with text := "(YubiHSM/" ++ h.address ++ "): " ++ what ++ e.text }

/-- The command that is created. -/
def HSM.request (key : PrivateKeyData) (domains : Option ℤ) (label : Option String) (now : ℤ) : PutAsymmetricKey where
  label := label.getD ("signatory-" ++ key.typ ++ "-" ++ toString now)
  domains := domains.elim h.keyImportDomains UInt16.ofInt
  caps := key.caps
  alg := key.alg
  keyData := key.p

/-- `HSM.Import`; `domains` and `name` are what the options of these names are read as.  The state is what was handed to
`CreatePutAsymmetricKeyCommand`. -/
def HSM.Import (pk : CryptPrivateKey) (domains : Except Error (Option ℤ)) (name : Except Error (Option String))
    (now : ℤ) : Cmd (List PutAsymmetricKey) Error HsmKey := do
  let key ← liftM ((getPrivateKeyData pk).mapError (h.named ""))
  let d ← liftM (domains.mapError (h.named ""))
  let label ← liftM (name.mapError (h.named ""))
  let req := h.request key d label now
  modify (· ++ [req])
  let command ← liftM ((h.create req).mapError (h.named ""))
  let res ← liftM ((h.send command).mapError (h.named "PutAsymmetricKey: "))
  match res with
  | .PutAsymmetricKeyResponse keyID => pure ⟨keyID, pk.Public⟩
  | .other typeName => throw (h.named "" { text := "unexpected response type: " ++ typeName })

/-! ## The data of a key -/

section

variable (derive : Bytes → Bytes)

/-- The keys that the HSM can hold; `derive` takes the seed of an Ed25519 key to the public key. -/
inductive CryptPrivateKey.Valid : CryptPrivateKey → Prop
  | ecdsa {k : EcdsaPrivateKey} (curve : k.curve = .P256 ∨ k.curve = .S256) (pos : 1 ≤ k.d)
    (lt : k.d < k.curve.Params.n) : Valid (.ECDSAPrivateKey k)
  | ed25519 {seed : Bytes} (length : seed.length = 32) : Valid (.Ed25519PrivateKey (seed ++ derive seed))

/-- The data have the length that the algorithm requires, and are those of the key. -/
def CryptPrivateKey.GivenBy : CryptPrivateKey → Bytes → Prop
  | .ECDSAPrivateKey k, data => data.length = 32 ∧ ofBytes data = k.d
  | .Ed25519PrivateKey k, data => data.length = 32 ∧ data ++ derive data = k
  | .other _ _, _ => False

end

/-- The first byte of a scalar is not zero. -/
def CryptPrivateKey.FullWidth : CryptPrivateKey → Prop
  | .ECDSAPrivateKey k => 256 ^ 31 ≤ k.d
  | _ => True

/-- A scalar is given by its shortest bytes just when it needs all of them. -/
lemma givenBy_bytes (derive : Bytes → Bytes) {k : EcdsaPrivateKey} (hlt : k.d < 256 ^ 32) :
    (CryptPrivateKey.ECDSAPrivateKey k).GivenBy derive (bytes k.d) ↔ 256 ^ 31 ≤ k.d := by
  show (bytes k.d).length = 32 ∧ ofBytes (bytes k.d) = k.d ↔ 256 ^ 31 ≤ k.d
  rw [length_bytes, byteLen_eq_succ]
  constructor
  · rintro ⟨⟨hge, -⟩, -⟩
    exact hge
  · intro hge
    exact ⟨⟨hge, hlt⟩, ofBytes_bytes k.d⟩

lemma getPrivateKeyData_of_valid {derive : Bytes → Bytes} {pk : CryptPrivateKey} (hpk : pk.Valid derive) :
    ∃ key, getPrivateKeyData pk = .ok key ∧ (pk.GivenBy derive key.p ↔ pk.FullWidth) := by
  cases hpk with
  | @ecdsa k hcurve hpos hlt =>
    have hn : k.curve.Params.n < 256 ^ 32 := by
      rcases hcurve with hcurve | hcurve <;> rw [hcurve] <;> decide +kernel
    have hgiven := givenBy_bytes derive (hlt.trans hn)
    rcases hcurve with hcurve | hcurve
    · exact ⟨_, by rw [getPrivateKeyData, hcurve], hgiven⟩
    · exact ⟨_, by rw [getPrivateKeyData, hcurve], hgiven⟩
  | @ed25519 seed hlength =>
    have hseed : Seed (seed ++ derive seed) = seed := List.take_left' hlength
    refine ⟨_, rfl, iff_of_true ?_ trivial⟩
    rw [hseed]
    exact ⟨hlength, rfl⟩

lemma handed_of_ok {pk : CryptPrivateKey} {key : PrivateKeyData} (hkey : getPrivateKeyData pk = .ok key) (d : Option ℤ)
    (label : Option String) (now : ℤ) :
    (exec (h.Import pk (.ok d) (.ok label) now) []).2 = [h.request key d label now] := by
  refine (wp_state _ (· = [h.request key d label now])).1 ?_
  simp only [HSM.Import, wp_bind, wp_mapError, wp_modify]
  constructor
  · intro key' hkey'
    obtain rfl := Except.ok.inj (hkey'.symm.trans hkey)
    refine ⟨?_, by rintro e ⟨⟩⟩
    rintro _ ⟨⟩
    refine ⟨?_, by rintro e ⟨⟩⟩
    rintro _ ⟨⟩
    refine ⟨fun command _ => ⟨fun res _ => ?_, fun e _ => rfl⟩, fun e _ => rfl⟩
    cases res <;> rfl
  · intro e he
    cases he.symm.trans hkey

lemma handed_of_error {pk : CryptPrivateKey} {domains : Except Error (Option ℤ)} {name : Except Error (Option String)}
    (hbad : ∀ d label, domains = .ok d → name ≠ .ok label) (now : ℤ) :
    (exec (h.Import pk domains name now) []).2 = [] := by
  refine (wp_state _ (· = [])).1 ?_
  simp only [HSM.Import, wp_bind, wp_mapError]
  refine ⟨fun key _ => ⟨fun d hd => ⟨fun label hlabel => ?_, fun e _ => trivial⟩, fun e _ => trivial⟩,
    fun e _ => trivial⟩
  exact absurd hlabel (hbad d label hd)

/-- **What is handed to the HSM.**  One command if the options can be read, and none otherwise; its data are those of
the key, in full width, just when no byte in front of the scalar is zero. -/
theorem import_data_iff {derive : Bytes → Bytes} {pk : CryptPrivateKey} (hpk : pk.Valid derive) (now : ℤ) :
    (∀ d label, ∃ req, (exec (h.Import pk (.ok d) (.ok label) now) []).2 = [req] ∧
        (pk.GivenBy derive req.keyData ↔ pk.FullWidth)) ∧
      ∀ domains name, (∀ d label, domains = .ok d → name ≠ .ok label) →
        (exec (h.Import pk domains name now) []).2 = [] := by
  obtain ⟨key, hkey, hgiven⟩ := getPrivateKeyData_of_valid hpk
  constructor
  · intro d label
    exact ⟨h.request key d label now, handed_of_ok h hkey d label now, hgiven⟩
  · intro domains name hbad
    exact handed_of_error h hbad now

/-- An HSM that takes every command. -/
def openHsm : HSM PutAsymmetricKey where
  address := "localhost:12345"
  keyImportDomains := 1
  create := .ok
  send _ := .ok (.PutAsymmetricKeyResponse 7)

/-- The key opposite to the base point, whose scalar is the largest one. -/
def lastKey (c : Cryptoutils.Curve) : EcdsaPrivateKey := ⟨⟨c, c.Params.gx, c.Params.p - c.Params.gy⟩, c.Params.n - 1⟩

theorem import_data_of_lastKey :
    (lastKey .P256).curve.IsOnCurve (lastKey .P256).x (lastKey .P256).y = true ∧
      ∃ req, (exec (openHsm.Import (.ECDSAPrivateKey (lastKey .P256)) (.ok none) (.ok (some "key")) 0) []).2 = [req] ∧
        req.keyData.length = 32 ∧ ofBytes req.keyData = (lastKey .P256).d := by
  have hvalid : (CryptPrivateKey.ECDSAPrivateKey (lastKey .P256)).Valid id :=
    .ecdsa (Or.inl rfl) (by decide +kernel) (by decide +kernel)
  obtain ⟨hsent, -⟩ := import_data_iff openHsm hvalid 0
  obtain ⟨req, hreq, hgiven⟩ := hsent none (some "key")
  exact ⟨by decide +kernel, req, hreq, hgiven.2 (show 256 ^ 31 ≤ (lastKey .P256).d by decide +kernel)⟩

/-- The scalar one is handed over as one byte. -/
theorem short_scalar_handed :
    (unitKey .P256).Valid ∧
      ∃ req, (exec (openHsm.Import (.ECDSAPrivateKey (unitKey .P256)) (.ok none) (.ok (some "key")) 0) []).2 = [req] ∧
        req.keyData = [1] :=
  ⟨unitKey_valid trivial, _, handed_of_ok openHsm rfl none (some "key") 0, by decide +kernel⟩

end Signatory.Vault.Yubi

import Signatory.Lib.BigEndian
import Signatory.Vault.Rpc.Client

/-!
# `pkg/vault/{nitro,confidentialspace}`: vaults whose keys live in an enclave

The two vaults share most of their code; they are one model with the package as a parameter, which says how errors
begin.  Only the Confidential Space vault keeps the encrypted key beside the handle and imports it again when the signer
does not know the handle.

A vault works on a client and on a key blob storage (`Backend`); their state is a parameter.  A key reference is a
pointer to a key of the list `v.keys`, here its position: keys are only ever appended.
-/

namespace Signatory.Vault

open Lib.BigEndian Lib.Command Rpc
open Signer (Bytes Error)

/-! ## Keys and signatures -/

inductive Curve where
  | P256
  | S256
  | other (name : String)
  deriving DecidableEq, Repr

/-- `crypt.PrivateKey`, as far as `NewPrivateKey` tells them apart. -/
inductive CryptPrivateKey where
  | ECDSAPrivateKey (curve : Curve) (bitSize D : ℕ)
  | Ed25519PrivateKey (seed : Bytes)
  | BLSPrivateKey (scalar : Bytes)
  | other (name : String)
  deriving DecidableEq, Repr

/-- What is used of `crypt` and `minpk`. -/
structure Crypt (PK PKH Sig : Type) where
  UnmarshalECDSAPublicKey : Bytes → Curve → Except Error PK
  Ed25519PublicKey : Bytes → PK
  BLSPublicKeyFromBytes : Bytes → Except Error PK
  ECDSASignature : ℕ → ℕ → Curve → Sig
  Ed25519Signature : Bytes → Sig
  BLSSignatureFromBytes : Bytes → Except Error Sig
  Hash : PK → PKH

def NewPrivateKey : CryptPrivateKey → Except Error PrivateKey
  | .ECDSAPrivateKey curve bitSize D =>
    let size := (bitSize + 7) / 8
    if 256 ^ size ≤ D then throw { text := "panic: math/big: buffer too small to fit value" }
    else
      match curve with
      | .P256 => return { P256 := some (fillBytes size D) }
      | .S256 => return { Secp256k1 := some (fillBytes size D) }
      | .other name => throw { text := s!"unsupported curve {name}" }
  | .Ed25519PrivateKey seed => return { Ed25519 := some seed }
  | .BLSPrivateKey scalar => return { BLS := some scalar }
  | .other name => throw { text := s!"unsupported key type {name}" }

variable {PK PKH Sig : Type}

/-- `PublicKey.PublicKey`. -/
def Crypt.publicKey (cr : Crypt PK PKH Sig) (p : PublicKey) : Except Error PK :=
  match p.Secp256k1, p.P256, p.Ed25519, p.BLS with
  | some b, _, _, _ => cr.UnmarshalECDSAPublicKey b .S256
  | none, some b, _, _ => cr.UnmarshalECDSAPublicKey b .P256
  | none, none, some b, _ =>
    if b.length ≠ 32 then throw { text := "invalid ed25519 public key length" }
    else return cr.Ed25519PublicKey b
  | none, none, none, some b => cr.BLSPublicKeyFromBytes b
  | none, none, none, none => throw { text := "malformed public key RPC response" }

def ecdsaSignatureLength : ℕ := 64

/-- `Signature.Signature`. -/
def Crypt.signature (cr : Crypt PK PKH Sig) (s : Signature) : Except Error Sig :=
  match s.Secp256k1, s.P256, s.Ed25519, s.BLS with
  | some b, _, _, _ =>
    if b.length ≠ ecdsaSignatureLength then throw { text := "invalid Secp256k1 signature length" }
    else return cr.ECDSASignature (ofBytes (b.take 32)) (ofBytes (b.drop 32)) .S256
  | none, some b, _, _ =>
    if b.length ≠ ecdsaSignatureLength then throw { text := "invalid P256 signature length" }
    else return cr.ECDSASignature (ofBytes (b.take 32)) (ofBytes (b.drop 32)) .P256
  | none, none, some b, _ =>
    if b.length ≠ 64 then throw { text := "invalid ed25519 signature length" }
    else return cr.Ed25519Signature b
  | none, none, none, some b => cr.BLSSignatureFromBytes b
  | none, none, none, none => throw { text := "malformed signature RPC response" }

/-! ## Vaults -/

structure EncryptedKey (PKH : Type) where
  publicKeyHash : PKH
  encryptedPrivateKey : Option Bytes
  deriving DecidableEq, Repr

/-- `nitroKey` and `confidentialKey`; the former is without the encrypted key. -/
structure Key (PK : Type) where
  pub : PK
  handle : UInt64
  encryptedKey : Option Bytes
  deriving DecidableEq, Repr

/-- The client and the storage of a vault, with the state that they share. -/
structure Backend (ρ PKH : Type) where
  Connect : Cmd ρ Err Unit
  Close : Cmd ρ Err Unit
  Import : Bytes → Cmd ρ Err (Option ImportResult)
  ImportUnencrypted : PrivateKey → Cmd ρ Err (Option GenerateAndImportResult)
  GenerateAndImport : KeyType → Cmd ρ Err (Option GenerateAndImportResult)
  Sign : UInt64 → Bytes → UInt8 → Cmd ρ Err (Option Signature)
  ProvePossession : UInt64 → Cmd ρ Err (Option Signature)
  /-- `storage.ImportKey`. -/
  ImportKey : EncryptedKey PKH → Cmd ρ Error Unit

/-- Why a call of a vault fails. -/
inductive Cause where
  | rpc (e : Err)
  | other (e : Error)
  /-- `reimport after stale handle: %w`. -/
  | reimport (e : Cause)
  /-- The panic of reading a result that the client returned as nil. -/
  | nilResult
  /-- There is no key with this position; no key reference has one. -/
  | noKey

/-- An error with the name that it begins with. -/
structure VaultError where
  vault : String
  cause : Cause

def tag : Package → String
  | .nitro => "(Nitro)"
  | .confidentialSpace => "(ConfidentialSpace)"

structure State (PK ρ : Type) where
  keys : List (Key PK)
  env : ρ

variable {ρ : Type} (cr : Crypt PK PKH Sig) (b : Backend ρ PKH) (pkg : Package)

/-- A call of the client. -/
def remote {α : Type} (c : Cmd ρ Err α) : Cmd (State PK ρ) Cause α :=
  within State.env (fun e s => { s with env := e }) Cause.rpc c

def stored {α : Type} (c : Cmd ρ Error α) : Cmd (State PK ρ) Cause α :=
  within State.env (fun e s => { s with env := e }) Cause.other c

/-- What is returned by a vault begins with its name. -/
def named {α : Type} (c : Cmd (State PK ρ) Cause α) : Cmd (State PK ρ) VaultError α :=
  within id (fun s _ => s) (VaultError.mk (tag pkg)) c

/-- The key that is appended to `v.keys`; only one package keeps the encrypted key. -/
def newKey (p : PK) (handle : UInt64) (encryptedKey : Option Bytes) : Key PK :=
  match pkg with
  | .nitro => ⟨p, handle, none⟩
  | .confidentialSpace => ⟨p, handle, encryptedKey⟩

/-- The part that `Import` and the loop of `Generate` share: the key is listed first, and then stored. -/
def addKey (res : Option GenerateAndImportResult) : Cmd (State PK ρ) Cause ℕ := do
  match res with
  | none => throw .nilResult
  | some res =>
    let p ← liftM ((cr.publicKey res.publicKey).mapError Cause.other)
    let i ← modifyGet fun s : State PK ρ =>
      (s.keys.length, { s with keys := s.keys ++ [newKey pkg p res.handle res.encryptedPrivateKey] })
    -- the key is not taken out again if this fails
    stored (b.ImportKey ⟨cr.Hash p, res.encryptedPrivateKey⟩)
    pure i

def Import (pk : CryptPrivateKey) : Cmd (State PK ρ) VaultError ℕ :=
  named pkg do
    let rpcPk ← liftM ((NewPrivateKey pk).mapError Cause.other)
    let res ← remote (b.ImportUnencrypted rpcPk)
    addKey cr b pkg res

/-- `cryptoutils.KeyType`. -/
inductive CryptKeyType where
  | KeyEd25519
  | KeySecp256k1
  | KeyP256
  | KeyBLS12_381
  | other (name : String)
  deriving DecidableEq, Repr

def rpcKeyType : CryptKeyType → Except Error KeyType
  | .KeyEd25519 => return .ed25519
  | .KeySecp256k1 => return .secp256k1
  | .KeyP256 => return .nistP256
  | .KeyBLS12_381 => return .bls
  | .other name => throw { text := s!"unsupported key type {name}" }

def generateLoop (kt : KeyType) : ℕ → List ℕ → Cmd (State PK ρ) Cause (List ℕ)
  | 0, imported => pure imported
  | n + 1, imported => do
    let res ← remote (b.GenerateAndImport kt)
    let key ← addKey cr b pkg res
    generateLoop kt n (imported ++ [key])

def Generate (keyType : CryptKeyType) (n : ℕ) : Cmd (State PK ρ) VaultError (List ℕ) :=
  named pkg do
    let kt ← liftM ((rpcKeyType keyType).mapError Cause.other)
    generateLoop cr b pkg kt n []

/-! ## Signing -/

/-- `unicode.IsSpace`. -/
def isSpace (c : Char) : Bool :=
  c.toNat ∈ [0x09, 0x0A, 0x0B, 0x0C, 0x0D, 0x20, 0x85, 0xA0, 0x1680, 0x2028, 0x2029, 0x202F, 0x205F, 0x3000] ||
    (0x2000 ≤ c.toNat && c.toNat ≤ 0x200A)

/-- `strings.TrimSpace`, on characters. -/
def trimSpace (s : List Char) : List Char := ((s.dropWhile isSpace).reverse.dropWhile isSpace).reverse

/-- `strings.EqualFold` of the trimmed message with "invalid handle": none of these letters is folded with a letter
outside of ASCII. -/
def isInvalidHandle (message : String) : Bool :=
  (trimSpace message.toList).map Char.toLower = "invalid handle".toList

def isStaleHandleError : Err → Bool
  | .rpc e => (e.message :: e.sources).any isInvalidHandle
  | .reconnect _ e => isStaleHandleError e
  | .io _ | .context | .nilConn => false

def getKey (i : ℕ) : Cmd (State PK ρ) Cause (Key PK) := do
  match (← get).keys[i]? with
  | some k => pure k
  | none => throw .noKey

def setHandle (i : ℕ) (handle : UInt64) : Cmd (State PK ρ) Cause Unit :=
  modify fun s => { s with keys := s.keys.modify i fun k => { k with handle := handle } }

def reimportLocked (i : ℕ) : Cmd (State PK ρ) Cause Unit := do
  let k ← getKey i
  match k.encryptedKey with
  | none => throw (.other { text := "no cached encrypted blob; cannot re-import after stale handle" })
  | some blob =>
    match ← remote (b.Import blob) with
    | none => throw .nilResult
    | some res => setHandle i res.handle

/-- A request that is made with the handle of the key: the part of `Sign` and `ProvePossession` before the signature is
looked at. -/
def withHandle (request : UInt64 → Cmd ρ Err (Option Signature)) (i : ℕ) :
    Cmd (State PK ρ) Cause (Option Signature) := do
  let k ← getKey i
  match pkg with
  | .nitro => remote (request k.handle)
  | .confidentialSpace =>
    tryCatch (remote (request k.handle)) fun e =>
      match e with
      | .rpc err =>
        -- the signer was restarted: this key is imported again, the others are left as they are
        if isStaleHandleError err then do
          within id (fun s _ => s) Cause.reimport (reimportLocked b i)
          let k ← getKey i
          remote (request k.handle)
        else throw e
      | _ => throw e

/-- The rest of `Sign` and `ProvePossession`. -/
def convert (sig : Option Signature) : Cmd (State PK ρ) Cause Sig := do
  match sig with
  | none => throw .nilResult
  | some sig => liftM ((cr.signature sig).mapError Cause.other)

def Sign (i : ℕ) (message : Bytes) (version : UInt8) : Cmd (State PK ρ) VaultError Sig :=
  named pkg do
    let sig ← withHandle b pkg (b.Sign · message version) i
    convert cr sig

def ProvePossession (i : ℕ) : Cmd (State PK ρ) VaultError Sig :=
  named pkg do
    let sig ← withHandle b pkg b.ProvePossession i
    convert cr sig

/-! ## Start -/

/-- What `GetKeys` returns: the keys that its iterator yields, and what `Err` says after them. -/
structure KeysResult (PKH : Type) where
  items : List (EncryptedKey PKH)
  err : Option Error

def loadLoop : List (EncryptedKey PKH) → Cmd (State PK ρ) Cause Unit
  | [] => pure ()
  | k :: rest => do
    match ← remote (b.Import (k.encryptedPrivateKey.getD [])) with
    | none => throw .nilResult
    | some res =>
      let p ← liftM ((cr.publicKey res.publicKey).mapError Cause.other)
      modify fun s => { s with keys := s.keys ++ [newKey pkg p res.handle k.encryptedPrivateKey] }
      loadLoop rest

/-- `newWithClient`, on a state without keys; whatever fails, the client is closed. -/
def newWithClient (getKeys : Cmd ρ Error (KeysResult PKH)) : Cmd (State PK ρ) VaultError Unit :=
  named pkg do
    tryCatch (do
      remote b.Connect
      let r ← stored getKeys
      loadLoop cr b pkg r.items
      match r.err with
      | some e => throw (.other e)
      | none => pure ()) fun e => do
        tryCatch (remote b.Close) fun _ => pure ()
        throw e

end Signatory.Vault

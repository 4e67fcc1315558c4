import Signatory.Cryptoutils.Pkcs
import Signatory.Lib.Command
import Signatory.Lib.Pem
import Signatory.Vault.CloudKms.Wrap

/-!
# Import into Cloud KMS

`Import` creates a key and an import job, waits for the job's RSA key, wraps the private key for it and waits for the
new version of the key.  The client of the service is any that has the five calls; `fuel` bounds the polls of either
loop, and `Stop.polling` is the outcome of an import that has not come to its end by then.

The job's key is parsed with `x509.ParsePKIXPublicKey`, which knows no RSA keys, so no import ever succeeds
(`import_fails`), although a parser that knows them would do (`importWith_succeeds`).
-/

namespace Signatory.Vault.CloudKms

open Lib.Command Lib.Fallible
open Lib Lib.Der
open Cryptoutils Cryptoutils.Asn1
open Signer (Bytes Error)

structure Config where
  project : String
  location : String
  keyRing : String

def Config.keyRingName (c : Config) : String :=
  "projects/" ++ c.project ++ "/locations/" ++ c.location ++ "/keyRings/" ++ c.keyRing

/-! ## The service -/

inductive Purpose where
  | UNSPECIFIED
  | ENCRYPT_DECRYPT
  | ASYMMETRIC_SIGN
  | ASYMMETRIC_DECRYPT
  | RAW_ENCRYPT_DECRYPT
  | MAC
  deriving DecidableEq

inductive VersionState where
  | UNSPECIFIED
  | PENDING_GENERATION
  | ENABLED
  | DISABLED
  | DESTROYED
  | DESTROY_SCHEDULED
  | PENDING_IMPORT
  | IMPORT_FAILED
  | GENERATION_FAILED
  | PENDING_EXTERNAL_DESTRUCTION
  | EXTERNAL_DESTRUCTION_FAILED
  deriving DecidableEq

/-- `CryptoKeyVersion`; `text` is what `%v` prints. -/
structure CryptoKeyVersion where
  name : String
  state : VersionState
  text : String := ""
  deriving DecidableEq

inductive ImportJobState where
  | UNSPECIFIED
  | PENDING_GENERATION
  | ACTIVE
  | EXPIRED
  deriving DecidableEq

/-- `ImportJob`; the PEM text is that of its public key, which may be nil. -/
structure ImportJob where
  name : String
  state : ImportJobState
  pem : Option Bytes := none
  text : String := ""

inductive ProtectionLevel where
  | SOFTWARE
  | HSM

inductive Algorithm where
  | EC_SIGN_P256_SHA256

inductive ImportMethod where
  | RSA_OAEP_4096_SHA1_AES_256

structure CreateCryptoKeyRequest where
  parent : String
  cryptoKeyId : String
  purpose : Purpose
  protectionLevel : ProtectionLevel
  algorithm : Algorithm
  skipInitialVersionCreation : Bool

structure CreateImportJobRequest where
  parent : String
  importJobId : String
  importMethod : ImportMethod
  protectionLevel : ProtectionLevel

structure ImportCryptoKeyVersionRequest where
  parent : String
  algorithm : Algorithm
  importJob : String
  rsaAesWrappedKey : Bytes

/-- The calls, on states `ρ` of the service.  Of a new key the name is used. -/
structure Client (ρ : Type) where
  CreateCryptoKey : CreateCryptoKeyRequest → Cmd ρ Error String
  CreateImportJob : CreateImportJobRequest → Cmd ρ Error ImportJob
  GetImportJob : String → Cmd ρ Error ImportJob
  ImportCryptoKeyVersion : ImportCryptoKeyVersionRequest → Cmd ρ Error CryptoKeyVersion
  GetCryptoKeyVersion : String → Cmd ρ Error CryptoKeyVersion

/-- The service, and the imports that were asked for. -/
structure Session (ρ : Type) where
  remote : ρ
  sent : List ImportCryptoKeyVersionRequest := []

/-- Why no key is returned. -/
inductive Stop where
  | polling
  /-- The panic of reading a nil public key or PEM block. -/
  | panic
  | failed (e : Error)

/-! ## The import -/

/-- `crypt.PrivateKey`, with its `%T`. -/
structure CryptPrivateKey where
  key : PrivateKey
  typeName : String

/-- `cloudKMSKey`. -/
structure CloudKmsKey where
  key : CryptoKeyVersion
  pub : PublicKey

def getAlgorithm (curve : Curve) : Option Algorithm := if curve = .P256 then some .EC_SIGN_P256_SHA256 else none

/-- The `%T` of a public key. -/
def publicKeyType : PublicKey → String
  | .ecdsa _ => "*ecdsa.PublicKey"
  | .ed25519 _ => "ed25519.PublicKey"
  | .rsa _ => "*rsa.PublicKey"

/-- The strings that are drawn for names, the AES key that `rand.Read` returns, and what the encryption draws. -/
structure Randomness where
  keyId : String
  jobId : String
  aesKey : Except Error Bytes
  oaep : Bytes

section

variable {ρ : Type} (config : Config) (client : Client ρ)

/-- An error with the name of the key ring in front. -/
def named (what : String) (e : Error) : Stop :=
  .failed { e with text := "(CloudKMS/" ++ config.keyRingName ++ ")" ++ what ++ ": " ++ e.text }

def fail (what : String) : Stop := .failed { text := "(CloudKMS/" ++ config.keyRingName ++ ")" ++ what }

/-- A call to the service. -/
def call {α : Type} (what : String) (c : Cmd ρ Error α) : Cmd (Session ρ) Stop α :=
  within Session.remote (fun r s => { s with remote := r }) (named config (" " ++ what)) c

/-- Asking again while the answer is one to wait for. -/
def poll {α : Type} (pending : α → Prop) [DecidablePred pending] (again : α → Cmd (Session ρ) Stop α) :
    ℕ → α → Cmd (Session ρ) Stop α
  | fuel, a =>
    if ¬ pending a then pure a
    else
      match fuel with
      | 0 => throw .polling
      | fuel + 1 => do
        let a ← again a
        poll pending again fuel a

def pollJob : ℕ → ImportJob → Cmd (Session ρ) Stop ImportJob :=
  poll (fun job => job.state = .PENDING_GENERATION) fun job =>
    call config "GetImportJob" (client.GetImportJob job.name)

def pollVersion : ℕ → CryptoKeyVersion → Cmd (Session ρ) Stop CryptoKeyVersion :=
  poll (fun ver => ver.state = .PENDING_IMPORT) fun ver =>
    call config "ImportCryptoKeyVersion" (client.GetCryptoKeyVersion ver.name)

/-- The RSA key of an active job, with a parser of public keys. -/
def decodeJobKey (parse : Bytes → Except Error PublicKey) (job : ImportJob) : Cmd (Session ρ) Stop RsaPublicKey := do
  if job.state ≠ .ACTIVE then throw (fail config (": unexpected import job state (" ++ job.text ++ ")"))
  let some pemBlock := job.pem.bind Pem.decode
    | throw .panic
  let opaqueJobKey ← liftM ((parse pemBlock).mapError (named config ""))
  let .rsa jobPubKey := opaqueJobKey
    | throw (fail config (": not a RSA public key: " ++ publicKeyType opaqueJobKey))
  pure jobPubKey

/-- The import of the wrapped key, until the version is enabled. -/
def importVersion (fuel : ℕ) (importReq : ImportCryptoKeyVersionRequest) : Cmd (Session ρ) Stop CryptoKeyVersion := do
  modify fun s => { s with sent := s.sent ++ [importReq] }
  let ver ← call config "ImportCryptoKeyVersion" (client.ImportCryptoKeyVersion importReq)
  let ver ← pollVersion config client fuel ver
  if ver.state ≠ .ENABLED then throw (fail config (": unexpected key version state (" ++ ver.text ++ ")"))
  pure ver

/-- The import once the job has left its first state, with a parser of public keys. -/
def finishImport (parse : Bytes → Except Error PublicKey) (p : Primitives) (fuel : ℕ)
    (rnd : Randomness) (ecdsaKey : EcdsaPrivateKey) (algo : Algorithm) (newKey : String) (job : ImportJob) :
    Cmd (Session ρ) Stop CloudKmsKey := do
  let jobPubKey ← decodeJobKey config parse job
  let wrappedKey ← liftM ((wrapPrivateKey p rnd.aesKey rnd.oaep jobPubKey (.ecdsa ecdsaKey)).mapError (named config ""))
  let ver ← importVersion config client fuel {
    parent := newKey
    algorithm := algo
    importJob := job.name
    rsaAesWrappedKey := wrappedKey }
  pure ⟨ver, .ecdsa ecdsaKey.toEcdsaPublicKey⟩

def importWith (parse : Bytes → Except Error PublicKey) (p : Primitives) (fuel : ℕ)
    (rnd : Randomness) (pk : CryptPrivateKey) (name : Option String) : Cmd (Session ρ) Stop CloudKmsKey := do
  let keyName := name.getD ("signatory-imported-" ++ rnd.keyId)
  let .ecdsa ecdsaKey := pk.key
    | throw (fail config (" unsupported key type: " ++ pk.typeName))
  let some algo := getAlgorithm ecdsaKey.curve
    | throw (fail config (" unsupported curve: " ++ ecdsaKey.curve.Params.name))
  let newKey ← call config "CreateCryptoKey" (client.CreateCryptoKey {
    parent := config.keyRingName
    cryptoKeyId := keyName
    purpose := .ASYMMETRIC_SIGN
    protectionLevel := .HSM
    algorithm := algo
    skipInitialVersionCreation := true })
  let job ← call config "CreateImportJob" (client.CreateImportJob {
    parent := config.keyRingName
    importJobId := "signatory-import-job-" ++ rnd.jobId
    importMethod := .RSA_OAEP_4096_SHA1_AES_256
    protectionLevel := .HSM })
  let job ← pollJob config client fuel job
  finishImport config client parse p fuel rnd ecdsaKey algo newKey job

def Import (p : Primitives) (fuel : ℕ) (rnd : Randomness) (pk : CryptPrivateKey)
    (name : Option String) : Cmd (Session ρ) Stop CloudKmsKey :=
  importWith config client (ParsePKIXPublicKey p.cb) p fuel rnd pk name

end

/-! ## No import succeeds -/

section

variable {ρ : Type} {config : Config} {client : Client ρ}

lemma ParsePKIXPublicKey_ne_rsa (cb : Cryptobyte) (der : Bytes) (k : RsaPublicKey) :
    ParsePKIXPublicKey cb der ≠ .ok (.rsa k) := by
  intro h
  unfold ParsePKIXPublicKey at h
  split at h
  case h_2 => cases h
  case h_1 algoOid algo keyData _ =>
    split_ifs at h with hec hed
    · obtain ⟨curveOid, -, h⟩ := ok_bind_iff.1 h
      split at h
      · split at h
        · cases h
        · cases h
      · cases h
    · cases (ok_check_bind_iff.1 h).2

lemma decodeJobKey_fails {parse : Bytes → Except Error PublicKey} (hparse : ∀ der k, parse der ≠ .ok (.rsa k))
    (job : ImportJob) (s : Session ρ) :
    wp (decodeJobKey config parse job) (fun _ _ => False) (fun _ _ => True) s := by
  unfold decodeJobKey
  split_ifs with hstate
  · trivial
  · split
    case h_2 => trivial
    case h_1 pemBlock _ =>
      rw [wp_bind, wp_mapError]
      refine ⟨fun opaqueJobKey hkey => ?_, fun _ _ => trivial⟩
      cases opaqueJobKey with
      | rsa k => exact hparse pemBlock k hkey
      | ecdsa k => trivial
      | ed25519 k => trivial

lemma finishImport_fails {parse : Bytes → Except Error PublicKey} (hparse : ∀ der k, parse der ≠ .ok (.rsa k))
    (p : Primitives) (fuel : ℕ) (rnd : Randomness) (ecdsaKey : EcdsaPrivateKey)
    (algo : Algorithm) (newKey : String) (job : ImportJob) (s : Session ρ) :
    wp (finishImport config client parse p fuel rnd ecdsaKey algo newKey job) (fun _ _ => False)
      (fun _ _ => True) s := by
  unfold finishImport
  rw [wp_bind]
  exact wp_mono (decodeJobKey_fails hparse job s) (fun _ _ h => h.elim) fun _ _ h => h

/-- With a parser that returns no RSA key, no key is imported. -/
lemma importWith_fails {parse : Bytes → Except Error PublicKey} (hparse : ∀ der k, parse der ≠ .ok (.rsa k))
    (p : Primitives) (fuel : ℕ) (rnd : Randomness) (pk : CryptPrivateKey)
    (name : Option String) (s : Session ρ) :
    wp (importWith config client parse p fuel rnd pk name) (fun _ _ => False) (fun _ _ => True) s := by
  unfold importWith
  split
  case h_2 => trivial
  case h_1 ecdsaKey _ =>
    split
    case h_2 => trivial
    case h_1 algo _ =>
      -- whatever the calls before return
      rw [wp_bind]
      refine wp_of_exec _ (fun newKey s _ => ?_) fun _ _ _ => trivial
      rw [wp_bind]
      refine wp_of_exec _ (fun job s _ => ?_) fun _ _ _ => trivial
      rw [wp_bind]
      refine wp_of_exec _ (fun job s _ => ?_) fun _ _ _ => trivial
      exact finishImport_fails hparse p fuel rnd ecdsaKey algo newKey job s

end

/-! ## A service that answers -/

/-- The answers of a service whose calls all succeed. -/
structure Script where
  newKey : String
  jobs : List ImportJob
  versions : List CryptoKeyVersion

/-- The next of the answers in a list. -/
def next {α : Type} (view : Script → List α) (put : List α → Script → Script) : Cmd Script Error α := do
  let s ← get
  match view s with
  | [] => throw { text := "unavailable" }
  | a :: rest => do
    set (put rest s)
    pure a

def nextJob : Cmd Script Error ImportJob := next Script.jobs fun jobs s => { s with jobs := jobs }

def nextVersion : Cmd Script Error CryptoKeyVersion :=
  next Script.versions fun versions s => { s with versions := versions }

def scripted : Client Script where
  CreateCryptoKey _ := do
    let s ← get
    pure s.newKey
  CreateImportJob _ := nextJob
  GetImportJob _ := nextJob
  ImportCryptoKeyVersion _ := nextVersion
  GetCryptoKeyVersion _ := nextVersion

/-- The job becomes active with this RSA key, and the version enabled, each after any number of other answers. -/
structure Script.Good (jobKey : RsaPublicKey) (run : Script) : Prop where
  jobs : ∃ pending active pem, run.jobs = pending ++ [active] ∧
    (∀ job ∈ pending, ImportJob.state job = .PENDING_GENERATION) ∧ active.state = .ACTIVE ∧ active.pem = some pem ∧
      Pem.decode pem = some (rsaPublicKeyInfo jobKey)
  versions : ∃ pending enabled, run.versions = pending ++ [enabled] ∧
    (∀ ver ∈ pending, CryptoKeyVersion.state ver = .PENDING_IMPORT) ∧ enabled.state = .ENABLED

/-- An RSA key of 4096 bits. -/
structure IsJobKey (k : RsaPublicKey) : Prop where
  ge : 2 ^ 4095 ≤ k.n
  lt : k.n < 2 ^ 4096
  pos : 0 < k.e
  le : k.e < k.n

lemma call_next {α : Type} {view : Script → List α} {put : List α → Script → Script} (config : Config) (what : String)
    {b : α} {rest : List α} {s : Session Script} (h : view s.remote = b :: rest) :
    wp (call config what (next view put)) (fun b' s' => b' = b ∧ s' = { s with remote := put rest s.remote })
      (fun _ _ => False) s := by
  unfold call next
  rw [wp_within, wp_bind, wp_get, h]
  exact ⟨rfl, rfl⟩

/-- A list of answers in the script. -/
structure IsQueue {α : Type} (view : Script → List α) (put : List α → Script → Script) : Prop where
  put_view : ∀ r, put (view r) r = r
  view_put : ∀ rest r, view (put rest r) = rest
  put_put : ∀ rest rest' r, put rest (put rest' r) = put rest r

/-- The answers are taken one after the other, up to the first that is not to wait for. -/
lemma poll_next {α : Type} {view : Script → List α} {put : List α → Script → Script} (hq : IsQueue view put)
    (config : Config) (what : String) {pending : α → Prop} [DecidablePred pending] {fuel : ℕ} {a last : α}
    {waiting : List α} {s : Session Script} (hfuel : waiting.length ≤ fuel)
    (hqueue : a :: view s.remote = waiting ++ [last]) (hwaiting : ∀ b ∈ waiting, pending b) (hlast : ¬ pending last) :
    wp (poll pending (fun _ => call config what (next view put)) fuel a)
      (fun b s' => b = last ∧ s' = { s with remote := put [] s.remote }) (fun _ _ => False) s := by
  induction waiting generalizing a s fuel with
  | nil =>
    obtain ⟨rfl, hnil⟩ := List.cons.inj hqueue
    have hs : put [] s.remote = s.remote := by
      rw [← hnil]
      exact hq.put_view s.remote
    unfold poll
    rw [if_pos hlast]
    refine ⟨rfl, ?_⟩
    rw [hs]
  | cons w waiting ih =>
    obtain ⟨rfl, hrest⟩ := List.cons.inj hqueue
    obtain ⟨fuel, rfl⟩ : ∃ n, fuel = n + 1 := ⟨fuel - 1, by simp at hfuel; omega⟩
    obtain ⟨b, rest, hb⟩ : ∃ b rest, waiting ++ [last] = b :: rest := by
      cases waiting with
      | nil => exact ⟨last, [], rfl⟩
      | cons b rest => exact ⟨b, rest ++ [last], rfl⟩
    have hpending : pending a := hwaiting a List.mem_cons_self
    unfold poll
    rw [if_neg (not_not.2 hpending)]
    simp only [wp_bind]
    refine wp_mono (call_next config what (hrest.trans hb)) ?_ fun _ _ h => h
    rintro b' _ ⟨rfl, rfl⟩
    have hqueue' : b' :: view (put rest s.remote) = waiting ++ [last] := by rw [hq.view_put, hb]
    rw [← hq.put_put [] rest s.remote]
    exact ih (by simpa using hfuel) hqueue' fun b' hb' => hwaiting b' (List.mem_cons_of_mem a hb')

lemma isQueue_jobs : IsQueue Script.jobs fun jobs s => { s with jobs := jobs } :=
  ⟨fun _ => rfl, fun _ _ => rfl, fun _ _ _ => rfl⟩

lemma isQueue_versions : IsQueue Script.versions fun versions s => { s with versions := versions } :=
  ⟨fun _ => rfl, fun _ _ => rfl, fun _ _ _ => rfl⟩

lemma importWith_scripted {config : Config} {parse : Bytes → Except Error PublicKey} {p : Primitives}
    {fuel : ℕ} {rnd : Randomness} {k : EcdsaPrivateKey} (typeName : String) (name : Option String) {run : Script}
    {pending : List ImportJob} {active : ImportJob} {Q : CloudKmsKey → Session Script → Prop}
    {E : Stop → Session Script → Prop} (hk : k.curve = .P256)
    (hjobs : run.jobs = pending ++ [active]) (hpending : ∀ job ∈ pending, ImportJob.state job = .PENDING_GENERATION)
    (hactive : active.state = .ACTIVE) (hfuel : pending.length ≤ fuel)
    (h : wp (finishImport config scripted parse p fuel rnd k .EC_SIGN_P256_SHA256 run.newKey active) Q E
      ⟨{ run with jobs := [] }, []⟩) :
    wp (importWith config scripted parse p fuel rnd ⟨.ecdsa k, typeName⟩ name) Q E ⟨run, []⟩ := by
  obtain ⟨job, rest, hrest⟩ : ∃ job rest, pending ++ [active] = job :: rest := by
    cases pending with
    | nil => exact ⟨active, [], rfl⟩
    | cons job rest => exact ⟨job, rest ++ [active], rfl⟩
  have halgo : getAlgorithm k.curve = some .EC_SIGN_P256_SHA256 := if_pos hk
  simp only [importWith, halgo]
  rw [wp_bind, call, wp_within, scripted, wp_bind, wp_get, wp_pure, wp_bind]
  refine wp_mono (call_next config _ (hjobs.trans hrest)) ?_ fun _ _ h => h.elim
  rintro job _ ⟨rfl, rfl⟩
  rw [wp_bind]
  refine wp_mono (poll_next isQueue_jobs config "GetImportJob" hfuel hrest.symm hpending (by simp [hactive])) ?_
    fun _ _ h => h.elim
  rintro _ _ ⟨rfl, rfl⟩
  exact h

lemma importVersion_scripted {config : Config} {fuel : ℕ} {run : Script} {sent : List ImportCryptoKeyVersionRequest}
    {pending : List CryptoKeyVersion} {enabled : CryptoKeyVersion} (hversions : run.versions = pending ++ [enabled])
    (hpending : ∀ ver ∈ pending, CryptoKeyVersion.state ver = .PENDING_IMPORT) (henabled : enabled.state = .ENABLED)
    (hfuel : pending.length ≤ fuel) (req : ImportCryptoKeyVersionRequest) :
    wp (importVersion config scripted fuel req) (fun ver s' => ver = enabled ∧ s'.sent = sent ++ [req])
      (fun _ _ => False) ⟨run, sent⟩ := by
  obtain ⟨ver, rest, hrest⟩ : ∃ ver rest, pending ++ [enabled] = ver :: rest := by
    cases pending with
    | nil => exact ⟨enabled, [], rfl⟩
    | cons ver rest => exact ⟨ver, rest ++ [enabled], rfl⟩
  unfold importVersion
  rw [wp_bind, wp_modify, wp_bind]
  refine wp_mono (call_next config _ (hversions.trans hrest)) ?_ fun _ _ h => h.elim
  rintro ver _ ⟨rfl, rfl⟩
  rw [wp_bind]
  refine wp_mono (poll_next isQueue_versions config "ImportCryptoKeyVersion" hfuel hrest.symm hpending
    (by simp [henabled])) ?_ fun _ _ h => h.elim
  rintro ver' _ ⟨rfl, rfl⟩
  rw [if_neg (not_not.2 henabled)]
  exact ⟨rfl, rfl⟩

/-- The import returns the public key of the private one, and what it sent was wrapped for the job's key. -/
def Imports (c : Cmd (Session Script) Stop CloudKmsKey) (p : Primitives) (rnd : Randomness) (k : EcdsaPrivateKey)
    (jobKey : RsaPublicKey) (run : Script) : Prop :=
  ∃ key s', exec c ⟨run, []⟩ = (.ok key, s') ∧ key.pub = .ecdsa k.toEcdsaPublicKey ∧
    ∃ req ∈ s'.sent, wrapPrivateKey p rnd.aesKey rnd.oaep jobKey (.ecdsa k) = .ok req.rsaAesWrappedKey

lemma decodeJobKey_active {ρ : Type} {config : Config} {parse : Bytes → Except Error PublicKey} {active : ImportJob}
    {pem der : Bytes} {Q : RsaPublicKey → Session ρ → Prop} {E : Stop → Session ρ → Prop} {s : Session ρ}
    (hactive : active.state = .ACTIVE) (hpem : active.pem = some pem) (hdecode : Pem.decode pem = some der)
    (hok : ∀ key, parse der = .ok (.rsa key) → Q key s)
    (hother : ∀ key, parse der = .ok key → (∀ k, key ≠ .rsa k) →
      E (fail config (": not a RSA public key: " ++ publicKeyType key)) s)
    (herr : ∀ e, parse der = .error e → E (named config "" e) s) :
    wp (decodeJobKey config parse active) Q E s := by
  unfold decodeJobKey
  rw [if_neg (not_not.2 hactive), hpem, Option.bind_some, hdecode]
  simp only [wp_bind]
  rw [wp_mapError]
  refine ⟨fun key hkey => ?_, herr⟩
  cases key with
  | rsa k => exact hok k hkey
  | ecdsa k => exact hother _ hkey fun _ h => by cases h
  | ed25519 k => exact hother _ hkey fun _ h => by cases h

lemma finishImport_succeeds (config : Config) {parse : Bytes → Except Error PublicKey} {p : Primitives} {fuel : ℕ}
    (rnd : Randomness) {k : EcdsaPrivateKey} {run : Script} {active : ImportJob} {pem der material : Bytes}
    {jobKey : RsaPublicKey} {waiting : List CryptoKeyVersion} {enabled : CryptoKeyVersion}
    (hactive : active.state = .ACTIVE) (hpem : active.pem = some pem) (hdecode : Pem.decode pem = some der)
    (hparse : parse der = .ok (.rsa jobKey))
    (hwrap : wrapPrivateKey p rnd.aesKey rnd.oaep jobKey (.ecdsa k) = .ok material)
    (hversions : run.versions = waiting ++ [enabled])
    (hwaiting : ∀ ver ∈ waiting, CryptoKeyVersion.state ver = .PENDING_IMPORT) (henabled : enabled.state = .ENABLED)
    (hfuel : waiting.length ≤ fuel) (algo : Algorithm) (newKey : String) :
    wp (finishImport config scripted parse p fuel rnd k algo newKey active)
      (fun key s' => key.pub = .ecdsa k.toEcdsaPublicKey ∧
        ∃ req ∈ s'.sent, wrapPrivateKey p rnd.aesKey rnd.oaep jobKey (.ecdsa k) = .ok req.rsaAesWrappedKey)
      (fun _ _ => False) ⟨{ run with jobs := [] }, []⟩ := by
  unfold finishImport
  rw [wp_bind]
  refine decodeJobKey_active hactive hpem hdecode ?_ ?_ ?_
  · intro key hkey
    obtain rfl := PublicKey.rsa.inj (Except.ok.inj (hparse.symm.trans hkey))
    rw [wp_bind, wp_mapError]
    refine ⟨fun material' hmaterial => ?_, fun e he => ?_⟩
    · have hversions' : ({ run with jobs := [] } : Script).versions = waiting ++ [enabled] := hversions
      rw [wp_bind]
      refine wp_mono (importVersion_scripted hversions' hwaiting henabled hfuel _) ?_ fun _ _ h => h.elim
      rintro ver s' ⟨-, hsent⟩
      refine ⟨rfl, ⟨newKey, algo, active.name, material'⟩, ?_, hmaterial⟩
      rw [hsent]
      exact List.mem_append_right _ List.mem_cons_self
    · rw [hwrap] at he
      cases he
  · intro key hkey hne
    exact hne jobKey (Except.ok.inj (hkey.symm.trans hparse))
  · intro e he
    rw [hparse] at he
    cases he

/-- With a parser that returns the job's key, an import succeeds whenever the service does. -/
theorem importWith_succeeds {config : Config} {parse : Bytes → Except Error PublicKey} {p : Primitives} (hp : p.Correct)
    {rnd : Randomness} {k : EcdsaPrivateKey} {typeName : String} {name : Option String}
    {run : Script} {job : JobKey} (hk : k.Valid) (hcurve : k.curve = .P256) (hjob : job.Decrypts p)
    (hrun : run.Good job.pub) (hparse : parse (rsaPublicKeyInfo job.pub) = .ok (.rsa job.pub)) {aesKey : Bytes}
    (hread : rnd.aesKey = .ok aesKey) (hlen : aesKey.length = 32) {fuel : ℕ} (hjobs : run.jobs.length ≤ fuel)
    (hversions : run.versions.length ≤ fuel) :
    Imports (importWith config scripted parse p fuel rnd ⟨.ecdsa k, typeName⟩ name) p rnd k job.pub run := by
  obtain ⟨pending, active, pem, hrunJobs, hpending, hactive, hpem, hdecode⟩ := hrun.jobs
  obtain ⟨waiting, enabled, hrunVersions, hwaiting, henabled⟩ := hrun.versions
  have hkey : IsSigningKey p (.ecdsa k) := hk
  obtain ⟨c, block, wrapped, der, hwrap, -⟩ := wrapPrivateKey_eq hp hjob hkey hlen rnd.oaep
  rw [← hread] at hwrap
  have hfuel : pending.length ≤ fuel := by
    rw [hrunJobs, List.length_append] at hjobs
    omega
  have hfuel' : waiting.length ≤ fuel := by
    rw [hrunVersions, List.length_append] at hversions
    omega
  have hfinish := finishImport_succeeds config rnd hactive hpem hdecode hparse hwrap hrunVersions
    hwaiting henabled hfuel' .EC_SIGN_P256_SHA256 run.newKey
  have hwp := importWith_scripted typeName name hcurve hrunJobs hpending hactive hfuel hfinish
  rcases wp_cases hwp with ⟨key, hok, hpub, hsent⟩ | ⟨_, -, h⟩
  · exact ⟨key, _, Prod.ext hok rfl, hpub, hsent⟩
  · exact h.elim

/-- The error with which every import ends that comes to its end. -/
def importError (config : Config) : Stop :=
  named config "" { text := "x509: unsupported algorithm: [5 0]" }

lemma IsJobKey.small {k : RsaPublicKey} (h : IsJobKey k) : k.Small := by
  have hlt : k.n < 256 ^ 512 := by
    refine h.lt.trans_eq ?_
    rw [show (256 : ℕ) = 2 ^ 8 from rfl, ← pow_mul]
  have hn : (natural k.n).length ≤ 512 + 1 := length_natural_le hlt
  have he : (integer k.e).length ≤ 512 + 1 := by
    obtain ⟨e, he⟩ := Int.eq_ofNat_of_zero_le h.pos.le
    have hle : e < k.n := by
      have := h.le
      omega
    rw [he]
    exact length_natural_le (hle.trans hlt)
  have h₁ : (element INTEGER (natural k.n)).length ≤ 512 + 1 + 6 := length_element_le hn (by norm_num)
  have h₂ : (element INTEGER (integer k.e)).length ≤ 512 + 1 + 6 := length_element_le he (by norm_num)
  have h₃ : (element INTEGER (natural k.n) ++ element INTEGER (integer k.e)).length ≤ 1038 := by
    rw [List.length_append]
    omega
  have h₄ : (rsaPublicKeyBytes k).length ≤ 1038 + 6 := length_element_le h₃ (by norm_num)
  exact h₄.trans (by norm_num)

/-- **No import succeeds**: however long the service takes, no key is returned, and once the job is active the import
ends with the error of the parser, with nothing sent. -/
theorem import_fails {p : Primitives} (hcb : p.cb.Correct) (config : Config) (rnd : Randomness) (typeName : String)
    (name : Option String) {k : EcdsaPrivateKey} {run : Script} {jobKey : RsaPublicKey}
    (hcurve : k.curve = .P256) (hjob : IsJobKey jobKey) (hrun : run.Good jobKey) (fuel : ℕ) :
    ¬ Imports (Import config scripted p fuel rnd ⟨.ecdsa k, typeName⟩ name) p rnd k jobKey run ∧
      (run.jobs.length ≤ fuel →
        exec (Import config scripted p fuel rnd ⟨.ecdsa k, typeName⟩ name) ⟨run, []⟩ =
          (.error (importError config), ⟨{ run with jobs := [] }, []⟩)) := by
  constructor
  · rintro ⟨key, s', hexec, -⟩
    have hfails : wp (Import config scripted p fuel rnd ⟨.ecdsa k, typeName⟩ name) (fun _ _ => False) (fun _ _ => True)
        ⟨run, []⟩ := importWith_fails (ParsePKIXPublicKey_ne_rsa p.cb) p fuel rnd _ name _
    exact wp_post hfails hexec
  · intro hfuel
    obtain ⟨pending, active, pem, hrunJobs, hpending, hactive, hpem, hdecode⟩ := hrun.jobs
    have hfuel' : pending.length ≤ fuel := by
      rw [hrunJobs, List.length_append] at hfuel
      omega
    have hparse := ParsePKIXPublicKey_rsa hcb hjob.small
    generalize hr : (Except.error (importError config), (⟨{ run with jobs := [] }, []⟩ : Session Script)) = r
    refine (wp_exec (Import config scripted p fuel rnd ⟨.ecdsa k, typeName⟩ name) (· = r)).1 ?_
    refine importWith_scripted typeName name hcurve hrunJobs hpending hactive hfuel' ?_
    unfold finishImport
    rw [wp_bind]
    refine decodeJobKey_active hactive hpem hdecode ?_ ?_ ?_
    · intro key hkey
      rw [hparse] at hkey
      cases hkey
    · intro key hkey
      rw [hparse] at hkey
      cases hkey
    · intro e he
      obtain rfl := Except.error.inj (hparse.symm.trans he)
      exact hr

/-- The type line of a public key. -/
def publicKeyLine : Bytes := [0x50, 0x55, 0x42, 0x4c, 0x49, 0x43, 0x20, 0x4b, 0x45, 0x59]

lemma publicKeyLine_oneLine : ∀ c ∈ publicKeyLine, c ≠ 0x0a := by decide +kernel

/-- The job is active at the second time of asking, and the version enabled. -/
def goodRun : Script where
  newKey := "key"
  jobs := [⟨"job", .PENDING_GENERATION, none, ""⟩,
    ⟨"job", .ACTIVE, some (Pem.encode publicKeyLine (rsaPublicKeyInfo openJob.pub)), ""⟩]
  versions := [⟨"key/1", .PENDING_IMPORT, ""⟩, ⟨"key/1", .ENABLED, ""⟩]

lemma goodRun_good : goodRun.Good openJob.pub where
  jobs := ⟨[⟨"job", .PENDING_GENERATION, none, ""⟩], _, _, rfl, by simp, rfl, rfl,
    Pem.decode_encode publicKeyLine_oneLine _⟩
  versions := ⟨[⟨"key/1", .PENDING_IMPORT, ""⟩], _, rfl, by simp, rfl⟩

lemma openJob_isJobKey : IsJobKey openJob.pub where
  ge := by decide +kernel
  lt := by decide +kernel
  pos := by decide
  le := by decide +kernel

def goodRandomness : Randomness := ⟨"0", "1", .ok (List.replicate 32 7), []⟩

theorem import_fails_of_goodRun :
    ¬ Imports (Import ⟨"p", "l", "r"⟩ scripted openPrimitives 2 goodRandomness
        ⟨.ecdsa (unitKey .P256), "*crypt.ECDSAPrivateKey"⟩ none) openPrimitives goodRandomness (unitKey .P256)
          openJob.pub goodRun ∧
      (goodRun.jobs.length ≤ 2 →
        exec (Import ⟨"p", "l", "r"⟩ scripted openPrimitives 2 goodRandomness
            ⟨.ecdsa (unitKey .P256), "*crypt.ECDSAPrivateKey"⟩ none) ⟨goodRun, []⟩ =
          (.error (importError ⟨"p", "l", "r"⟩), ⟨{ goodRun with jobs := [] }, []⟩)) :=
  import_fails derbyte_correct _ _ _ _ rfl openJob_isJobKey goodRun_good 2

/-- A valid key, primitives that do what they should and a service that always succeeds, and no key is imported. -/
theorem import_of_unitKey_fails :
    (unitKey .P256).Valid ∧ openPrimitives.Correct ∧ openJob.Decrypts openPrimitives ∧ IsJobKey openJob.pub ∧
      goodRun.Good openJob.pub ∧ ∀ fuel,
        ¬ Imports (Import ⟨"p", "l", "r"⟩ scripted openPrimitives fuel goodRandomness
          ⟨.ecdsa (unitKey .P256), "*crypt.ECDSAPrivateKey"⟩ none) openPrimitives goodRandomness (unitKey .P256)
            openJob.pub goodRun := by
  refine ⟨unitKey_valid trivial, openPrimitives_correct, openJob_decrypts, openJob_isJobKey, goodRun_good, ?_⟩
  rintro fuel ⟨key, s', hexec, -⟩
  have hfails : wp (Import ⟨"p", "l", "r"⟩ scripted openPrimitives fuel goodRandomness
      ⟨.ecdsa (unitKey .P256), "*crypt.ECDSAPrivateKey"⟩ none) (fun _ _ => False) (fun _ _ => True) ⟨goodRun, []⟩ :=
    importWith_fails (ParsePKIXPublicKey_ne_rsa derbyte) _ fuel _ _ none _
  exact wp_post hfails hexec

end Signatory.Vault.CloudKms

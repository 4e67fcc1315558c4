import Signatory.Lib.Listing
import Signatory.Vault.CloudKms.Import

/-!
# The keys of Cloud KMS

`cloudKMSIterator` goes through the versions of every key of the ring.  The iterators of the client are the lists of
their answers, after which they are done.  `entries` is what a state has still before it, whatever the service answers,
and the iterator reads it entry by entry (`iterator_follows`).

The error that `ParsePKIXPublicKey` gives for an RSA key carries no code, so an enabled version of a signing key that is
one ends the listing, although only EC keys are meant to be listed: `listing_iff`.
-/

namespace Signatory.Vault.CloudKms

open Lib Lib.Listing
open Cryptoutils
open Signer (Bytes Error)

/-! ## The service -/

/-- `codes.Code` of gRPC. -/
inductive Code where
  | OK
  | Canceled
  | Unknown
  | InvalidArgument
  | DeadlineExceeded
  | NotFound
  | AlreadyExists
  | PermissionDenied
  | ResourceExhausted
  | FailedPrecondition
  | Aborted
  | OutOfRange
  | Unimplemented
  | Internal
  | Unavailable
  | DataLoss
  | Unauthenticated
  deriving DecidableEq

/-- An error of a call, with a code or without one, or one of `cryptoutils`. -/
inductive KmsError where
  | status (code : Code) (e : Error)
  | plain (e : Error)
  | crypt (e : CryptError)
  deriving DecidableEq

structure CryptoKey where
  name : String
  purpose : Purpose

/-- The calls that list the keys, whose answers do not change meanwhile. -/
structure ListClient where
  ListCryptoKeys : String → List (Except KmsError CryptoKey)
  ListCryptoKeyVersions : String → List (Except KmsError CryptoKeyVersion)
  /-- The PEM text of a public key. -/
  GetPublicKey : String → Except KmsError Bytes

def isErrorSkippable : Code → Bool
  | .PermissionDenied | .NotFound | .FailedPrecondition => true
  | _ => false

def grpcCodeFromError : KmsError → Option Code
  | .status code _ => some code
  | _ => none

/-- The error has a code, and that is one to pass over. -/
def KmsError.skippable (e : KmsError) : Bool := (grpcCodeFromError e).any isErrorSkippable

/-- An error with the name of the key ring and of the call in front. -/
structure ListError where
  text : String
  cause : KmsError
  deriving DecidableEq

/-! ## The iterator -/

/-- `cloudKMSIterator`. -/
structure CloudKmsIterator where
  keyIter : Option (List (Except KmsError CryptoKey))
  verIter : Option (List (Except KmsError CryptoKeyVersion))

/-- The next key for signing, or the error before it, and what is left; there is no answer at the end. -/
def nextKey : List (Except KmsError CryptoKey) → Option (Except KmsError CryptoKey) × List (Except KmsError CryptoKey)
  | [] => (none, [])
  | .error e :: keys => (some (.error e), keys)
  | .ok key :: keys => if key.purpose = .ASYMMETRIC_SIGN then (some (.ok key), keys) else nextKey keys

section

variable (config : Config) (cr : Crypt) (cb : Cryptobyte) (client : ListClient)

/-- The public key of a version; without a PEM block it panics. -/
def getPublicKey (name : String) : Option (Except KmsError PublicKey) :=
  match client.GetPublicKey name with
  | .error e => some (.error e)
  | .ok pem => (Pem.decode pem).map fun block => (cr.ParsePKIXPublicKey cb block).mapError .crypt

def listError (what : String) (e : KmsError) : ListError := ⟨"(CloudKMS/" ++ config.keyRingName ++ ") " ++ what, e⟩

def turn (c : CloudKmsIterator) : Turn CloudKmsIterator (Outcome CloudKmsKey ListError) :=
  match c.verIter with
  | some (.error e :: vers) =>
    if e.skippable then .again { c with verIter := none }
    else .returns (.failed (listError config "ListCryptoKeys" e)) { c with verIter := some vers }
  | some (.ok ver :: vers) =>
    if ver.state = .ENABLED then
      match getPublicKey cr cb client ver.name with
      | none => .returns .panicked { c with verIter := some vers }
      | some (.error e) =>
        if e.skippable then .again { c with verIter := some vers }
        else .returns (.failed (listError config "getPublicKey" e)) { c with verIter := some vers }
      | some (.ok pub) => .returns (.found ⟨ver, pub⟩) { c with verIter := some vers }
    else .again { c with verIter := some vers }
  | none | some [] =>
    match c.keyIter with
    -- not reached from `Next`
    | none => .returns .panicked c
    | some keys =>
      match nextKey keys with
      | (none, _) => .returns .done { c with keyIter := none }
      | (some (.error e), keys) =>
        if e.skippable then .returns .done { c with keyIter := none }
        else .returns (.failed (listError config "ListCryptoKeys" e)) { c with keyIter := some keys }
      | (some (.ok key), keys) => .again ⟨some keys, some (client.ListCryptoKeyVersions key.name)⟩

def iterator : Iterator CloudKmsIterator CloudKmsKey ListError where
  stopped c := c.keyIter.isNone
  turn := turn config cr cb client

def CloudKmsIterator.List : CloudKmsIterator where
  keyIter := some (client.ListCryptoKeys config.keyRingName)
  verIter := none

/-! ## What is read -/

def versionEntry (ver : CryptoKeyVersion) : Entry CloudKmsKey :=
  if ver.state = .ENABLED then
    match getPublicKey cr cb client ver.name with
    | none => .broken
    | some (.error e) => if e.skippable then .skipped else .broken
    | some (.ok pub) => .found ⟨ver, pub⟩
  else .skipped

/-- An error to pass over takes the place of the versions after it. -/
def versionEntries : List (Except KmsError CryptoKeyVersion) → List (Entry CloudKmsKey)
  | [] => []
  | .ok ver :: vers => versionEntry cr cb client ver :: versionEntries vers
  | .error e :: _ => if e.skippable then [.skipped] else [.broken]

/-- The turn that goes on to a key is an entry too. -/
def keyEntries : List (Except KmsError CryptoKey) → List (Entry CloudKmsKey)
  | [] => []
  | .ok key :: keys =>
    if key.purpose = .ASYMMETRIC_SIGN then
      .skipped :: (versionEntries cr cb client (client.ListCryptoKeyVersions key.name) ++ keyEntries keys)
    else keyEntries keys
  | .error e :: _ => if e.skippable then [] else [.broken]

def entries (c : CloudKmsIterator) : List (Entry CloudKmsKey) :=
  match c.keyIter with
  | none => []
  | some keys => versionEntries cr cb client (c.verIter.getD []) ++ keyEntries cr cb client keys

end

section

variable {config : Config} {cr : Crypt} {cb : Cryptobyte} {client : ListClient}

lemma keyEntries_eq (keys : List (Except KmsError CryptoKey)) :
    keyEntries cr cb client keys =
      match nextKey keys with
      | (none, _) => []
      | (some (.error e), _) => if e.skippable then [] else [.broken]
      | (some (.ok key), keys') =>
        .skipped :: (versionEntries cr cb client (client.ListCryptoKeyVersions key.name) ++
          keyEntries cr cb client keys') := by
  induction keys with
  | nil => rfl
  | cons answer keys ih =>
    cases answer with
    | error e => rfl
    | ok key =>
      by_cases hsign : key.purpose = .ASYMMETRIC_SIGN
      · simp only [keyEntries, nextKey, if_pos hsign]
      · simp only [keyEntries, nextKey, if_neg hsign]
        exact ih

/-- **The iterator reads its entries one by one**, whatever the service answers. -/
theorem iterator_follows :
    Follows (iterator config cr cb client) fun c es => entries cr cb client c = es := by
  rintro ⟨keyIter, verIter⟩ _ rfl
  cases keyIter with
  | none => exact Or.inl ⟨rfl, rfl⟩
  | some keys =>
    refine Or.inr ⟨rfl, ?_⟩
    -- with no version left, the next key is looked for
    have hkeys : ∀ verIter, verIter = none ∨ verIter = some [] →
        Reads (iterator config cr cb client) (fun c es => entries cr cb client c = es)
          (keyEntries cr cb client keys) (turn config cr cb client ⟨some keys, verIter⟩) := by
      intro verIter hver
      have hturn : turn config cr cb client ⟨some keys, verIter⟩ =
          match nextKey keys with
          | (none, _) => .returns .done ⟨none, verIter⟩
          | (some (.error e), keys) =>
            if e.skippable then .returns .done ⟨none, verIter⟩
            else .returns (.failed (listError config "ListCryptoKeys" e)) ⟨some keys, verIter⟩
          | (some (.ok key), keys) => .again ⟨some keys, some (client.ListCryptoKeyVersions key.name)⟩ := by
        rcases hver with rfl | rfl <;> rfl
      rw [hturn, keyEntries_eq keys]
      rcases nextKey keys with ⟨_ | e | key, keys'⟩
      · exact .done rfl
      · by_cases hskip : e.skippable = true
        · simp only [if_pos hskip]
          exact .done rfl
        · simp only [if_neg hskip]
          exact .failed _ _ _
      · exact .skipped rfl rfl
    rcases verIter with _ | _ | ⟨e | ver, vers⟩
    · exact hkeys none (Or.inl rfl)
    · exact hkeys (some []) (Or.inr rfl)
    · simp only [entries, iterator, turn, Option.getD_some, versionEntries]
      by_cases hskip : e.skippable = true
      · simp only [if_pos hskip]
        exact .skipped rfl rfl
      · simp only [if_neg hskip]
        exact .failed _ _ _
    · simp only [entries, iterator, turn, Option.getD_some, versionEntries, versionEntry, List.cons_append]
      by_cases henabled : ver.state = .ENABLED
      · simp only [if_pos henabled]
        rcases getPublicKey cr cb client ver.name with _ | e | pub
        · exact .panicked _ _
        · by_cases hskip : e.skippable = true
          · simp only [if_pos hskip]
            exact .skipped rfl rfl
          · simp only [if_neg hskip]
            exact .failed _ _ _
        · exact .found _ rfl
      · simp only [if_neg henabled]
        exact .skipped rfl rfl

end

/-! ## Key rings -/

/-- The public key of a version, as the service has it. -/
inductive Material where
  | ec (k : EcdsaPublicKey)
  | rsa (k : RsaPublicKey)
  | refused (code : Code) (e : Error)

/-- The answers of `GetPublicKey`: a key in PEM, or an error to pass over. -/
inductive Material.AnsweredBy : Material → Except KmsError Bytes → Prop
  | ec {k : EcdsaPublicKey} {pem : Bytes} (hk : k.Valid) (hcurve : k.curve = .P256 ∨ k.curve = .S256)
    (hpem : Pem.decode pem = some (ecPublicKeyInfo k)) : AnsweredBy (.ec k) (.ok pem)
  | rsa {k : RsaPublicKey} {pem : Bytes} (hk : k.Small) (hpem : Pem.decode pem = some (rsaPublicKeyInfo k)) :
    AnsweredBy (.rsa k) (.ok pem)
  | refused {code : Code} (e : Error) (hskip : isErrorSkippable code = true) :
    AnsweredBy (.refused code e) (.error (.status code e))

/-- The keys of a ring, the versions of a key and the public key of a version, by their names. -/
structure Ring where
  keys : List CryptoKey
  versions : String → List CryptoKeyVersion
  material : String → Material

namespace Ring

variable (ring : Ring)

/-- The calls that list succeed, and the public keys of signing keys are those of the ring. -/
structure ServedBy (config : Config) (client : ListClient) : Prop where
  keys : client.ListCryptoKeys config.keyRingName = ring.keys.map .ok
  versions : ∀ key ∈ ring.keys, client.ListCryptoKeyVersions key.name = (ring.versions key.name).map .ok
  material : ∀ key ∈ ring.keys, key.purpose = .ASYMMETRIC_SIGN → ∀ ver ∈ ring.versions key.name,
    (ring.material ver.name).AnsweredBy (client.GetPublicKey ver.name)

/-- What a version is to the iterator. -/
def entry (ver : CryptoKeyVersion) : Entry CloudKmsKey :=
  if ver.state = .ENABLED then
    match ring.material ver.name with
    | .ec k => .found ⟨ver, .ecdsa k⟩
    | .rsa _ => .broken
    | .refused _ _ => .skipped
  else .skipped

/-- An enabled version with an EC key that can be fetched. -/
def usableVersion (ver : CryptoKeyVersion) : Option CloudKmsKey :=
  match ring.material ver.name with
  | .ec k => if ver.state = .ENABLED then some ⟨ver, .ecdsa k⟩ else none
  | _ => none

def signingKeys : List CryptoKey := ring.keys.filter (·.purpose = .ASYMMETRIC_SIGN)

/-- The versions to be listed, in their order. -/
def usable : List CloudKmsKey :=
  ring.signingKeys.flatMap fun key => (ring.versions key.name).filterMap ring.usableVersion

/-- No enabled version of a signing key is an RSA key that can be fetched. -/
def NoRsa : Prop :=
  ∀ key ∈ ring.signingKeys, ∀ ver ∈ ring.versions key.name, ver.state = .ENABLED →
    ∀ k, ring.material ver.name ≠ .rsa k

lemma key?_entry (ver : CryptoKeyVersion) : (ring.entry ver).key? = ring.usableVersion ver := by
  unfold entry usableVersion
  split_ifs
  · cases ring.material ver.name <;> rfl
  · cases ring.material ver.name <;> rfl

lemma entry_eq_broken {ver : CryptoKeyVersion} :
    ring.entry ver = .broken ↔ ver.state = .ENABLED ∧ ∃ k, ring.material ver.name = .rsa k := by
  unfold entry
  split_ifs with h
  · cases ring.material ver.name <;> simp [h]
  · simp [h]

end Ring

section

variable {config : Config} {cr : Crypt} (hcr : cr.Correct) {cb : Cryptobyte} (hcb : cb.Correct) {client : ListClient}
  {ring : Ring}

include hcr hcb

lemma versionEntry_eq {ver : CryptoKeyVersion}
    (h : (ring.material ver.name).AnsweredBy (client.GetPublicKey ver.name)) :
    versionEntry cr cb client ver = ring.entry ver := by
  unfold versionEntry Ring.entry getPublicKey
  congr 1
  generalize ring.material ver.name = material at h ⊢
  generalize client.GetPublicKey ver.name = answer at h ⊢
  cases h with
  | ec hk hcurve hpem =>
    have hsupported : cr.Supported _ := hcurve.elim (fun h => h ▸ hcr.P256) fun h => h ▸ hcr.S256
    simp only [hpem, Option.map_some, cr.ParsePKIXPublicKey_ecdsa hcr hcb hk hsupported]
    rfl
  | rsa hk hpem =>
    simp only [hpem, Option.map_some, cr.ParsePKIXPublicKey_rsa hcb hk]
    rfl
  | refused e hskip => exact if_pos hskip

lemma versionEntries_eq {vers : List CryptoKeyVersion}
    (h : ∀ ver ∈ vers, (ring.material ver.name).AnsweredBy (client.GetPublicKey ver.name)) :
    versionEntries cr cb client (vers.map .ok) = vers.map ring.entry := by
  induction vers with
  | nil => rfl
  | cons ver vers ih =>
    rw [List.map_cons, versionEntries, versionEntry_eq hcr hcb (h ver List.mem_cons_self),
      ih fun ver hver => h ver (List.mem_cons_of_mem _ hver), List.map_cons]

lemma keyEntries_map_ok {keys : List CryptoKey}
    (hvers : ∀ key ∈ keys, client.ListCryptoKeyVersions key.name = (ring.versions key.name).map .ok)
    (hmaterial : ∀ key ∈ keys, key.purpose = .ASYMMETRIC_SIGN → ∀ ver ∈ ring.versions key.name,
      (ring.material ver.name).AnsweredBy (client.GetPublicKey ver.name)) :
    keyEntries cr cb client (keys.map .ok) =
      (keys.filter (·.purpose = .ASYMMETRIC_SIGN)).flatMap fun key =>
        .skipped :: (ring.versions key.name).map ring.entry := by
  induction keys with
  | nil => rfl
  | cons key keys ih =>
    have htail := ih (fun key hkey => hvers key (List.mem_cons_of_mem _ hkey))
      fun key hkey => hmaterial key (List.mem_cons_of_mem _ hkey)
    rw [List.map_cons, keyEntries, htail]
    by_cases hsign : key.purpose = .ASYMMETRIC_SIGN
    · rw [if_pos hsign, List.filter_cons_of_pos (by simpa using hsign), List.flatMap_cons,
        hvers key List.mem_cons_self, versionEntries_eq hcr hcb (hmaterial key List.mem_cons_self hsign),
        List.cons_append]
    · rw [if_neg hsign, List.filter_cons_of_neg (by simpa using hsign)]

lemma entries_List (hring : ring.ServedBy config client) :
    entries cr cb client (.List config client) =
      ring.signingKeys.flatMap fun key => .skipped :: (ring.versions key.name).map ring.entry := by
  simp only [entries, CloudKmsIterator.List, hring.keys, Option.getD_none, versionEntries, List.nil_append]
  exact keyEntries_map_ok hcr hcb hring.versions hring.material

/-- **The listing yields every enabled EC version of the signing keys that can be fetched, and then for ever that it is
done, just when no enabled version is an RSA key.** -/
theorem listing_iff (hring : ring.ServedBy config client) :
    (iterator config cr cb client).Lists (.List config client) ring.usable ↔ ring.NoRsa := by
  have hentries := entries_List hcr hcb hring
  have hfounds : founds (entries cr cb client (.List config client)) = ring.usable := by
    have hversions : ∀ key : CryptoKey, founds (.skipped :: (ring.versions key.name).map ring.entry) =
        (ring.versions key.name).filterMap ring.usableVersion := by
      intro key
      rw [founds_skipped, founds, List.filterMap_map]
      exact List.filterMap_congr fun ver _ => ring.key?_entry ver
    rw [hentries, founds, List.filterMap_flatMap, Ring.usable]
    exact List.flatMap_congr fun key _ => hversions key
  rw [iterator_follows.lists_iff rfl, and_iff_left hfounds, hentries]
  simp only [List.mem_flatMap, List.mem_cons, List.mem_map, reduceCtorEq, false_or, Ring.entry_eq_broken, Ring.NoRsa]
  constructor
  · intro h key hkey ver hver henabled k hk
    exact h ⟨key, hkey, ver, hver, henabled, k, hk⟩
  · rintro h ⟨key, hkey, ver, hver, henabled, k, hk⟩
    exact h key hkey ver hver henabled k hk

end

/-! ## A ring with keys of several kinds -/

/-- The answer of `GetPublicKey`. -/
def Material.answer : Material → Except KmsError Bytes
  | .ec k => .ok (Pem.encode publicKeyLine (ecPublicKeyInfo k))
  | .rsa k => .ok (Pem.encode publicKeyLine (rsaPublicKeyInfo k))
  | .refused code e => .error (.status code e)

def Ring.client (ring : Ring) : ListClient where
  ListCryptoKeys _ := ring.keys.map .ok
  ListCryptoKeyVersions name := (ring.versions name).map .ok
  GetPublicKey name := (ring.material name).answer

/-- The key is one of those that the service has. -/
def Material.Proper : Material → Prop
  | .ec k => k.Valid ∧ (k.curve = .P256 ∨ k.curve = .S256)
  | .rsa k => k.Small
  | .refused code _ => isErrorSkippable code = true

lemma Material.Proper.answeredBy {m : Material} (h : m.Proper) : m.AnsweredBy m.answer := by
  cases m with
  | ec k => exact .ec h.1 h.2 (Pem.decode_encode publicKeyLine_oneLine _)
  | rsa k => exact .rsa h (Pem.decode_encode publicKeyLine_oneLine _)
  | refused code e => exact .refused e h

lemma Ring.servedBy_client {ring : Ring} (h : ∀ name, (ring.material name).Proper) (config : Config) :
    ring.ServedBy config ring.client where
  keys := rfl
  versions _ _ := rfl
  material _ _ _ ver _ := (h ver.name).answeredBy

/-- A key for encryption, and one for signing of whose versions the first is disabled, the second is `m` and the third
is an EC key. -/
def mixedRing (m : Material) : Ring where
  keys := [⟨"e", .ENCRYPT_DECRYPT⟩, ⟨"s", .ASYMMETRIC_SIGN⟩]
  versions _ := [⟨"s/1", .DISABLED, ""⟩, ⟨"s/2", .ENABLED, ""⟩, ⟨"s/3", .ENABLED, ""⟩]
  material name := if name = "s/2" then m else .ec (unitKey .P256).toEcdsaPublicKey

lemma mixedRing_proper (m : Material) (h : m.Proper) (name : String) : ((mixedRing m).material name).Proper := by
  have hk : (unitKey .P256).Valid := unitKey_valid trivial
  simp only [mixedRing]
  split_ifs
  · exact h
  · exact ⟨⟨hk.named, hk.onCurve⟩, Or.inl rfl⟩

/-- A version that may not be fetched is passed over. -/
theorem listing_of_refused :
    (mixedRing (.refused .PermissionDenied { text := "" })).usable =
        [⟨⟨"s/3", .ENABLED, ""⟩, .ecdsa (unitKey .P256).toEcdsaPublicKey⟩] ∧
      (iterator ⟨"p", "l", "r"⟩ tezosCrypt derbyte (mixedRing (.refused .PermissionDenied { text := "" })).client).Lists
        (.List ⟨"p", "l", "r"⟩ (mixedRing (.refused .PermissionDenied { text := "" })).client)
        (mixedRing (.refused .PermissionDenied { text := "" })).usable := by
  have hproper := mixedRing_proper (.refused .PermissionDenied { text := "" }) rfl
  refine ⟨rfl, (listing_iff tezosCrypt_correct derbyte_correct (Ring.servedBy_client hproper _)).2 ?_⟩
  intro key hkey ver hver henabled k
  simp only [mixedRing]
  split_ifs
  · exact fun h => by cases h
  · exact fun h => by cases h

lemma turn_failed (config : Config) {cr : Crypt} {cb : Cryptobyte} {client : ListClient} (ver : CryptoKeyVersion)
    {e : KmsError} (henabled : ver.state = .ENABLED) (hget : getPublicKey cr cb client ver.name = some (.error e))
    (hskip : e.skippable = false) (keyIter : Option (List (Except KmsError CryptoKey)))
    (vers : List (Except KmsError CryptoKeyVersion)) :
    (iterator config cr cb client).turn ⟨keyIter, some (.ok ver :: vers)⟩ =
      .returns (.failed (listError config "getPublicKey" e)) ⟨keyIter, some vers⟩ := by
  simp only [iterator, turn, if_pos henabled, hget, hskip, Bool.false_eq_true, if_false]

/-- The client of a ring with an RSA key. -/
def rsaClient : ListClient := (mixedRing (.rsa openJob.pub)).client

lemma getPublicKey_rsaClient :
    getPublicKey tezosCrypt derbyte rsaClient "s/2" =
      some (.error (.crypt (.other { text := "x509: unsupported algorithm: [5 0]" }))) := by
  have hanswer : rsaClient.GetPublicKey "s/2" = .ok (Pem.encode publicKeyLine (rsaPublicKeyInfo openJob.pub)) := rfl
  have hpem : Pem.decode (Pem.encode publicKeyLine (rsaPublicKeyInfo openJob.pub)) =
      some (rsaPublicKeyInfo openJob.pub) := Pem.decode_encode publicKeyLine_oneLine _
  simp only [getPublicKey, hanswer, hpem, Option.map_some,
    tezosCrypt.ParsePKIXPublicKey_rsa derbyte_correct openJob_isJobKey.small]
  rfl

/-- The turns of the first call: to the signing key, past its disabled version, and to the RSA key. -/
lemma answers_rsaClient (r : Outcome CloudKmsKey ListError) (c : CloudKmsIterator) :
    (iterator ⟨"p", "l", "r"⟩ tezosCrypt derbyte rsaClient).Answers (.List ⟨"p", "l", "r"⟩ rsaClient) r c ↔
      r = .failed (listError ⟨"p", "l", "r"⟩ "getPublicKey"
          (.crypt (.other { text := "x509: unsupported algorithm: [5 0]" }))) ∧
        c = ⟨some [], some [.ok ⟨"s/3", .ENABLED, ""⟩]⟩ := by
  have h₁ : (iterator ⟨"p", "l", "r"⟩ tezosCrypt derbyte rsaClient).turn (.List ⟨"p", "l", "r"⟩ rsaClient) =
      .again ⟨some [], some [.ok ⟨"s/1", .DISABLED, ""⟩, .ok ⟨"s/2", .ENABLED, ""⟩, .ok ⟨"s/3", .ENABLED, ""⟩]⟩ := rfl
  have h₂ : (iterator ⟨"p", "l", "r"⟩ tezosCrypt derbyte rsaClient).turn
        ⟨some [], some [.ok ⟨"s/1", .DISABLED, ""⟩, .ok ⟨"s/2", .ENABLED, ""⟩, .ok ⟨"s/3", .ENABLED, ""⟩]⟩ =
      .again ⟨some [], some [.ok ⟨"s/2", .ENABLED, ""⟩, .ok ⟨"s/3", .ENABLED, ""⟩]⟩ := rfl
  have h₃ := turn_failed ⟨"p", "l", "r"⟩ ⟨"s/2", .ENABLED, ""⟩ rfl getPublicKey_rsaClient rfl (some [])
    [.ok ⟨"s/3", .ENABLED, ""⟩]
  rw [Iterator.answers_again rfl h₁ rfl, Iterator.answers_again rfl h₂ rfl, Iterator.answers_returns rfl h₃]

/-- An RSA key ends the listing before the key after it. -/
theorem rsa_version_fails :
    (mixedRing (.rsa openJob.pub)).ServedBy ⟨"p", "l", "r"⟩ rsaClient ∧
      (mixedRing (.rsa openJob.pub)).usable =
        [⟨⟨"s/3", .ENABLED, ""⟩, .ecdsa (unitKey .P256).toEcdsaPublicKey⟩] ∧
      (∃ c, (iterator ⟨"p", "l", "r"⟩ tezosCrypt derbyte rsaClient).Answers (.List ⟨"p", "l", "r"⟩ rsaClient)
        (.failed (listError ⟨"p", "l", "r"⟩ "getPublicKey"
          (.crypt (.other { text := "x509: unsupported algorithm: [5 0]" })))) c) ∧
      ¬ (iterator ⟨"p", "l", "r"⟩ tezosCrypt derbyte rsaClient).Lists (.List ⟨"p", "l", "r"⟩ rsaClient)
        (mixedRing (.rsa openJob.pub)).usable := by
  refine ⟨Ring.servedBy_client (mixedRing_proper (.rsa openJob.pub) openJob_isJobKey.small) _, rfl, ?_, ?_⟩
  · exact ⟨_, (answers_rsaClient _ _).2 ⟨rfl, rfl⟩⟩
  · exact Iterator.not_lists _ (fun _ h => by cases h) (fun h => by cases h)
      (fun r c h => ((answers_rsaClient r c).1 h).1) _

end Signatory.Vault.CloudKms

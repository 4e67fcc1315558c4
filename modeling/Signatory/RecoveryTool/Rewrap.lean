import Signatory.Lib.Base64
import Signatory.Lib.Split
import Signatory.RecoveryTool.Unwrap
import Signatory.Vault.Pages

/-!
# `cmd/signatory-recovery-tool`: `rewrap`

A blob is read, decrypted with one key of the KMS, encrypted with another and written.  When it is written to Firestore,
the identifier of the document is the last segment of the URI, if it is not empty, and the field `pkh` is the flag
`--pkh`, which may be another text or not be given at all.  The document is one that the vault can load, under the right
name, exactly when the flag is given and the segment does not contradict it: `rewrap_document_iff`.
-/

namespace Signatory.RecoveryTool

open Vault (Attributes DbItem gcpLoop gcpGetKeys)
open Vault.Rpc (PrivateKey)
open Lib Lib.Command Lib.Fallible
open Signer (Bytes Error)

/-! ## References to documents -/

structure FirestoreRef where
  project : String
  database : String
  collection : String
  docID : String
  deriving DecidableEq

def firestoreCollection : String := "encrypted_keys"

/-- `strings.Split` at the slashes. -/
def segments (s : String) : List String := (Split.split '/' s.toList).map String.ofList

def parseFirestoreRef (s : String) : Except Error FirestoreRef :=
  match segments s with
  | [project, database, docID] => .ok ⟨project, database, firestoreCollection, docID⟩
  | [project, database, collection, docID] => .ok ⟨project, database, collection, docID⟩
  | _ => .error { text := "firestore ref must be PROJECT/DATABASE[/COLLECTION]/DOC_ID, got " ++ s.quote }

/-! ## The services -/

/-- What other packages and programs do for the tool. -/
structure Services (Item PKH Priv : Type) where
  keys : Keys Priv
  /-- The hash of the public key. -/
  hash : Priv → PKH
  attrs : Attributes Item PKH
  /-- `cbor.Unmarshal` into an `rpc.PrivateKey`. -/
  unmarshal : Bytes → Except Error PrivateKey
  NewKeyManagementClient : Except Error Unit
  Decrypt : String → Bytes → Except Error Bytes
  Encrypt : String → Bytes → Except Error Bytes
  NewClientWithDatabase : String → String → Except Error Unit
  Get : FirestoreRef → Except Error Item
  Set : FirestoreRef → DbItem → Except Error Unit
  ReadFile : String → Except Error Bytes
  ReadStdin : Except Error Bytes
  WriteFile : String → Bytes → Except Error Unit
  WriteStdout : Bytes → Except Error Unit

/-- A document of Firestore. -/
structure Document where
  ref : FirestoreRef
  item : DbItem
  deriving DecidableEq

/-- What was written, or was to be written when the write failed. -/
structure Output where
  documents : List Document := []
  files : List (String × Bytes) := []
  stdout : List Bytes := []
  deriving DecidableEq

/-- An error with a text in front. -/
def wrapError (what : String) (e : Error) : Error := { e with text := what ++ e.text }

section

variable {Item PKH Priv : Type} (sv : Services Item PKH Priv)

def kmsDecrypt (keyPath : String) (ciphertext : Bytes) : Except Error Bytes := do
  sv.NewKeyManagementClient.mapError (wrapError "kms client: ")
  (sv.Decrypt keyPath ciphertext).mapError (wrapError "kms decrypt: ")

def kmsEncrypt (keyPath : String) (plaintext : Bytes) : Except Error Bytes := do
  sv.NewKeyManagementClient.mapError (wrapError "kms client: ")
  (sv.Encrypt keyPath plaintext).mapError (wrapError "kms encrypt: ")

/-- `base64.StdEncoding.DecodeString` of the trimmed text. -/
def decodeBase64 (b64 : String) : Except Error Bytes :=
  match Base64.StdEncoding.decode (String.ofList (Vault.trimSpace b64.toList)).toUTF8.toList with
  | some b => .ok b
  | none => .error { text := "illegal base64 data" }

def readFirestore (uri : String) : Except Error Bytes := do
  let ref ← parseFirestoreRef uri
  (sv.NewClientWithDatabase ref.project ref.database).mapError (wrapError "firestore client: ")
  let doc ← (sv.Get ref).mapError (wrapError ("firestore get " ++ uri ++ ": "))
  let item ← (sv.attrs.UnmarshalMap doc).mapError (wrapError "decode firestore doc: ")
  if item.Value.getD [] = [] then throw { text := "firestore doc " ++ uri ++ " has empty value field" }
  pure (item.Value.getD [])

/-- The flag that is given decides; standard input is read when there is none. -/
def readBlob (file b64 firestoreURI : String) : Except Error Bytes :=
  if firestoreURI ≠ "" then readFirestore sv firestoreURI
  else if b64 ≠ "" then decodeBase64 b64
  else if file ≠ "" ∧ file ≠ "-" then sv.ReadFile file
  else sv.ReadStdin

/-- The reference that is written to: the segment of the URI wins over the flag. -/
def target (ref : FirestoreRef) (pkh : String) : FirestoreRef :=
  if ref.docID = "" then { ref with docID := pkh } else ref

def writeFirestore (uri pkh : String) (data : Bytes) : Cmd Output Error Unit := do
  let ref ← liftM (parseFirestoreRef uri)
  let ref := target ref pkh
  if ref.docID = "" then throw { text := "firestore write: no document id (URI or --pkh)" }
  liftM ((sv.NewClientWithDatabase ref.project ref.database).mapError (wrapError "firestore client: "))
  let item : DbItem := ⟨pkh, some data⟩
  modify fun out => { out with documents := out.documents ++ [⟨ref, item⟩] }
  liftM ((sv.Set ref item).mapError (wrapError ("firestore write " ++ uri ++ "/" ++ ref.docID ++ ": ")))

def writeBlob (file firestoreURI pkh : String) (asBase64 : Bool) (data : Bytes) : Cmd Output Error Unit :=
  if firestoreURI ≠ "" then writeFirestore sv firestoreURI pkh data
  else do
    let out := if asBase64 then Base64.StdEncoding.encode data ++ [0x0a] else data
    if file ≠ "" ∧ file ≠ "-" then do
      modify fun o => { o with files := o.files ++ [(file, out)] }
      liftM (sv.WriteFile file out)
    else do
      modify fun o => { o with stdout := o.stdout ++ [out] }
      liftM (sv.WriteStdout out)

/-! ## The command -/

/-- The flags of `rewrap`; a text is empty when the flag is not given. -/
structure RewrapFlags where
  oldKMS : String
  newKMS : String
  blobFile : String := ""
  blobBase64 : String := ""
  fromFirestoreURI : String := ""
  outFile : String := ""
  outBase64 : Bool := false
  toFirestoreURI : String := ""
  pkhOverride : String := ""
  verifyPKH : Bool := false

/-- What is done for `--verify-pkh`. -/
def checkPKH (pkhOverride : String) (plaintext : Bytes) : Except Error Unit := do
  let pk ← (sv.unmarshal plaintext).mapError (wrapError "cbor decode (for --verify-pkh): ")
  let cryptPK ← (rpcToCryptPrivateKey sv.keys pk).mapError (wrapError "convert (for --verify-pkh): ")
  let got := sv.attrs.text (sv.hash cryptPK)
  if pkhOverride = "" then throw { text := "--verify-pkh requires --pkh to compare against (got pkh=" ++ got ++ ")" }
  if got ≠ pkhOverride then throw { text := "pkh mismatch: blob has " ++ got ++ ", --pkh says " ++ pkhOverride }

/-- The blob that is read, decrypted. -/
def readPlaintext (f : RewrapFlags) : Except Error Bytes := do
  let ciphertext ← (readBlob sv f.blobFile f.blobBase64 f.fromFirestoreURI).mapError (wrapError "read blob: ")
  kmsDecrypt sv f.oldKMS ciphertext

def rewrap (f : RewrapFlags) : Cmd Output Error Unit := do
  let plaintext ← liftM (readPlaintext sv f)
  liftM (if f.verifyPKH then checkPKH sv f.pkhOverride plaintext else .ok ())
  let newCiphertext ← liftM (kmsEncrypt sv f.newKMS plaintext)
  writeBlob sv f.outFile f.toFirestoreURI f.pkhOverride f.outBase64 newCiphertext

end

/-! ## The document -/

section

variable {Item PKH Priv : Type} {sv : Services Item PKH Priv}

/-- A document that the vault can load with the others, under the name it is found by. -/
structure Consistent (A : Attributes Item PKH) (doc : Document) : Prop where
  id : doc.ref.docID = doc.item.PKH
  valid : ∃ pkh, A.ParsePublicKeyHash doc.item.PKH = .ok pkh
  loads : ∀ nexts r, gcpGetKeys A nexts = .ok r → ∃ r', gcpGetKeys A (nexts ++ [.ok (A.MarshalMap doc.item)]) = .ok r'

/-- The document is named after the key that is in the blob. -/
def NamedAfterKey (sv : Services Item PKH Priv) (f : RewrapFlags) (doc : Document) : Prop :=
  ∃ plaintext pk priv, readPlaintext sv f = .ok plaintext ∧ sv.unmarshal plaintext = .ok pk ∧
    rpcToCryptPrivateKey sv.keys pk = .ok priv ∧ doc.ref.docID = sv.attrs.text (sv.hash priv) ∧
    doc.item.PKH = sv.attrs.text (sv.hash priv)

/-- What follows the last slash of a URI. -/
def lastSegment (uri : String) : String := (segments uri).getLastD ""

lemma docID_eq {uri : String} {ref : FirestoreRef} (h : parseFirestoreRef uri = .ok ref) :
    ref.docID = lastSegment uri := by
  unfold parseFirestoreRef at h
  unfold lastSegment
  split at h
  case h_1 heq =>
    rw [heq]
    cases h
    rfl
  case h_2 heq =>
    rw [heq]
    cases h
    rfl
  case h_3 => cases h

lemma gcpLoop_append {A : Attributes Item PKH} {nexts more : List (Except Error Item)}
    {keys keys' : List (Vault.EncryptedKey PKH)} (h : gcpLoop A nexts keys = .ok keys') :
    gcpLoop A (nexts ++ more) keys = gcpLoop A more keys' := by
  induction nexts generalizing keys with
  | nil =>
    obtain rfl := ok_pure_iff.1 h
    rfl
  | cons next rest ih =>
    simp only [gcpLoop, ok_bind_iff, ok_mapError_iff] at h
    obtain ⟨doc, hdoc, item, hitem, pkh, hpkh, hrest⟩ := h
    rw [List.cons_append, gcpLoop, hdoc]
    simp only [Except.mapError, bind, Except.bind, hitem, hpkh]
    exact ih hrest

lemma loads_of_valid {A : Attributes Item PKH} {item : DbItem} {pkh : PKH}
    (h : A.ParsePublicKeyHash item.PKH = .ok pkh) {nexts : List (Except Error Item)} {r : Vault.KeysResult PKH}
    (hr : gcpGetKeys A nexts = .ok r) : ∃ r', gcpGetKeys A (nexts ++ [.ok (A.MarshalMap item)]) = .ok r' := by
  obtain ⟨keys, hkeys, -⟩ := ok_bind_iff.1 hr
  refine ⟨⟨keys ++ [⟨pkh, item.Value⟩], none⟩, ok_bind_iff.2 ⟨_, ?_, rfl⟩⟩
  rw [gcpLoop_append hkeys, gcpLoop]
  simp only [Except.mapError, bind, Except.bind, A.unmarshal_marshal, h]
  rfl

lemma checkPKH_ok {pkhOverride : String} {plaintext : Bytes} {u : Unit}
    (h : checkPKH sv pkhOverride plaintext = .ok u) :
    ∃ pk priv, sv.unmarshal plaintext = .ok pk ∧ rpcToCryptPrivateKey sv.keys pk = .ok priv ∧
      sv.attrs.text (sv.hash priv) = pkhOverride := by
  simp only [checkPKH, ok_bind_iff, ok_mapError_iff, ok_check_iff, ok_check_bind_iff] at h
  obtain ⟨pk, hpk, priv, hpriv, -, hgot, -⟩ := h
  exact ⟨pk, priv, hpk, hpriv, not_not.1 hgot⟩

lemma wp_writeFirestore {uri pkh : String} {data : Bytes} {Q : Unit → Output → Prop} {out : Output}
    (h : ∀ ref, parseFirestoreRef uri = .ok ref → (target ref pkh).docID ≠ "" →
      Q () { out with documents := out.documents ++ [⟨target ref pkh, ⟨pkh, some data⟩⟩] }) :
    wp (writeFirestore sv uri pkh data) Q (fun _ _ => True) out := by
  simp only [writeFirestore, wp_bind, wp_liftM]
  refine ⟨fun ref href => ?_, fun _ _ => trivial⟩
  split
  case isTrue => trivial
  case isFalse hid =>
    simp only [wp_bind, wp_mapError, wp_modify]
    refine ⟨fun _ _ => ⟨fun _ _ => h ref href hid, fun _ _ => trivial⟩, fun _ _ => trivial⟩

lemma rewrap_documents {f : RewrapFlags} (hset : f.toFirestoreURI ≠ "") {u : Unit} {out : Output}
    (h : exec (rewrap sv f) {} = (.ok u, out)) :
    ∃ plaintext newCiphertext ref, readPlaintext sv f = .ok plaintext ∧
      (f.verifyPKH = true → checkPKH sv f.pkhOverride plaintext = .ok ()) ∧
      kmsEncrypt sv f.newKMS plaintext = .ok newCiphertext ∧ parseFirestoreRef f.toFirestoreURI = .ok ref ∧
      (target ref f.pkhOverride).docID ≠ "" ∧
      out.documents = [⟨target ref f.pkhOverride, ⟨f.pkhOverride, some newCiphertext⟩⟩] := by
  refine wp_post (E := fun _ _ => True) ?_ h
  simp only [rewrap, wp_bind, wp_liftM]
  refine ⟨fun plaintext hplain => ⟨fun _ hcheck => ⟨fun newCiphertext henc => ?_, ?_⟩, ?_⟩, ?_⟩
  case refine_1 =>
    rw [writeBlob, if_pos hset]
    refine wp_writeFirestore fun ref href hid => ?_
    refine ⟨plaintext, newCiphertext, ref, hplain, fun hverify => ?_, henc, href, hid, rfl⟩
    rwa [if_pos hverify] at hcheck
  all_goals exact fun _ _ => trivial

/-- **When a document is consistent.**  The document that `rewrap` writes can be loaded, is named by its field and, with
`--verify-pkh`, after its key, exactly when `--pkh` is given and the last segment of the URI is empty or the same. -/
theorem rewrap_document_iff {f : RewrapFlags} (hset : f.toFirestoreURI ≠ "")
    (hpkh : f.pkhOverride ≠ "" → ∃ pkh, sv.attrs.ParsePublicKeyHash f.pkhOverride = .ok pkh) {out : Output}
    (h : exec (rewrap sv f) {} = (.ok (), out)) :
    ∃ doc, out.documents = [doc] ∧
      (Consistent sv.attrs doc ∧ (f.verifyPKH = true → NamedAfterKey sv f doc) ↔
        f.pkhOverride ≠ "" ∧ (lastSegment f.toFirestoreURI = "" ∨ lastSegment f.toFirestoreURI = f.pkhOverride)) := by
  obtain ⟨plaintext, newCiphertext, ref, hplain, hcheck, -, href, hid, hdocs⟩ := rewrap_documents hset h
  refine ⟨_, hdocs, ?_⟩
  rw [← docID_eq href]
  constructor
  · rintro ⟨hcons, -⟩
    have hname : (target ref f.pkhOverride).docID = f.pkhOverride := hcons.id
    rw [hname] at hid
    refine ⟨hid, ?_⟩
    unfold target at hname
    split at hname
    case isTrue hempty => exact Or.inl hempty
    case isFalse => exact Or.inr hname
  · rintro ⟨hgiven, hsegment⟩
    have hname : (target ref f.pkhOverride).docID = f.pkhOverride := by
      unfold target
      split
      case isTrue => rfl
      case isFalse hne => exact hsegment.resolve_left hne
    obtain ⟨pkh, hvalid⟩ := hpkh hgiven
    refine ⟨⟨hname, ⟨pkh, hvalid⟩, fun nexts r hr => loads_of_valid hvalid hr⟩, fun hverify => ?_⟩
    obtain ⟨pk, priv, hpk, hpriv, hgot⟩ := checkPKH_ok (hcheck hverify)
    exact ⟨plaintext, pk, priv, hplain, hpk, hpriv, hname.trans hgot.symm, hgot.symm⟩

/-- **The blob that is written holds what the blob that was read did.** -/
theorem rewrap_keeps_plaintext {f : RewrapFlags} (hset : f.toFirestoreURI ≠ "")
    (hkms : ∀ key p c, sv.Encrypt key p = .ok c → sv.Decrypt key c = .ok p) {out : Output}
    (h : exec (rewrap sv f) {} = (.ok (), out)) :
    ∃ plaintext blob, readPlaintext sv f = .ok plaintext ∧ out.documents.map (fun doc => doc.item.Value) = [some blob] ∧
      kmsDecrypt sv f.newKMS blob = .ok plaintext := by
  obtain ⟨plaintext, newCiphertext, ref, hplain, -, henc, -, -, hdocs⟩ := rewrap_documents hset h
  refine ⟨plaintext, newCiphertext, hplain, by rw [hdocs]; rfl, ?_⟩
  simp only [kmsEncrypt, kmsDecrypt, ok_bind_iff, ok_mapError_iff] at henc ⊢
  obtain ⟨u, hclient, henc⟩ := henc
  exact ⟨u, hclient, hkms _ _ _ henc⟩

end

/-! ## One key -/

/-- Blobs that are not encrypted, each a seed; the hash of a key is made of its first three bytes. -/
def plainServices : Services DbItem Bytes TzPrivateKey where
  keys := storedKeys
  hash
    | .Ed25519PrivateKey k | .Secp256k1PrivateKey k | .P256PrivateKey k | .BLSPrivateKey k => k.1.take 3
  attrs := Vault.latin
  unmarshal b := .ok { Ed25519 := some b }
  NewKeyManagementClient := .ok ()
  Decrypt _ := .ok
  Encrypt _ := .ok
  NewClientWithDatabase _ _ := .ok ()
  Get _ := .error { text := "not found" }
  Set _ _ := .ok ()
  ReadFile _ := .ok (List.replicate 32 0x61)
  ReadStdin := .ok []
  WriteFile _ _ := .ok ()
  WriteStdout _ := .ok ()

def rewrapTo (uri pkh : String) (verify : Bool) : RewrapFlags where
  oldKMS := "old"
  newKMS := "new"
  blobFile := "key.blob"
  toFirestoreURI := uri
  pkhOverride := pkh
  verifyPKH := verify

def written (docID pkh : String) : Output where
  documents := [⟨⟨"project", "db", firestoreCollection, docID⟩, ⟨pkh, some (List.replicate 32 0x61)⟩⟩]

theorem rewrap_document_of_verified :
    exec (rewrap plainServices (rewrapTo "project/db/" "aaa" true)) {} = (.ok (), written "aaa" "aaa") ∧
      ∃ doc, (written "aaa" "aaa").documents = [doc] ∧ Consistent Vault.latin doc ∧
        NamedAfterKey plainServices (rewrapTo "project/db/" "aaa" true) doc := by
  have hrun : exec (rewrap plainServices (rewrapTo "project/db/" "aaa" true)) {} = (.ok (), written "aaa" "aaa") := by
    decide +kernel
  obtain ⟨doc, hdoc, hiff⟩ := rewrap_document_iff (by decide) (fun _ => ⟨_, rfl⟩) hrun
  obtain ⟨hcons, hnamed⟩ := hiff.2 ⟨by decide, Or.inl (by decide +kernel)⟩
  exact ⟨hrun, doc, hdoc, hcons, hnamed rfl⟩

/-- Without `--pkh` the field is empty; and a URI for another key is written to although `--verify-pkh` has found the
key to be the one of `--pkh`. -/
theorem inconsistent_documents :
    (exec (rewrap plainServices (rewrapTo "project/db/aaa" "" false)) {} = (.ok (), written "aaa" "") ∧
        ∀ doc ∈ (written "aaa" "").documents, ¬ Consistent Vault.latin doc) ∧
      exec (rewrap plainServices (rewrapTo "project/db/bbb" "aaa" true)) {} = (.ok (), written "bbb" "aaa") ∧
        ∀ doc ∈ (written "bbb" "aaa").documents, ¬ Consistent Vault.latin doc := by
  refine ⟨⟨by decide +kernel, ?_⟩, by decide +kernel, ?_⟩
  · rintro doc hdoc hcons
    obtain rfl := List.mem_singleton.1 hdoc
    exact absurd hcons.id (by decide)
  · rintro doc hdoc hcons
    obtain rfl := List.mem_singleton.1 hdoc
    exact absurd hcons.id (by decide)

end Signatory.RecoveryTool

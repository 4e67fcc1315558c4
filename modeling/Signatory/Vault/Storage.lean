import Signatory.Hashmap
import Signatory.Vault.Enclave

/-!
# Key blob storages

What a vault needs of its storage is in `KeyBlobStorage`: an import that succeeds has stored the key, one that fails may
have stored it or not, and what is stored stays.  The file, DynamoDB and Firestore storages are of this kind.

The file storage appends the key to its list in memory first and writes the whole list after that, so a key whose write
failed is written with the next one.
-/

namespace Signatory.Vault

open Lib.Command Rpc
open Signer (Bytes Error)

/-- How the writing part of an import ends: done, failed without effect, or failed although it took effect. -/
inductive Put where
  | done
  | lost (e : Error)
  | late (e : Error)

def Put.outcome : Put → Except Error Unit
  | .done => .ok ()
  | .lost e | .late e => .error e

lemma Put.outcome_ok {put : Put} {u : Unit} : put.outcome = .ok u ↔ put = .done := by
  cases put <;> simp [Put.outcome]

def Put.applied : Put → Bool
  | .done | .late _ => true
  | .lost _ => false

/-- A storage with states `S`; `Stored` is what is left of them after a restart. -/
structure KeyBlobStorage (PKH S : Type) where
  ImportKey : Put → EncryptedKey PKH → S → Except Error Unit × S
  Stored : S → PKH → Prop
  outcome : ∀ put k s, (ImportKey put k s).1 = put.outcome
  stored : ∀ put k s, put.applied = true → Stored (ImportKey put k s).2 k.publicKeyHash
  kept : ∀ put k s pkh, Stored s pkh → Stored (ImportKey put k s).2 pkh
  unchanged : ∀ put k s pkh, put.applied = false → Stored (ImportKey put k s).2 pkh → Stored s pkh

variable {PKH : Type}

/-! ## Files -/

/-- The keys in memory and in the file. -/
structure FileStorage (PKH : Type) where
  keys : List (EncryptedKey PKH)
  file : List (EncryptedKey PKH)
  file_subset : file ⊆ keys

/-- `newFileStorage` on a file with these keys. -/
def newFileStorage (file : List (EncryptedKey PKH)) : FileStorage PKH := ⟨file, file, List.Subset.refl file⟩

def FileStorage.GetKeys (f : FileStorage PKH) : KeysResult PKH := ⟨f.keys, none⟩

/-- `WriteRename` replaces the file, or leaves it. -/
def FileStorage.ImportKey (put : Put) (k : EncryptedKey PKH) (f : FileStorage PKH) :
    Except Error Unit × FileStorage PKH :=
  (put.outcome,
    -- the list in memory is the longer one from now on, unless the file was replaced
    if put.applied then ⟨f.keys ++ [k], f.keys ++ [k], List.Subset.refl _⟩
    else ⟨f.keys ++ [k], f.file, fun _ h => List.mem_append_left _ (f.file_subset h)⟩)

def fileStorage (PKH : Type) : KeyBlobStorage PKH (FileStorage PKH) where
  ImportKey := FileStorage.ImportKey
  Stored f pkh := ∃ k ∈ f.file, k.publicKeyHash = pkh
  outcome _ _ _ := rfl
  stored put k f happlied := by
    refine ⟨k, ?_, rfl⟩
    simp [FileStorage.ImportKey, happlied]
  kept put k f pkh h := by
    obtain ⟨k', hk', rfl⟩ := h
    refine ⟨k', ?_, rfl⟩
    unfold FileStorage.ImportKey
    cases put.applied with
    | true => exact List.mem_append_left _ (f.file_subset hk')
    | false => exact hk'
  unchanged put k f pkh hlost h := by simpa [FileStorage.ImportKey, hlost] using h

/-! ## Tables -/

/-- The items of a table or collection, under the text of the public key hash. -/
abbrev Table := GoMap String (Option Bytes)

/-- One item is put into the table, in place of one with the same hash. -/
def Table.put (text : PKH → String) (put : Put) (k : EncryptedKey PKH) (t : Table) : Except Error Unit × Table :=
  (put.outcome, if put.applied then AList.insert (text k.publicKeyHash) k.encryptedPrivateKey t else t)

/-- `PutItem` of the DynamoDB storage. -/
def awsImportKey (text : PKH → String) : Put → EncryptedKey PKH → Table → Except Error Unit × Table := Table.put text

/-- `Doc(..).Set` of the Firestore storage. -/
def gcpImportKey (text : PKH → String) : Put → EncryptedKey PKH → Table → Except Error Unit × Table := Table.put text

lemma lookup_put {text : PKH → String} {put : Put} {k : EncryptedKey PKH} {t : Table} (name : String) :
    (Table.put text put k t).2.lookup name =
      if put.applied = true ∧ name = text k.publicKeyHash then some k.encryptedPrivateKey else t.lookup name := by
  unfold Table.put
  cases put.applied with
  | false => simp
  | true => simp [GoMap.lookup_set]

/-- What the two storages in tables share. -/
def tableStorage (text : PKH → String) (importKey : Put → EncryptedKey PKH → Table → Except Error Unit × Table)
    (h : importKey = Table.put text) : KeyBlobStorage PKH Table where
  ImportKey := importKey
  Stored t pkh := (t.lookup (text pkh)).isSome = true
  outcome _ _ _ := by rw [h]; rfl
  stored put k t happlied := by
    rw [h, lookup_put]
    simp [happlied]
  kept put k t pkh hs := by
    rw [h, lookup_put]
    split
    · rfl
    · exact hs
  unchanged put k t pkh hlost hs := by
    rw [h, lookup_put] at hs
    simpa [hlost] using hs

def awsStorage (text : PKH → String) : KeyBlobStorage PKH Table := tableStorage text (awsImportKey text) rfl

def gcpStorage (text : PKH → String) : KeyBlobStorage PKH Table := tableStorage text (gcpImportKey text) rfl

/-! ## A client and a storage whose calls end as they are told -/

/-- What the calls of the client and the writes of the storage are going to return, and the storage. -/
structure Scripted (S : Type) where
  rpcs : List (Except Err (Option GenerateAndImportResult)) := []
  signatures : List (Except Err (Option Signature)) := []
  /-- The answer to `Import` of a blob. -/
  unwrap : Bytes → Except Err (Option ImportResult)
  puts : List Put := []
  store : S

section Scripted

variable {S : Type} (sto : KeyBlobStorage PKH S)

/-- The next of the answers, and a broken connection when there are none left. -/
def nextRpc : Cmd (Scripted S) Err (Option GenerateAndImportResult) := do
  let r ← modifyGet fun s => (s.rpcs.headD (.error (.io .EOF)), { s with rpcs := s.rpcs.tail })
  liftM r

def nextSignature : Cmd (Scripted S) Err (Option Signature) := do
  let r ← modifyGet fun s => (s.signatures.headD (.error (.io .EOF)), { s with signatures := s.signatures.tail })
  liftM r

def scriptedPut (k : EncryptedKey PKH) : Cmd (Scripted S) Error Unit := do
  let r ← modifyGet fun s =>
    let r := sto.ImportKey (s.puts.headD .done) k s.store
    (r.1, { s with puts := s.puts.tail, store := r.2 })
  liftM r

def scripted : Backend (Scripted S) PKH where
  Connect := pure ()
  Close := pure ()
  Import blob := do
    let s ← get
    liftM (s.unwrap blob)
  ImportUnencrypted _ := nextRpc
  GenerateAndImport _ := nextRpc
  Sign _ _ _ := nextSignature
  ProvePossession _ := nextSignature
  ImportKey := scriptedPut sto

end Scripted

end Signatory.Vault

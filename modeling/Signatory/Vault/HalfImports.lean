import Signatory.Lib.Fallible
import Signatory.Lib.Machine
import Signatory.Vault.Handles
import Signatory.Vault.Storage

/-!
# Keys that are listed and not stored

`Import` and `Generate` append a key to the list of the vault and store it after that.  When the storage fails, the key
stays in the list: it can be used until the process ends, and is gone after that.

For each call there is a condition on the answers it gets and on what is stored before it (`Kept`) that says exactly
when this does not happen.
-/

namespace Signatory.Vault

open Lib.Command Lib.Fallible Lib.Machine Rpc
open Signer (Bytes Error)

section

variable {PK PKH Sig S : Type} (cr : Crypt PK PKH Sig) (sto : KeyBlobStorage PKH S) (pkg : Package)

/-! ## Calls -/

inductive KeyCall where
  | Import (pk : CryptPrivateKey)
  | Generate (keyType : CryptKeyType) (n : ℕ)

/-- A call with the answers of the signer and of the storage. -/
structure KeyInput where
  call : KeyCall
  rpcs : List (Except Err (Option GenerateAndImportResult))
  puts : List Put

def State.answered (s : State PK (Scripted S)) (i : KeyInput) : State PK (Scripted S) :=
  { s with env := { s.env with rpcs := i.rpcs, puts := i.puts } }

/-- Whether the call succeeded, and the vault after it. -/
def keyStep (s : State PK (Scripted S)) (i : KeyInput) : Except VaultError Unit × State PK (Scripted S) :=
  match i.call with
  | .Import pk =>
    let r := exec (Import cr (scripted sto) pkg pk) (s.answered i)
    (r.1.map fun _ => (), r.2)
  | .Generate keyType n =>
    let r := exec (Generate cr (scripted sto) pkg keyType n) (s.answered i)
    (r.1.map fun _ => (), r.2)

/-- Every key that the vault lists is in its storage. -/
def Listed (s : State PK (Scripted S)) : Prop := ∀ k ∈ s.keys, sto.Stored s.env.store (cr.Hash k.pub)

/-- Nothing is half imported by the call. -/
def NoHalfImport (s : State PK (Scripted S)) (i : KeyInput) : Prop :=
  Listed cr sto (keyStep cr sto pkg s i).2 ∧
    ∀ pk e, i.call = .Import pk → (keyStep cr sto pkg s i).1 = .error e → (keyStep cr sto pkg s i).2.keys = s.keys

/-! ## When nothing is half imported -/

/-- The rounds of `Generate`: the first write that fails finds the key stored all the same. -/
def RoundsKept : ℕ → List (Except Err (Option GenerateAndImportResult)) → List Put → S → Prop
  | 0, _, _, _ => True
  | n + 1, rpcs, puts, store =>
    match rpcs.headD (.error (.io .EOF)) with
    | .ok (some res) =>
      match cr.publicKey res.publicKey with
      | .ok p =>
        match puts.headD .done with
        | .done => RoundsKept n rpcs.tail puts.tail (sto.ImportKey .done ⟨cr.Hash p, res.encryptedPrivateKey⟩ store).2
        | .late _ => True
        | .lost _ => sto.Stored store (cr.Hash p)
      | .error _ => True
    | .ok none | .error _ => True

/-- The condition on a call, in a state. -/
def Kept (s : State PK (Scripted S)) (i : KeyInput) : Prop :=
  match i.call with
  | .Import pk => ∀ rpcPk res p, NewPrivateKey pk = .ok rpcPk → i.rpcs.headD (.error (.io .EOF)) = .ok (some res) →
      cr.publicKey res.publicKey = .ok p → i.puts.headD .done = .done
  | .Generate keyType n => ∀ kt, rpcKeyType keyType = .ok kt → RoundsKept cr sto n i.rpcs i.puts s.env.store

end

section Proofs

variable {PK PKH Sig S : Type} {cr : Crypt PK PKH Sig} {sto : KeyBlobStorage PKH S} {pkg : Package}
  {s : State PK (Scripted S)}

@[simp] lemma pub_newKey (p : PK) (handle : UInt64) (blob : Option Bytes) : (newKey pkg p handle blob).pub = p := by
  cases pkg <;> rfl

/-- The state after a key was listed and its write was tried. -/
def State.added (sto : KeyBlobStorage PKH S) (pkh : PKH) (key : Key PK) (blob : Option Bytes)
    (s : State PK (Scripted S)) : State PK (Scripted S) :=
  ⟨s.keys ++ [key], { s.env with
    puts := s.env.puts.tail
    store := (sto.ImportKey (s.env.puts.headD .done) ⟨pkh, blob⟩ s.env.store).2 }⟩

lemma nextRpc_spec {Q : Option GenerateAndImportResult → State PK (Scripted S) → Prop}
    {E : Cause → State PK (Scripted S) → Prop} :
    wp (remote nextRpc) Q E s ↔
      match s.env.rpcs.headD (.error (.io .EOF)) with
      | .ok v => Q v { s with env := { s.env with rpcs := s.env.rpcs.tail } }
      | .error e => E (.rpc e) { s with env := { s.env with rpcs := s.env.rpcs.tail } } := by
  simp only [remote, nextRpc, wp_within, wp_bind, wp_modifyGet, wp_liftM]
  cases s.env.rpcs.headD (.error (.io .EOF)) <;> simp

/-- The key is listed in any case; what is returned is what the storage said. -/
lemma addKey_added {res : GenerateAndImportResult} {p : PK} (hp : cr.publicKey res.publicKey = .ok p) :
    wp (addKey cr (scripted sto) pkg (some res))
      (fun _ s' => s.env.puts.headD .done = .done ∧
        s' = s.added sto (cr.Hash p) (newKey pkg p res.handle res.encryptedPrivateKey) res.encryptedPrivateKey)
      (fun _ s' => s.env.puts.headD .done ≠ .done ∧
        s' = s.added sto (cr.Hash p) (newKey pkg p res.handle res.encryptedPrivateKey) res.encryptedPrivateKey) s := by
  simp only [addKey, wp_bind, wp_mapError, wp_modifyGet]
  refine ⟨?_, fun e he => by simp [hp] at he⟩
  intro p' hp'
  obtain rfl : p = p' := Except.ok.inj (hp.symm.trans hp')
  simp only [stored, scripted, scriptedPut, wp_bind, wp_modifyGet, wp_within, wp_liftM, wp_pure, sto.outcome]
  refine ⟨fun _ hok => ⟨Put.outcome_ok.1 hok, rfl⟩, fun e herr => ⟨fun hput => ?_, rfl⟩⟩
  rw [hput] at herr
  cases herr

lemma listed_added (h : Listed cr sto s) (key : Key PK) (blob : Option Bytes) :
    Listed cr sto (s.added sto (cr.Hash key.pub) key blob) ↔
      sto.Stored (s.added sto (cr.Hash key.pub) key blob).env.store (cr.Hash key.pub) := by
  constructor
  · exact fun hall => hall key (List.mem_append_right _ List.mem_cons_self)
  · intro hnew k hk
    rcases List.mem_append.1 hk with hk | hk
    · exact sto.kept _ _ _ _ (h k hk)
    · obtain rfl := List.mem_singleton.1 hk
      exact hnew

/-- The key of an import is stored if the write took effect, or if it was stored before. -/
lemma stored_added {key : Key PK} {blob : Option Bytes} :
    sto.Stored (s.added sto (cr.Hash key.pub) key blob).env.store (cr.Hash key.pub) ↔
      (s.env.puts.headD .done).applied = true ∨ sto.Stored s.env.store (cr.Hash key.pub) := by
  constructor
  · intro h
    cases happlied : (s.env.puts.headD .done).applied with
    | true => exact Or.inl rfl
    | false => exact Or.inr (sto.unchanged _ _ _ _ happlied h)
  · rintro (h | h)
    · exact sto.stored _ _ _ h
    · exact sto.kept _ _ _ _ h

lemma addKey_listed (pkg : Package) (h : Listed cr sto s) {res : GenerateAndImportResult} {p : PK}
    (hp : cr.publicKey res.publicKey = .ok p) :
    wp (addKey cr (scripted sto) pkg (some res))
      (fun _ s' => s.env.puts.headD .done = .done ∧ Listed cr sto s' ∧ s'.env = { s.env with
        puts := s.env.puts.tail
        store := (sto.ImportKey .done ⟨cr.Hash p, res.encryptedPrivateKey⟩ s.env.store).2 })
      (fun _ s' => s.env.puts.headD .done ≠ .done ∧ s'.keys ≠ s.keys ∧
        (Listed cr sto s' ↔ (s.env.puts.headD .done).applied = true ∨ sto.Stored s.env.store (cr.Hash p))) s := by
  have hadded : wp (addKey cr (scripted sto) pkg (some res)) _ _ s := addKey_added hp
  generalize hkey : newKey pkg p res.handle res.encryptedPrivateKey = key at hadded
  obtain rfl : key.pub = p := by rw [← hkey, pub_newKey]
  have hiff := (listed_added h key res.encryptedPrivateKey).trans stored_added
  refine wp_mono hadded ?_ ?_
  · rintro _ _ ⟨hdone, rfl⟩
    refine ⟨hdone, hiff.2 (Or.inl (by rw [hdone]; rfl)), ?_⟩
    simp only [State.added, hdone]
  · rintro _ _ ⟨hne, rfl⟩
    exact ⟨hne, by simp [State.added], hiff⟩

/-- An `Import` that does not get as far as the storage changes nothing. -/
lemma import_unreached {pk : CryptPrivateKey}
    (h : ∀ rpcPk res, NewPrivateKey pk = .ok rpcPk → s.env.rpcs.headD (.error (.io .EOF)) = .ok (some res) →
      ∀ p, cr.publicKey res.publicKey ≠ .ok p) :
    wp (Import cr (scripted sto) pkg pk) (fun _ _ => False)
      (fun _ s' => s'.keys = s.keys ∧ s'.env.store = s.env.store) s := by
  simp only [Import, named, wp_within, wp_bind, wp_mapError, id_eq]
  refine ⟨fun rpcPk hpk => nextRpc_spec.2 ?_, fun _ _ => ⟨trivial, trivial⟩⟩
  split
  case h_1 v hrpc =>
    cases v with
    | none => exact ⟨rfl, rfl⟩
    | some res =>
      simp only [addKey, wp_bind, wp_mapError]
      exact ⟨fun p hp => absurd hp (h rpcPk res hpk hrpc p), fun _ _ => ⟨trivial, trivial⟩⟩
  case h_2 e hrpc => exact ⟨rfl, rfl⟩

/-- One that does succeeds with the storage, and leaves its key in the list when it fails. -/
lemma import_reached (pkg : Package) (h : Listed cr sto s) {pk : CryptPrivateKey} {rpcPk : PrivateKey}
    {res : GenerateAndImportResult} {p : PK} (hpk : NewPrivateKey pk = .ok rpcPk)
    (hrpc : s.env.rpcs.headD (.error (.io .EOF)) = .ok (some res)) (hp : cr.publicKey res.publicKey = .ok p) :
    wp (Import cr (scripted sto) pkg pk) (fun _ s' => s.env.puts.headD .done = .done ∧ Listed cr sto s')
      (fun _ s' => s.env.puts.headD .done ≠ .done ∧ s'.keys ≠ s.keys) s := by
  have h' : Listed cr sto { s with env := { s.env with rpcs := s.env.rpcs.tail } } := h
  simp only [Import, named, wp_within, wp_bind, wp_mapError, id_eq]
  refine ⟨fun rpcPk' _ => nextRpc_spec.2 ?_, fun e he => by simp [hpk] at he⟩
  rw [hrpc]
  refine wp_mono (addKey_listed pkg h' hp) ?_ ?_
  · rintro _ s' ⟨hdone, hlisted, -⟩
    exact ⟨hdone, hlisted⟩
  · rintro _ s' ⟨hne, hkeys, -⟩
    exact ⟨hne, hkeys⟩

/-- **When `Import` leaves nothing behind**: when the storage, if it is reached, succeeds. -/
theorem import_iff (pkg : Package) (h : Listed cr sto s) (pk : CryptPrivateKey) :
    (Listed cr sto (exec (Import cr (scripted sto) pkg pk) s).2 ∧
      ∀ e, (exec (Import cr (scripted sto) pkg pk) s).1 = .error e →
        (exec (Import cr (scripted sto) pkg pk) s).2.keys = s.keys) ↔
      ∀ rpcPk res p, NewPrivateKey pk = .ok rpcPk → s.env.rpcs.headD (.error (.io .EOF)) = .ok (some res) →
        cr.publicKey res.publicKey = .ok p → s.env.puts.headD .done = .done := by
  constructor
  · rintro ⟨-, hkeys⟩ rpcPk res p hpk hrpc hp
    rcases wp_cases (import_reached pkg h hpk hrpc hp) with ⟨-, -, hdone, -⟩ | ⟨e, he, -, hleft⟩
    · exact hdone
    · exact absurd (hkeys e he) hleft
  · intro hput
    by_cases hreached : ∃ rpcPk res p, NewPrivateKey pk = .ok rpcPk ∧
        s.env.rpcs.headD (.error (.io .EOF)) = .ok (some res) ∧ cr.publicKey res.publicKey = .ok p
    · obtain ⟨rpcPk, res, p, hpk, hrpc, hp⟩ := hreached
      rcases wp_cases (import_reached pkg h hpk hrpc hp) with ⟨i, hi, -, hlisted⟩ | ⟨e, -, hne, -⟩
      · exact ⟨hlisted, fun e he => by cases hi.symm.trans he⟩
      · exact absurd (hput rpcPk res p hpk hrpc hp) hne
    · have hspec : wp (Import cr (scripted sto) pkg pk) (fun _ _ => False)
          (fun _ s' => s'.keys = s.keys ∧ s'.env.store = s.env.store) s :=
        import_unreached fun rpcPk res hpk hrpc p hp => hreached ⟨rpcPk, res, p, hpk, hrpc, hp⟩
      rcases wp_cases hspec with ⟨i, -, hfalse⟩ | ⟨e, -, hkeys, hstore⟩
      · exact hfalse.elim
      · refine ⟨?_, fun _ _ => hkeys⟩
        unfold Listed
        rw [hkeys, hstore]
        exact h

/-- **When the loop of `Generate` leaves nothing behind**: when the first write that fails, if one does, finds the key
stored all the same. -/
theorem generateLoop_iff (kt : KeyType) (n : ℕ) (imported : List ℕ) (h : Listed cr sto s) :
    wp (generateLoop cr (scripted sto) pkg kt n imported)
      (fun _ s' => Listed cr sto s' ↔ RoundsKept cr sto n s.env.rpcs s.env.puts s.env.store)
      (fun _ s' => Listed cr sto s' ↔ RoundsKept cr sto n s.env.rpcs s.env.puts s.env.store) s := by
  -- on the rounds that are left; the keys of those before are stored
  induction n generalizing imported s with
  | zero => exact iff_of_true h trivial
  | succ n ih =>
    rw [generateLoop, wp_bind]
    refine nextRpc_spec.2 ?_
    have h' : Listed cr sto { s with env := { s.env with rpcs := s.env.rpcs.tail } } := h
    simp only [RoundsKept]
    cases hrpc : s.env.rpcs.headD (.error (.io .EOF)) with
    | error e => exact iff_of_true h trivial
    | ok v =>
      cases v with
      | none => exact iff_of_true h trivial
      | some res =>
        dsimp only
        cases hp : cr.publicKey res.publicKey with
        | error e =>
          simp only [addKey, wp_bind, wp_mapError]
          exact ⟨fun p hp' => by simp [hp] at hp', fun _ _ => iff_of_true h trivial⟩
        | ok p =>
          rw [wp_bind]
          refine wp_mono (addKey_listed pkg h' hp) ?_ ?_
          · rintro i s₁ ⟨hdone, hlisted, henv⟩
            have hput : s.env.puts.headD .done = .done := hdone
            have hloop := ih (imported ++ [i]) hlisted
            rw [henv] at hloop
            rw [hput]
            exact hloop
          · rintro e s₁ ⟨hne, -, hiff⟩
            rw [hiff]
            -- the loop ends here, and the last key decides
            cases hput : s.env.puts.headD .done with
            | done => exact absurd hput hne
            | late e => exact iff_of_true (Or.inl rfl) trivial
            | lost e => exact or_iff_right (by simp [Put.applied])

lemma generate_iff (pkg : Package) (h : Listed cr sto s) (keyType : CryptKeyType) (n : ℕ) :
    Listed cr sto (exec (Generate cr (scripted sto) pkg keyType n) s).2 ↔
      ∀ kt, rpcKeyType keyType = .ok kt → RoundsKept cr sto n s.env.rpcs s.env.puts s.env.store := by
  have hspec : wp (Generate cr (scripted sto) pkg keyType n)
      (fun _ s' => Listed cr sto s' ↔ ∀ kt, rpcKeyType keyType = .ok kt →
        RoundsKept cr sto n s.env.rpcs s.env.puts s.env.store)
      (fun _ s' => Listed cr sto s' ↔ ∀ kt, rpcKeyType keyType = .ok kt →
        RoundsKept cr sto n s.env.rpcs s.env.puts s.env.store) s := by
    simp only [Generate, named, wp_within, wp_bind, wp_mapError, id_eq]
    constructor
    · intro kt hkt
      refine wp_mono (generateLoop_iff kt n [] h) ?_ ?_
      · exact fun _ s' hiff => hiff.trans ⟨fun hkept _ _ => hkept, fun hkept => hkept kt hkt⟩
      · exact fun _ s' hiff => hiff.trans ⟨fun hkept _ _ => hkept, fun hkept => hkept kt hkt⟩
    · intro e he
      exact iff_of_true h fun kt hkt => by simp [hkt] at he
  rcases wp_cases hspec with ⟨-, -, hiff⟩ | ⟨-, -, hiff⟩
  · exact hiff
  · exact hiff

theorem noHalfImport_iff (h : Listed cr sto s) (i : KeyInput) : NoHalfImport cr sto pkg s i ↔ Kept cr sto s i := by
  have h' : Listed cr sto (s.answered i) := h
  rcases i with ⟨pk | ⟨keyType, n⟩, rpcs, puts⟩
  · refine Iff.trans ?_ (import_iff pkg h' pk)
    simp only [NoHalfImport, keyStep, error_map_iff, KeyCall.Import.injEq]
    exact and_congr_right fun _ => ⟨fun hkeys e he => hkeys pk e rfl he, fun hkeys _ e _ he => hkeys e he⟩
  · refine Iff.trans ?_ (generate_iff pkg h' keyType n)
    simp only [NoHalfImport, keyStep]
    exact and_iff_left fun _ _ hcall => by simp at hcall

end Proofs

section Run

variable {PK PKH Sig S : Type}

/-- **A failed import leaves nothing half imported** in exactly the runs in which every storage that an `Import` reaches
succeeds, and every write of a `Generate` that fails finds its key stored. -/
theorem no_half_imports_iff (cr : Crypt PK PKH Sig) (sto : KeyBlobStorage PKH S) (pkg : Package)
    (s₀ : State PK (Scripted S)) (h₀ : Listed cr sto s₀) (calls : List KeyInput) :
    (∀ pre i post, calls = pre ++ i :: post → NoHalfImport cr sto pkg (final (keyStep cr sto pkg) s₀ pre) i) ↔
      ∀ pre i post, calls = pre ++ i :: post → Kept cr sto (final (keyStep cr sto pkg) s₀ pre) i := by
  rw [← along_iff, ← along_iff]
  exact along_congr (I := Listed cr sto) (fun _ i h => noHalfImport_iff h i) (fun _ _ _ h => h.1) h₀ calls

/-- The signer has imported the key whose bytes are all `sk`. -/
def importedKey (sk : UInt8) : Except Err (Option GenerateAndImportResult) :=
  .ok (some ⟨some [sk], { Ed25519 := some (List.replicate 32 sk) }, 0⟩)

/-- A vault without keys over an empty file. -/
def emptyFile : State Bytes (Scripted (FileStorage Bytes)) :=
  ⟨[], { unwrap := fun _ => .error (.io .EOF), store := newFileStorage [] }⟩

def importOne (put : Put) : KeyInput := ⟨.Import (.Ed25519PrivateKey (List.replicate 32 1)), [importedKey 1], [put]⟩

/-- Two rounds of `Generate`, of which the second gets no answer. -/
def generateTwo : KeyInput := ⟨.Generate .KeyEd25519 2, [importedKey 2, .error (.io .EOF)], [.done]⟩

/-- `Generate` fails in its second round, and the key of the first one stays, listed and stored. -/
theorem no_half_imports_interrupted :
    let s := final (keyStep byteCrypt (fileStorage Bytes) .nitro) emptyFile [importOne .done]
    (keyStep byteCrypt (fileStorage Bytes) .nitro s generateTwo).1 = .error ⟨"(Nitro)", .rpc (.io .EOF)⟩ ∧
      NoHalfImport byteCrypt (fileStorage Bytes) .nitro s generateTwo := by
  refine ⟨rfl, ?_⟩
  have hempty : Listed byteCrypt (fileStorage Bytes) emptyFile := fun _ hk => absurd hk List.not_mem_nil
  have hkept : Along (keyStep byteCrypt (fileStorage Bytes) .nitro) (Kept byteCrypt (fileStorage Bytes)) emptyFile
      [importOne .done, generateTwo] := ⟨fun _ _ _ _ _ _ => rfl, fun _ _ => trivial, trivial⟩
  exact (no_half_imports_iff byteCrypt (fileStorage Bytes) .nitro emptyFile hempty _).2 (along_iff.1 hkept)
    [importOne .done] generateTwo [] rfl

/-- The key of an `Import` that failed to write it is in the list, and not in the file. -/
theorem half_import :
    let i := importOne (.lost { text := "no space left on device" })
    let r := keyStep byteCrypt (fileStorage Bytes) .nitro emptyFile i
    Listed byteCrypt (fileStorage Bytes) emptyFile ∧
      r.1 = .error ⟨"(Nitro)", .other { text := "no space left on device" }⟩ ∧
      r.2.keys.map Key.pub = [List.replicate 32 1] ∧ r.2.env.store.file = [] ∧
      ¬ NoHalfImport byteCrypt (fileStorage Bytes) .nitro emptyFile i := by
  refine ⟨fun _ hk => absurd hk List.not_mem_nil, rfl, rfl, rfl, ?_⟩
  rintro ⟨hlisted, -⟩
  obtain ⟨k, hk, -⟩ := hlisted ⟨List.replicate 32 1, 0, none⟩ List.mem_cons_self
  exact absurd hk List.not_mem_nil

end Run

end Signatory.Vault

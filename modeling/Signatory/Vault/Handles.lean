import Signatory.Lib.Fallible
import Signatory.Lib.Machine
import Signatory.Vault.Enclave

/-!
# Handles of the Confidential Space vault across restarts of the signer

The signer keeps private keys in a table under numbers that it hands out, the handles.  A restart clears the table, and
numbers handed out afterwards may be old ones.  The vault notices a lost handle only when it uses it, and renews that
one handle: every other key still has its old number, which by then may be the number of a different key.

The signer is modelled as the table with the numbers it is going to hand out; what happens to a request on its way is
part of the input (`Turn`).  As long as no number handed out is one that another key still has, a handle is unknown to
the signer or stands for the key that has it (`Bound`), and every signature is made with the right key.
-/

namespace Signatory.Vault

open Lib.Command Lib.Fallible Lib.Machine Rpc
open Signer (Bytes Error)

/-! ## The signer -/

/-- The cryptography of the signer; what it wraps, it unwraps. -/
structure Tee (SK : Type) where
  wrap : SK → Bytes
  unwrap : Bytes → Option SK
  unwrap_wrap : ∀ sk, unwrap (wrap sk) = some sk
  publicKey : SK → PublicKey
  ofPrivate : PrivateKey → Option SK
  keygen : KeyType → ℕ → SK
  /-- A signature may depend on a seed. -/
  sign : SK → Bytes → UInt8 → ℕ → Signature
  prove : SK → ℕ → Signature

/-- What happens to a request.  A request whose answer is lost may be sent again. -/
inductive Turn where
  | restart
  | lost (seed : ℕ)
  | fail (e : Err)
  | reply (seed : ℕ)

/-- The signer, and what is going to happen to the calls of the client and of the storage. -/
structure Remote (SK : Type) where
  table : UInt64 → Option SK
  generated : ℕ := 0
  /-- The numbers that are handed out next. -/
  numbers : List UInt64 := []
  turns : List (List Turn) := []
  puts : List (Except Error Unit) := []

section Signer

variable {SK PKH α : Type}

/-- The error of the signer: a message and its source. -/
def signerError (source : String) : RPCError := ⟨"signer error", [source]⟩

/-- A key is put into the table under the next number, which must be free. -/
def issue (sk : SK) (s : Remote SK) : Except RPCError UInt64 × Remote SK :=
  match s.numbers with
  | [] => (.error (signerError "no handles left"), s)
  | n :: rest =>
    if (s.table n).isSome then (.error (signerError "handle in use"), { s with numbers := rest })
    else (.ok n, { s with numbers := rest, table := Function.update s.table n (some sk) })

/-- A request that puts a key into the table. -/
def issuing (sk : Option SK) (result : SK → UInt64 → α) (s : Remote SK) : Except RPCError α × Remote SK :=
  match sk with
  | none => (.error (signerError "malformed key"), s)
  | some sk => let r := issue sk s; (r.1.map (result sk), r.2)

/-- A request that is made with a handle. -/
def lookingUp (handle : UInt64) (result : SK → α) (s : Remote SK) : Except RPCError α × Remote SK :=
  match s.table handle with
  | none => (.error (signerError "invalid handle"), s)
  | some sk => (.ok (result sk), s)

/-- A call of the client: `serve` is what the signer does with the request. -/
def rpc (serve : ℕ → Remote SK → Except RPCError α × Remote SK) : List Turn → Cmd (Remote SK) Err (Option α)
  | [] => throw (.io .EOF)
  | .restart :: turns => do
    modify fun s => { s with table := fun _ => none }
    rpc serve turns
  | .lost seed :: turns => do
    modify fun s => (serve seed s).2
    rpc serve turns
  | .fail e :: _ => throw e
  | .reply seed :: _ => do
    match ← modifyGet (serve seed) with
    | .ok v => pure (some v)
    | .error e => throw (.rpc e)

/-- The next call of the client. -/
def nextCall (serve : ℕ → Remote SK → Except RPCError α × Remote SK) : Cmd (Remote SK) Err (Option α) := do
  let turns ← modifyGet fun s => (s.turns.headD [], { s with turns := s.turns.tail })
  rpc serve turns

def nextPut : Cmd (Remote SK) Error Unit := do
  let r ← modifyGet fun s => (s.puts.headD (.ok ()), { s with puts := s.puts.tail })
  liftM r

variable (tee : Tee SK)

/-- The answer to a request for a new key. -/
def entry (sk : SK) (n : UInt64) : GenerateAndImportResult := ⟨some (tee.wrap sk), tee.publicKey sk, n⟩

/-- The client and the storage of a vault with this signer. -/
def teeBackend : Backend (Remote SK) PKH where
  Connect := pure ()
  Close := pure ()
  Import blob := nextCall fun _ => issuing (tee.unwrap blob) fun sk n => ⟨tee.publicKey sk, n⟩
  ImportUnencrypted priv := nextCall fun _ => issuing (tee.ofPrivate priv) (entry tee)
  GenerateAndImport kt := nextCall fun _ s =>
    issuing (some (tee.keygen kt s.generated)) (entry tee) { s with generated := s.generated + 1 }
  Sign handle message version := nextCall fun seed => lookingUp handle fun sk => tee.sign sk message version seed
  ProvePossession handle := nextCall fun seed => lookingUp handle fun sk => tee.prove sk seed
  ImportKey _ := nextPut

end Signer

/-! ## Runs of the vault -/

/-- The calls of a vault and restarts of the signer, each with what happens during the call. -/
inductive HandleOp where
  | restart
  | Import (pk : CryptPrivateKey)
  | Generate (keyType : CryptKeyType) (n : ℕ)
  | Sign (i : ℕ) (message : Bytes) (version : UInt8)
  | ProvePossession (i : ℕ)

structure Step where
  op : HandleOp
  numbers : List UInt64
  turns : List (List Turn)
  puts : List (Except Error Unit)

section Runs

variable {SK PK PKH Sig : Type} (tee : Tee SK) (cr : Crypt PK PKH Sig)

/-- The state with what is going to happen. -/
def State.scripted (s : State PK (Remote SK)) (i : Step) : State PK (Remote SK) :=
  { s with env := { s.env with numbers := i.numbers, turns := i.turns, puts := i.puts } }

/-- The signature that a call returns, if it returns one. -/
def handleStep (s : State PK (Remote SK)) (i : Step) : Except VaultError (Option Sig) × State PK (Remote SK) :=
  match i.op with
  | .restart => (.ok none, { s with env := { s.env with table := fun _ => none } })
  | .Import pk =>
    let r := exec (Import cr (teeBackend tee) .confidentialSpace pk) (s.scripted i)
    (r.1.map fun _ => none, r.2)
  | .Generate keyType n =>
    let r := exec (Generate cr (teeBackend tee) .confidentialSpace keyType n) (s.scripted i)
    (r.1.map fun _ => none, r.2)
  | .Sign k message version =>
    let r := exec (Sign cr (teeBackend tee) .confidentialSpace k message version) (s.scripted i)
    (r.1.map some, r.2)
  | .ProvePossession k =>
    let r := exec (ProvePossession cr (teeBackend tee) .confidentialSpace k) (s.scripted i)
    (r.1.map some, r.2)

/-- `newWithClient` over a storage that yields the given keys. -/
def start (items : KeysResult PKH) (env : Remote SK) : Except VaultError Unit × State PK (Remote SK) :=
  exec (newWithClient cr (teeBackend tee) .confidentialSpace (pure items)) ⟨[], env⟩

end Runs

/-! ## Handles that stand for their keys -/

section Bound

variable {SK PK PKH Sig α : Type} {tee : Tee SK} {cr : Crypt PK PKH Sig}

/-- The private key belongs to the public one. -/
def Matches (tee : Tee SK) (cr : Crypt PK PKH Sig) (pub : PK) (sk : SK) : Prop :=
  cr.publicKey (tee.publicKey sk) = .ok pub

/-- A handle is unknown to the signer, or stands for the key that has it; and the numbers to come are those of no key,
except perhaps of the key `own`. -/
structure Bound (tee : Tee SK) (cr : Crypt PK PKH Sig) (own : Option ℕ) (keys : List (Key PK)) (s : Remote SK) :
    Prop where
  table : ∀ (j : ℕ) (k : Key PK), keys[j]? = some k → ∀ sk, s.table k.handle = some sk → Matches tee cr k.pub sk
  numbers : ∀ (j : ℕ) (k : Key PK), keys[j]? = some k → own ≠ some j → k.handle ∉ s.numbers
  nodup : s.numbers.Nodup

/-- The encrypted keys of the vault are those of its keys. -/
def Wrapped (tee : Tee SK) (cr : Crypt PK PKH Sig) (keys : List (Key PK)) : Prop :=
  ∀ (j : ℕ) (k : Key PK), keys[j]? = some k → ∀ blob, k.encryptedKey = some blob → ∀ sk, tee.unwrap blob = some sk →
    Matches tee cr k.pub sk

variable {own : Option ℕ} {keys : List (Key PK)} {s : Remote SK}

lemma Bound.after_restart (h : Bound tee cr own keys s) : Bound tee cr own keys { s with table := fun _ => none } :=
  ⟨fun _ _ _ _ hsk => by simp at hsk, h.numbers, h.nodup⟩

/-- A new entry of the table is under a number that no other key has. -/
lemma Bound.after_issue (h : Bound tee cr own keys s) {sk : SK}
    (hown : ∀ (i : ℕ) (k : Key PK), own = some i → keys[i]? = some k → Matches tee cr k.pub sk) :
    Bound tee cr own keys (issue sk s).2 ∧
      ∀ n, (issue sk s).1 = .ok n → (issue sk s).2.table n = some sk ∧ n ∉ (issue sk s).2.numbers := by
  unfold issue
  cases hn : s.numbers with
  | nil => exact ⟨h, fun n he => by cases he⟩
  | cons n rest =>
    have hnodup : n ∉ rest ∧ rest.Nodup := List.nodup_cons.1 (hn ▸ h.nodup)
    have hrest : ∀ (j : ℕ) (k : Key PK), keys[j]? = some k → own ≠ some j → k.handle ≠ n ∧ k.handle ∉ rest := by
      intro j k hk hj
      have := h.numbers j k hk hj
      rw [hn, List.mem_cons, not_or] at this
      exact this
    dsimp only
    split
    · exact ⟨⟨h.table, fun j k hk hj => (hrest j k hk hj).2, hnodup.2⟩, fun m he => by cases he⟩
    · refine ⟨⟨?_, fun j k hk hj => (hrest j k hk hj).2, hnodup.2⟩, ?_⟩
      · intro j k hk sk' hsk
        dsimp only at hsk
        -- the new entry can only be found under the handle of the key that it is for
        by_cases hkn : k.handle = n
        · rw [hkn, Function.update_self] at hsk
          obtain rfl := Option.some.inj hsk
          by_cases hj : own = some j
          · exact hown j k hj hk
          · exact absurd hkn (hrest j k hk hj).1
        · rw [Function.update_of_ne hkn] at hsk
          exact h.table j k hk sk' hsk
      · rintro m he
        obtain rfl := Except.ok.inj he
        exact ⟨Function.update_self .., hnodup.1⟩

lemma issuing_ok {sk : Option SK} {result : SK → UInt64 → α} {v : α} (h : (issuing sk result s).1 = .ok v) :
    ∃ sk' n, sk = some sk' ∧ (issue sk' s).1 = .ok n ∧ v = result sk' n := by
  cases sk with
  | none => cases h
  | some sk =>
    have h' : (issue sk s).1.map (result sk) = .ok v := h
    obtain ⟨n, hn, rfl⟩ := ok_map_iff.1 h'
    exact ⟨sk, n, rfl, hn, rfl⟩

lemma Bound.after_issuing (h : Bound tee cr own keys s) (sk : Option SK) (result : SK → UInt64 → α)
    (hown : ∀ (i : ℕ) (k : Key PK) sk', own = some i → keys[i]? = some k → sk = some sk' → Matches tee cr k.pub sk') :
    Bound tee cr own keys (issuing sk result s).2 ∧ ∀ v, (issuing sk result s).1 = .ok v →
      ∃ sk' n, sk = some sk' ∧ v = result sk' n ∧ (issuing sk result s).2.table n = some sk' ∧
        n ∉ (issuing sk result s).2.numbers := by
  cases sk with
  | none => exact ⟨h, fun v he => by cases he⟩
  | some sk =>
    obtain ⟨hbound, hok⟩ := h.after_issue fun i k hi hk => hown i k sk hi hk rfl
    refine ⟨hbound, ?_⟩
    intro v he
    obtain ⟨sk', n, hsk, hn, rfl⟩ := issuing_ok he
    obtain rfl := Option.some.inj hsk
    obtain ⟨htable, hfresh⟩ := hok n hn
    exact ⟨sk, n, rfl, rfl, htable, hfresh⟩

section Rule

variable {serve : ℕ → Remote SK → Except RPCError α × Remote SK} {Q : α → Remote SK → Prop}

/-- **The rule for a call of the client**: what restarts and the request itself keep, the call keeps. -/
theorem nextCall_inv {I : Remote SK → Prop} (hrestart : ∀ s, I s → I { s with table := fun _ => none })
    (hturns : ∀ s turns, I s → I { s with turns := turns })
    (hserve : ∀ seed s, I s → I (serve seed s).2 ∧ ∀ v, (serve seed s).1 = .ok v → Q v (serve seed s).2) (hs : I s) :
    wp (nextCall serve) (fun v s' => I s' ∧ ∃ a, v = some a ∧ Q a s') (fun _ s' => I s') s := by
  have hrpc : ∀ turns s, I s →
      wp (rpc serve turns) (fun v s' => I s' ∧ ∃ a, v = some a ∧ Q a s') (fun _ s' => I s') s := by
    intro turns
    induction turns with
    | nil => exact fun s hs => hs
    | cons turn turns ih =>
      intro s hs
      cases turn with
      | restart => exact ih _ (hrestart s hs)
      | lost seed => exact ih _ (hserve seed s hs).1
      | fail e => exact hs
      | reply seed =>
        obtain ⟨hkept, hq⟩ := hserve seed s hs
        simp only [rpc, wp_bind, wp_modifyGet]
        split
        case h_1 v hv => exact ⟨hkept, v, rfl, hq v hv⟩
        case h_2 e he => exact hkept
  rw [nextCall, wp_bind, wp_modifyGet]
  exact hrpc _ _ (hturns s _ hs)

lemma nextCall_rule (hserve : ∀ seed s, Bound tee cr own keys s → Bound tee cr own keys (serve seed s).2 ∧
      ∀ v, (serve seed s).1 = .ok v → Q v (serve seed s).2) (hs : Bound tee cr own keys s) :
    wp (nextCall serve) (fun v s' => Bound tee cr own keys s' ∧ ∃ a, v = some a ∧ Q a s')
      (fun _ s' => Bound tee cr own keys s') s :=
  nextCall_inv (fun _ h => h.after_restart) (fun _ _ h => ⟨h.table, h.numbers, h.nodup⟩) hserve hs

end Rule

end Bound

/-! ## Calls of the vault -/

section Calls

variable {SK PK PKH Sig : Type} {tee : Tee SK} {cr : Crypt PK PKH Sig} {own : Option ℕ}
  {s : State PK (Remote SK)}

structure Good (tee : Tee SK) (cr : Crypt PK PKH Sig) (own : Option ℕ) (s : State PK (Remote SK)) : Prop where
  bound : Bound tee cr own s.keys s.env
  wrapped : Wrapped tee cr s.keys

lemma getElem?_snoc {α : Type} {l : List α} {x y : α} {j : ℕ} (h : (l ++ [x])[j]? = some y) :
    l[j]? = some y ∨ y = x := by
  by_cases hj : j < l.length
  · rw [List.getElem?_append_left hj] at h
    exact Or.inl h
  · rw [List.getElem?_append_right (by omega)] at h
    have hmem := List.mem_of_getElem? h
    exact Or.inr (List.mem_singleton.1 hmem)

lemma Good.append (h : Good tee cr none s) {key : Key PK} {sk : SK} (hsk : s.env.table key.handle = some sk)
    (hpub : Matches tee cr key.pub sk)
    (hblob : ∀ blob, key.encryptedKey = some blob → tee.unwrap blob = some sk)
    (hfresh : key.handle ∉ s.env.numbers) : Good tee cr none { s with keys := s.keys ++ [key] } := by
  refine ⟨⟨?_, ?_, h.bound.nodup⟩, ?_⟩
  · intro j k hk sk' hsk'
    rcases getElem?_snoc hk with hk | rfl
    · exact h.bound.table j k hk sk' hsk'
    · obtain rfl := Option.some.inj (hsk.symm.trans hsk')
      exact hpub
  · intro j k hk hj
    rcases getElem?_snoc hk with hk | rfl
    · exact h.bound.numbers j k hk hj
    · exact hfresh
  · intro j k hk blob hb sk' hsk'
    rcases getElem?_snoc hk with hk | rfl
    · exact h.wrapped j k hk blob hb sk' hsk'
    · obtain rfl := Option.some.inj ((hblob blob hb).symm.trans hsk')
      exact hpub

/-- A call of the client that does not touch the keys of the vault. -/
lemma remote_spec {α : Type} {c : Cmd (Remote SK) Err α} {Q : α → Remote SK → Prop} (h : Good tee cr own s)
    (hc : wp c (fun v t => Bound tee cr own s.keys t ∧ Q v t) (fun _ t => Bound tee cr own s.keys t) s.env) :
    wp (remote c) (fun v s' => Good tee cr own s' ∧ s'.keys = s.keys ∧ Q v s'.env)
      (fun e s' => Good tee cr own s' ∧ s'.keys = s.keys ∧ ∃ err, e = .rpc err) s := by
  rw [remote, wp_within]
  refine wp_mono hc ?_ ?_
  · rintro v t ⟨hbound, hq⟩
    exact ⟨⟨hbound, h.wrapped⟩, rfl, hq⟩
  · intro e t hbound
    exact ⟨⟨hbound, h.wrapped⟩, rfl, e, rfl⟩

/-- The key is listed, whatever the storage says. -/
lemma addKey_spec (h : Good tee cr none s) {res : GenerateAndImportResult} {sk : SK}
    (hsk : s.env.table res.handle = some sk) (hpub : res.publicKey = tee.publicKey sk)
    (hblob : res.encryptedPrivateKey = some (tee.wrap sk)) (hfresh : res.handle ∉ s.env.numbers) :
    wp (addKey cr (teeBackend tee) .confidentialSpace (some res)) (fun _ => Good tee cr none)
      (fun _ => Good tee cr none) s := by
  simp only [addKey, wp_bind, wp_mapError, wp_modifyGet]
  refine ⟨?_, fun _ _ => h⟩
  intro p hp
  have hgood : Good tee cr none
      { s with keys := s.keys ++ [newKey .confidentialSpace p res.handle res.encryptedPrivateKey] } := by
    refine h.append hsk ?_ ?_ hfresh
    · unfold Matches
      rw [← hpub]
      exact hp
    · intro blob hb
      obtain rfl : tee.wrap sk = blob := Option.some.inj (hblob.symm.trans hb)
      exact tee.unwrap_wrap sk
  simp only [stored, teeBackend, nextPut, wp_within, wp_bind, wp_modifyGet, wp_liftM, wp_pure]
  have hput : ∀ puts, Good tee cr none { s with
      keys := s.keys ++ [newKey .confidentialSpace p res.handle res.encryptedPrivateKey],
      env := { s.env with puts := puts } } :=
    fun _ => ⟨⟨hgood.bound.table, hgood.bound.numbers, hgood.bound.nodup⟩, hgood.wrapped⟩
  exact ⟨fun _ _ => hput _, fun _ _ => hput _⟩

/-- What the answer to a request for a new key says is what the table has. -/
def NewEntry (tee : Tee SK) (v : Option GenerateAndImportResult) (t : Remote SK) : Prop :=
  ∃ res sk, v = some res ∧ t.table res.handle = some sk ∧ res.publicKey = tee.publicKey sk ∧
    res.encryptedPrivateKey = some (tee.wrap sk) ∧ res.handle ∉ t.numbers

lemma nextCall_entry {keys : List (Key PK)} {t : Remote SK}
    {serve : ℕ → Remote SK → Except RPCError GenerateAndImportResult × Remote SK}
    (hserve : ∀ seed t, ∃ sk g, serve seed t = issuing sk (entry tee) { t with generated := g })
    (h : Bound tee cr none keys t) :
    wp (nextCall serve) (fun v t => Bound tee cr none keys t ∧ NewEntry tee v t)
      (fun _ t => Bound tee cr none keys t) t := by
  refine wp_mono (nextCall_rule (Q := fun res t => NewEntry tee (some res) t) ?_ h) ?_ fun _ _ h' => h'
  · intro seed t ht
    obtain ⟨sk, g, he⟩ := hserve seed t
    rw [he]
    have ht' : Bound tee cr none keys { t with generated := g } := ⟨ht.table, ht.numbers, ht.nodup⟩
    obtain ⟨hbound, hok⟩ := ht'.after_issuing sk (entry tee) (by simp)
    refine ⟨hbound, ?_⟩
    intro v hv
    obtain ⟨sk', n, -, rfl, htable, hfresh⟩ := hok v hv
    exact ⟨_, sk', rfl, htable, rfl, rfl, hfresh⟩
  · rintro v t' ⟨hbound, res, rfl, hq⟩
    exact ⟨hbound, hq⟩

lemma newKey_spec (h : Good tee cr none s) {c : Cmd (Remote SK) Err (Option GenerateAndImportResult)}
    (hc : ∀ t, Bound tee cr none s.keys t → wp c (fun v t => Bound tee cr none s.keys t ∧ NewEntry tee v t)
      (fun _ t => Bound tee cr none s.keys t) t) :
    wp (remote c) (fun res => wp (addKey cr (teeBackend tee) .confidentialSpace res) (fun _ => Good tee cr none)
      (fun _ => Good tee cr none)) (fun _ => Good tee cr none) s := by
  refine wp_mono (remote_spec h (hc s.env h.bound)) ?_ fun _ _ h' => h'.1
  rintro v s' ⟨hgood, -, res, sk, rfl, hsk, hpub, hblob, hfresh⟩
  exact addKey_spec hgood hsk hpub hblob hfresh

theorem import_spec (h : Good tee cr none s) (pk : CryptPrivateKey) :
    wp (Import cr (teeBackend tee) .confidentialSpace pk) (fun _ => Good tee cr none)
      (fun _ => Good tee cr none) s := by
  simp only [Import, named, wp_within, wp_bind, wp_mapError, id_eq]
  refine ⟨fun rpcPk _ => newKey_spec h fun t ht => ?_, fun _ _ => h⟩
  exact nextCall_entry (fun _ t => ⟨_, t.generated, rfl⟩) ht

lemma generateLoop_spec (kt : KeyType) (n : ℕ) (imported : List ℕ) (h : Good tee cr none s) :
    wp (generateLoop cr (teeBackend tee) .confidentialSpace kt n imported) (fun _ => Good tee cr none)
      (fun _ => Good tee cr none) s := by
  induction n generalizing imported s with
  | zero => exact h
  | succ n ih =>
    rw [generateLoop, wp_bind]
    refine wp_mono (newKey_spec h fun t ht => nextCall_entry (fun _ t => ⟨_, _, rfl⟩) ht) ?_ fun _ _ h' => h'
    intro res s' hadd
    rw [wp_bind]
    exact wp_mono hadd (fun key s'' h'' => ih (imported ++ [key]) h'') fun _ _ h' => h'

theorem generate_spec (h : Good tee cr none s) (keyType : CryptKeyType) (n : ℕ) :
    wp (Generate cr (teeBackend tee) .confidentialSpace keyType n) (fun _ => Good tee cr none)
      (fun _ => Good tee cr none) s := by
  simp only [Generate, named, wp_within, wp_bind, wp_mapError, id_eq]
  exact ⟨fun kt _ => generateLoop_spec kt n [] h, fun _ _ => h⟩

lemma loadLoop_spec (items : List (EncryptedKey PKH)) (h : Good tee cr none s) :
    wp (loadLoop cr (teeBackend tee) .confidentialSpace items) (fun _ => Good tee cr none)
      (fun _ => Good tee cr none) s := by
  induction items generalizing s with
  | nil => exact h
  | cons item rest ih =>
    rw [loadLoop, wp_bind]
    refine wp_mono (remote_spec h (nextCall_rule (Q := fun res t => ∃ sk,
      tee.unwrap (item.encryptedPrivateKey.getD []) = some sk ∧ res.publicKey = tee.publicKey sk ∧
        t.table res.handle = some sk ∧ res.handle ∉ t.numbers) ?_ h.bound)) ?_ fun _ _ h' => h'.1
    · intro seed t ht
      obtain ⟨hbound, hok⟩ := ht.after_issuing (tee.unwrap (item.encryptedPrivateKey.getD []))
        (fun sk n => ImportResult.mk (tee.publicKey sk) n) (by simp)
      refine ⟨hbound, ?_⟩
      intro v hv
      obtain ⟨sk, n, hsk, rfl, htable, hfresh⟩ := hok v hv
      exact ⟨sk, hsk, rfl, htable, hfresh⟩
    · rintro v s' ⟨hgood, -, res, rfl, sk, hsk, hpub, htable, hfresh⟩
      simp only [wp_bind, wp_mapError, wp_modify]
      refine ⟨fun p hp => ih (hgood.append htable ?_ ?_ hfresh), fun _ _ => hgood⟩
      · unfold Matches
        rw [← hpub]
        exact hp
      · intro blob hb
        have hblob : item.encryptedPrivateKey = some blob := hb
        rwa [hblob, Option.getD_some] at hsk

theorem newWithClient_spec (items : KeysResult PKH) (h : Good tee cr none s) :
    wp (newWithClient cr (teeBackend tee) .confidentialSpace (pure items)) (fun _ => Good tee cr none)
      (fun _ => Good tee cr none) s := by
  have hconnect : (teeBackend tee : Backend (Remote SK) PKH).Connect = pure () := rfl
  have hclose : (teeBackend tee : Backend (Remote SK) PKH).Close = pure () := rfl
  simp only [newWithClient, named, wp_within, wp_tryCatch, wp_bind, remote, hconnect, hclose, stored, wp_pure, wp_throw,
    id_eq]
  refine wp_mono (loadLoop_spec items.items h) ?_ fun _ _ h' => h'
  intro _ s' hs'
  cases items.err <;> exact hs'

/-- A request with the handle of a key is carried out with the private key of that key. -/
lemma request_spec (h : Good tee cr own s) {i : ℕ} {k : Key PK} (hk : s.keys[i]? = some k)
    (make : SK → ℕ → Signature) :
    wp (remote (nextCall fun seed => lookingUp k.handle fun sk => make sk seed))
      (fun v s' => Good tee cr own s' ∧ s'.keys = s.keys ∧
        ∃ sig, v = some sig ∧ ∃ sk seed, Matches tee cr k.pub sk ∧ sig = make sk seed)
      (fun e s' => Good tee cr own s' ∧ s'.keys = s.keys ∧ ∃ err, e = .rpc err) s := by
  refine remote_spec h (nextCall_rule
    (Q := fun sig _ => ∃ sk seed, Matches tee cr k.pub sk ∧ sig = make sk seed) ?_ h.bound)
  intro seed t ht
  unfold lookingUp
  cases hsk : t.table k.handle with
  | none => exact ⟨ht, fun v hv => by cases hv⟩
  | some sk =>
    refine ⟨ht, ?_⟩
    rintro v hv
    exact ⟨sk, seed, ht.table i k hk sk hsk, (Except.ok.inj hv).symm⟩

lemma Good.setHandle {i : ℕ} (h : Good tee cr (some i) s) {k : Key PK} (hk : s.keys[i]? = some k) {n : UInt64}
    {sk : SK} (hsk : s.env.table n = some sk) (hpub : Matches tee cr k.pub sk) :
    Good tee cr (some i) { s with keys := s.keys.modify i fun k => { k with handle := n } } := by
  have hcases : ∀ (j : ℕ) (k' : Key PK), (s.keys.modify i fun k => { k with handle := n })[j]? = some k' →
      j = i ∧ k' = { k with handle := n } ∨ j ≠ i ∧ s.keys[j]? = some k' := by
    intro j k' hk'
    rw [List.getElem?_modify] at hk'
    by_cases hj : i = j
    · subst hj
      rw [hk] at hk'
      refine Or.inl ⟨rfl, ?_⟩
      simpa using hk'.symm
    · exact Or.inr ⟨Ne.symm hj, by simpa [hj] using hk'⟩
  refine ⟨⟨?_, ?_, h.bound.nodup⟩, ?_⟩
  · intro j k' hk' sk' hsk'
    rcases hcases j k' hk' with ⟨rfl, rfl⟩ | ⟨-, hold⟩
    · obtain rfl := Option.some.inj (hsk.symm.trans hsk')
      exact hpub
    · exact h.bound.table j k' hold sk' hsk'
  · intro j k' hk' hj
    rcases hcases j k' hk' with ⟨rfl, rfl⟩ | ⟨-, hold⟩
    · exact absurd rfl hj
    · exact h.bound.numbers j k' hold hj
  · intro j k' hk' blob hb
    rcases hcases j k' hk' with ⟨rfl, rfl⟩ | ⟨-, hold⟩
    · exact h.wrapped j k hk blob hb
    · exact h.wrapped j k' hold blob hb

lemma reimportLocked_spec {i : ℕ} (h : Good tee cr (some i) s) {k : Key PK} (hk : s.keys[i]? = some k) :
    wp (reimportLocked (teeBackend tee : Backend (Remote SK) PKH) i)
      (fun _ s' => Good tee cr (some i) s' ∧ ∃ n, s'.keys[i]? = some { k with handle := n })
      (fun _ s' => Good tee cr (some i) s') s := by
  simp only [reimportLocked, getKey, wp_bind, wp_get, hk, wp_pure]
  cases hblob : k.encryptedKey with
  | none => exact h
  | some blob =>
    rw [wp_bind]
    refine wp_mono (remote_spec h (nextCall_rule (Q := fun res t => ∃ sk,
      tee.unwrap blob = some sk ∧ t.table res.handle = some sk) ?_ h.bound)) ?_ fun _ _ h' => h'.1
    · intro seed t ht
      have hown : ∀ (j : ℕ) (k' : Key PK) sk', some i = some j → s.keys[j]? = some k' → tee.unwrap blob = some sk' →
          Matches tee cr k'.pub sk' := by
        intro j k' sk' hj hk' hsk'
        obtain rfl := Option.some.inj hj
        obtain rfl := Option.some.inj (hk.symm.trans hk')
        exact h.wrapped i k hk blob hblob sk' hsk'
      obtain ⟨hbound, hok⟩ := ht.after_issuing (tee.unwrap blob) (fun sk n => ImportResult.mk (tee.publicKey sk) n) hown
      refine ⟨hbound, ?_⟩
      intro v hv
      obtain ⟨sk, n, hsk, rfl, htable, -⟩ := hok v hv
      exact ⟨sk, hsk, htable⟩
    · rintro v s' ⟨hgood, hkeys, res, rfl, sk, hsk, htable⟩
      have hk' : s'.keys[i]? = some k := hkeys ▸ hk
      refine ⟨hgood.setHandle hk' htable (h.wrapped i k hk blob hblob sk hsk), res.handle, ?_⟩
      simp [hk', hblob]

/-- **A request of the vault through a key reference** is answered with the private key of the reference, also when the
handle had to be renewed. -/
lemma withHandle_spec {i : ℕ} (h : Good tee cr (some i) s) (make : SK → ℕ → Signature) :
    wp (withHandle (teeBackend tee : Backend (Remote SK) PKH) .confidentialSpace
        (fun handle => nextCall fun seed => lookingUp handle fun sk => make sk seed) i)
      (fun v s' => Good tee cr (some i) s' ∧
        ∃ k sig sk seed, s.keys[i]? = some k ∧ v = some sig ∧ Matches tee cr k.pub sk ∧ sig = make sk seed)
      (fun _ s' => Good tee cr (some i) s') s := by
  simp only [withHandle, getKey, wp_bind, wp_get]
  cases hk : s.keys[i]? with
  | none => exact h
  | some k =>
    simp only [wp_pure, wp_tryCatch]
    refine wp_mono (request_spec h hk make) ?_ ?_
    · rintro v s' ⟨hgood, -, sig, rfl, sk, seed, hm, rfl⟩
      exact ⟨hgood, k, _, sk, seed, rfl, rfl, hm, rfl⟩
    · rintro _ s' ⟨hgood, hkeys, err, rfl⟩
      dsimp only
      split
      · simp only [wp_bind, wp_within, id_eq]
        refine wp_mono (reimportLocked_spec hgood (hkeys ▸ hk)) ?_ fun _ _ h' => h'
        rintro _ s'' ⟨hgood', n, hk'⟩
        simp only [wp_get, hk', wp_pure]
        refine wp_mono (request_spec hgood' hk' make) ?_ fun _ _ h' => h'.1
        rintro v s₃ ⟨hgood₃, -, sig, rfl, sk, seed, hm, rfl⟩
        exact ⟨hgood₃, k, _, sk, seed, rfl, rfl, hm, rfl⟩
      · exact hgood

/-- The signature is made with the private key of the key. -/
def MadeWith (tee : Tee SK) (cr : Crypt PK PKH Sig) (k : Key PK) (make : SK → ℕ → Signature) (sig : Sig) : Prop :=
  ∃ sk seed, Matches tee cr k.pub sk ∧ cr.signature (make sk seed) = .ok sig

/-- What `Sign` and `ProvePossession` do with the answer. -/
lemma convert_spec {i : ℕ} (h : Good tee cr (some i) s) (make : SK → ℕ → Signature) :
    wp (do
        let sig ← withHandle (teeBackend tee : Backend (Remote SK) PKH) .confidentialSpace
          (fun handle => nextCall fun seed => lookingUp handle fun sk => make sk seed) i
        convert cr sig)
      (fun sig s' => Good tee cr (some i) s' ∧ ∃ k, s.keys[i]? = some k ∧ MadeWith tee cr k make sig)
      (fun _ s' => Good tee cr (some i) s') s := by
  rw [wp_bind]
  refine wp_mono (withHandle_spec h make) ?_ fun _ _ h' => h'
  rintro v s' ⟨hgood, k, sig, sk, seed, hk, rfl, hm, rfl⟩
  simp only [convert, wp_mapError]
  exact ⟨fun sig hsig => ⟨hgood, k, hk, sk, seed, hm, hsig⟩, fun _ _ => hgood⟩

theorem sign_spec {i : ℕ} (h : Good tee cr (some i) s) (message : Bytes) (version : UInt8) :
    wp (Sign cr (teeBackend tee) .confidentialSpace i message version)
      (fun sig s' => Good tee cr (some i) s' ∧
        ∃ k, s.keys[i]? = some k ∧ MadeWith tee cr k (tee.sign · message version) sig)
      (fun _ s' => Good tee cr (some i) s') s := by
  rw [Sign, named, wp_within]
  exact convert_spec h _

theorem provePossession_spec {i : ℕ} (h : Good tee cr (some i) s) :
    wp (ProvePossession cr (teeBackend tee) .confidentialSpace i)
      (fun sig s' => Good tee cr (some i) s' ∧ ∃ k, s.keys[i]? = some k ∧ MadeWith tee cr k tee.prove sig)
      (fun _ s' => Good tee cr (some i) s') s := by
  rw [ProvePossession, named, wp_within]
  exact convert_spec h _

end Calls

/-! ## Whole runs -/

section Run

variable {SK PK PKH Sig : Type} {tee : Tee SK} {cr : Crypt PK PKH Sig} {s : State PK (Remote SK)} {i : Step}

/-- Between the calls: what `Good` says of the table and of the encrypted keys. -/
structure Sound (tee : Tee SK) (cr : Crypt PK PKH Sig) (s : State PK (Remote SK)) : Prop where
  table : ∀ (j : ℕ) (k : Key PK), s.keys[j]? = some k → ∀ sk, s.env.table k.handle = some sk → Matches tee cr k.pub sk
  wrapped : Wrapped tee cr s.keys

/-- The key whose handle a call may renew. -/
def Step.own (i : Step) : Option ℕ :=
  match i.op with
  | .Sign k _ _ | .ProvePossession k => some k
  | .restart | .Import _ | .Generate _ _ => none

/-- The numbers handed out during the call are distinct, and none is one that another key still has. -/
def Fresh (s : State PK (Remote SK)) (i : Step) : Prop :=
  i.numbers.Nodup ∧ ∀ (j : ℕ) (k : Key PK), s.keys[j]? = some k → i.own ≠ some j → k.handle ∉ i.numbers

lemma Good.sound {own : Option ℕ} (h : Good tee cr own s) : Sound tee cr s := ⟨h.bound.table, h.wrapped⟩

lemma Sound.good (h : Sound tee cr s) (hfresh : Fresh s i) : Good tee cr i.own (s.scripted i) :=
  ⟨⟨h.table, hfresh.2, hfresh.1⟩, h.wrapped⟩

theorem Sound.step (h : Sound tee cr s) (hfresh : Fresh s i) : Sound tee cr (handleStep tee cr s i).2 := by
  have hgood := h.good hfresh
  obtain ⟨op, numbers, turns, puts⟩ := i
  cases op with
  | restart => exact ⟨fun _ _ _ _ hsk => by simp [handleStep] at hsk, h.wrapped⟩
  | Import pk => exact ((wp_state _ (Good tee cr none)).1 (import_spec hgood pk)).sound
  | Generate keyType n => exact ((wp_state _ (Good tee cr none)).1 (generate_spec hgood keyType n)).sound
  | Sign k message version =>
    have hkept := wp_mono (sign_spec hgood message version) (fun _ _ h' => h'.1) fun _ _ h' => h'
    exact ((wp_state _ (Good tee cr (some k))).1 hkept).sound
  | ProvePossession k =>
    have hkept := wp_mono (provePossession_spec hgood) (fun _ _ h' => h'.1) fun _ _ h' => h'
    exact ((wp_state _ (Good tee cr (some k))).1 hkept).sound

/-- What a call returns through a key reference is made with the private key of the reference. -/
def OwnKey (tee : Tee SK) (cr : Crypt PK PKH Sig) (s : State PK (Remote SK)) (i : Step) : Prop :=
  ∀ sig, (handleStep tee cr s i).1 = .ok (some sig) →
    match i.op with
    | .Sign j message version => ∃ k, s.keys[j]? = some k ∧ MadeWith tee cr k (tee.sign · message version) sig
    | .ProvePossession j => ∃ k, s.keys[j]? = some k ∧ MadeWith tee cr k tee.prove sig
    | .restart | .Import _ | .Generate _ _ => False

lemma value_of_wp {σ ε α β : Type} {c : Cmd σ ε α} {Q : α → σ → Prop} {E : ε → σ → Prop} {t : σ} (h : wp c Q E t)
    {f : α → β} {v : β} (hv : (exec c t).1.map f = .ok v) : ∃ a t', f a = v ∧ Q a t' := by
  obtain ⟨a, ha, hfa⟩ := ok_map_iff.1 hv
  rcases wp_cases h with ⟨a', ha', hq⟩ | ⟨e, he, -⟩
  · obtain rfl := Except.ok.inj (ha.symm.trans ha')
    exact ⟨a, _, hfa, hq⟩
  · cases ha.symm.trans he

theorem Sound.ownKey (h : Sound tee cr s) (hfresh : Fresh s i) : OwnKey tee cr s i := by
  have hgood := h.good hfresh
  obtain ⟨op, numbers, turns, puts⟩ := i
  intro sig hsig
  cases op with
  | restart => simp [handleStep] at hsig
  | Import pk =>
    obtain ⟨-, -, hnone, -⟩ := value_of_wp (import_spec hgood pk) hsig
    cases hnone
  | Generate keyType n =>
    obtain ⟨-, -, hnone, -⟩ := value_of_wp (generate_spec hgood keyType n) hsig
    cases hnone
  | Sign j message version =>
    obtain ⟨sig', s', he, -, hmade⟩ := value_of_wp (sign_spec hgood message version) hsig
    obtain rfl := Option.some.inj he
    exact hmade
  | ProvePossession j =>
    obtain ⟨sig', s', he, -, hmade⟩ := value_of_wp (provePossession_spec hgood) hsig
    obtain rfl := Option.some.inj he
    exact hmade

/-- A signer whose private keys are bytes. -/
def byteTee : Tee UInt8 where
  wrap sk := [sk]
  unwrap blob := blob.head?
  unwrap_wrap _ := rfl
  publicKey sk := { Ed25519 := some (List.replicate 32 sk) }
  ofPrivate priv := priv.Ed25519.bind List.head?
  keygen _ n := UInt8.ofNat n
  sign sk message _ _ := { Ed25519 := some (sk :: (message ++ List.replicate 63 0).take 63) }
  prove sk _ := { Ed25519 := some (List.replicate 64 sk) }

def byteCrypt : Crypt Bytes Bytes Bytes where
  UnmarshalECDSAPublicKey b _ := .ok b
  Ed25519PublicKey := id
  BLSPublicKeyFromBytes := .ok
  ECDSASignature _ _ _ := []
  Ed25519Signature := id
  BLSSignatureFromBytes := .ok
  Hash := id

/-- The vault before its first call, over an empty storage. -/
def emptyVault : State Bytes (Remote UInt8) := ⟨[], { table := fun _ => none }⟩

def importing (sk : UInt8) (n : UInt64) : Step := ⟨.Import (.Ed25519PrivateKey [sk]), [n], [[.reply 0]], []⟩

/-- Two keys with the handles 0 and 1, a restart, and the second key renews its handle. -/
def renewing (n : UInt64) : List Step :=
  [importing 1 0, importing 2 1, ⟨.restart, [], [], []⟩, ⟨.Sign 1 [7] 2, [n], [[.reply 0], [.reply 0], [.reply 0]], []⟩]

/-- **A key reference signs with its own key**, across any restarts of the signer, in every run in which no number that
the signer hands out is one that another key of the vault still has. -/
theorem signs_with_own_key (tee : Tee SK) (cr : Crypt PK PKH Sig) (items : KeysResult PKH) (env : Remote SK)
    (hload : env.numbers.Nodup) (s₀ : State PK (Remote SK)) (hstart : start tee cr items env = (.ok (), s₀))
    (steps : List Step) (hfresh : Along (handleStep tee cr) Fresh s₀ steps) (pre post : List Step) (i : Step)
    (hsplit : steps = pre ++ i :: post) : OwnKey tee cr (final (handleStep tee cr) s₀ pre) i := by
  have hstate : Good tee cr none s₀ := by
    have hnew : Good tee cr none (⟨[], env⟩ : State PK (Remote SK)) :=
      ⟨⟨by simp, by simp, hload⟩, fun _ _ hk => by simp at hk⟩
    have := (wp_state _ (Good tee cr none)).1 (newWithClient_spec items hnew)
    rwa [show exec (newWithClient cr (teeBackend tee) .confidentialSpace (pure items)) ⟨[], env⟩ = (.ok (), s₀)
      from hstart] at this
  subst hsplit
  obtain ⟨hpre, hi, -⟩ := along_append.1 hfresh
  have hsound : Sound tee cr (final (handleStep tee cr) s₀ pre) :=
    inv_events (I := fun _ s => Sound tee cr s) hstate.sound (fun _ s i hs hG => hs.step hG) hpre
  exact hsound.ownKey hi

lemma fresh_of_unused (hnodup : i.numbers.Nodup) (h : ∀ k ∈ s.keys, k.handle ∉ i.numbers) : Fresh s i :=
  ⟨hnodup, fun _ k hk _ => h k (List.mem_of_getElem? hk)⟩

/-- Both keys renew their handles after a restart, with numbers that are new. -/
theorem signs_with_own_key_renewed :
    let s := final (handleStep byteTee byteCrypt) emptyVault (renewing 5)
    let i : Step := ⟨.Sign 0 [7] 2, [6], [[.reply 0], [.reply 0], [.reply 0]], []⟩
    (handleStep byteTee byteCrypt s i).1 = .ok (some (1 :: 7 :: List.replicate 62 0)) ∧
      OwnKey byteTee byteCrypt s i :=
  ⟨rfl, signs_with_own_key byteTee byteCrypt ⟨[], none⟩ { table := fun _ => none } (by decide) emptyVault rfl
    (renewing 5 ++ [⟨.Sign 0 [7] 2, [6], [[.reply 0], [.reply 0], [.reply 0]], []⟩])
    (by
      simp only [renewing, List.cons_append, List.nil_append, Along]
      refine ⟨?_, ?_, ?_, ?_, ?_, trivial⟩ <;> exact fresh_of_unused (by decide) (by decide))
    (renewing 5) [] _ rfl⟩

/-- The second key gets the number that the first one still has, and the first one then signs with the second key. -/
theorem handles_mixed_up :
    let s := final (handleStep byteTee byteCrypt) emptyVault (renewing 0)
    let i : Step := ⟨.Sign 0 [7] 2, [], [[.reply 0]], []⟩
    start byteTee byteCrypt ⟨[], none⟩ { table := fun _ => none } = (.ok (), emptyVault) ∧
      (handleStep byteTee byteCrypt s i).1 = .ok (some (2 :: 7 :: List.replicate 62 0)) ∧
      ¬ OwnKey byteTee byteCrypt s i := by
  refine ⟨rfl, rfl, ?_⟩
  intro hown
  obtain ⟨k, hk, sk, seed, hm, hsig⟩ := hown _ rfl
  obtain rfl : (⟨List.replicate 32 1, 0, some [1]⟩ : Key Bytes) = k := Option.some.inj hk
  -- the private key of the reference is 1, and the signature begins with 2
  have hone : sk = 1 := by
    have hpub : List.replicate 32 sk = List.replicate 32 1 := Except.ok.inj hm
    exact (List.cons.inj hpub).1
  subst hone
  have hhead : some (1 : UInt8) = some 2 := congrArg List.head? (Except.ok.inj hsig)
  exact absurd hhead (by decide)

end Run

end Signatory.Vault

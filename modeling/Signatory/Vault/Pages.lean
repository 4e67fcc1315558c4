import Signatory.Vault.Handles
import Signatory.Vault.Storage

/-!
# Keys after a restart

`newWithClient` lists the keys that `GetKeys` of its storage yields, so a key is there after a restart if `GetKeys`
finds it.  The file storage has read the whole file, and the Firestore storage goes on until its iterator is done.  The
DynamoDB storage makes one call of `Scan`, which returns one page of the table, and does not look at the key after which
the next page begins: only the keys on the first page come back.
-/

namespace Signatory.Vault

open Lib.Command Lib.Machine Rpc
open Signer (Bytes Error)

/-! ## Reading a table -/

/-- `dbItem` and `docItem`. -/
structure DbItem where
  PKH : String
  Value : Option Bytes
  deriving DecidableEq, Repr

/-- The encodings that come from other packages: items of the database, and texts of public key hashes. -/
structure Attributes (Item PKH : Type) where
  MarshalMap : DbItem → Item
  UnmarshalMap : Item → Except Error DbItem
  text : PKH → String
  ParsePublicKeyHash : String → Except Error PKH
  unmarshal_marshal : ∀ d, UnmarshalMap (MarshalMap d) = .ok d
  parse_text : ∀ pkh, ParsePublicKeyHash (text pkh) = .ok pkh

/-- A page of a table. -/
structure ScanOutput (Item : Type) where
  Items : List Item
  LastEvaluatedKey : Option String

section Reading

variable {Item PKH : Type} (A : Attributes Item PKH)

/-- The item of a key. -/
def Attributes.item (k : EncryptedKey PKH) : Item := A.MarshalMap ⟨A.text k.publicKeyHash, k.encryptedPrivateKey⟩

/-- `awsResult`: its iterator ends at the first item that cannot be read, and `Err` tells why. -/
def awsResult : List Item → KeysResult PKH
  | [] => ⟨[], none⟩
  | item :: rest =>
    match A.UnmarshalMap item with
    | .error e => ⟨[], some e⟩
    | .ok parsed =>
      match A.ParsePublicKeyHash parsed.PKH with
      | .error e => ⟨[], some e⟩
      | .ok pkh => ⟨⟨pkh, parsed.Value⟩ :: (awsResult rest).items, (awsResult rest).err⟩

/-- `scan` is the answer to `Scan` with an `ExclusiveStartKey`, or without one. -/
def awsGetKeys (scan : Option String → Except Error (ScanOutput Item)) : Except Error (KeysResult PKH) := do
  let out ← scan none
  pure (awsResult A out.Items)

def gcpError (e : Error) : Error := { e with text := "(GCPStorage): " ++ e.text }

/-- The loop of `gcpStorage.GetKeys`, over what the iterator returns before it is done. -/
def gcpLoop : List (Except Error Item) → List (EncryptedKey PKH) → Except Error (List (EncryptedKey PKH))
  | [], keys => pure keys
  | next :: rest, keys => do
    let doc ← next.mapError gcpError
    let item ← (A.UnmarshalMap doc).mapError gcpError
    let pkh ← (A.ParsePublicKeyHash item.PKH).mapError fun e =>
      { e with text := "(GCPStorage): invalid public key hash " ++ item.PKH ++ ": " ++ e.text }
    gcpLoop rest (keys ++ [⟨pkh, item.Value⟩])

def gcpGetKeys (nexts : List (Except Error Item)) : Except Error (KeysResult PKH) := do
  let keys ← gcpLoop A nexts []
  pure ⟨keys, none⟩

/-- The pages of a scan that is continued until no key is returned. -/
inductive Scan (scan : Option String → Except Error (ScanOutput Item)) : Option String → List (List Item) → Prop
  | last {start : Option String} {page : List Item} : scan start = .ok ⟨page, none⟩ → Scan scan start [page]
  | more {start : Option String} {page : List Item} {next : String} {rest : List (List Item)} :
      scan start = .ok ⟨page, some next⟩ → Scan scan (some next) rest → Scan scan start (page :: rest)

/-- The items of a table. -/
def Table.items (t : Table) : List Item := t.entries.map fun e => A.MarshalMap ⟨e.1, e.2⟩

end Reading

/-! ## Loading the keys -/

section Loading

variable {SK PK PKH Sig : Type} {tee : Tee SK} {cr : Crypt PK PKH Sig} {s : State PK (Remote SK)}

/-- The blob is that of a private key, and the hash that of its public key. -/
def Genuine (tee : Tee SK) (cr : Crypt PK PKH Sig) (k : EncryptedKey PKH) : Prop :=
  ∃ sk p, k.encryptedPrivateKey = some (tee.wrap sk) ∧ Matches tee cr p sk ∧ cr.Hash p = k.publicKeyHash

/-- The hashes of the keys that the vault lists. -/
def State.hashes {ρ : Type} (cr : Crypt PK PKH Sig) (s : State PK ρ) : List PKH := s.keys.map fun k => cr.Hash k.pub

/-- What the signer returns for a blob is the public key of its private key. -/
lemma import_blob (s : State PK (Remote SK)) (sk : SK) :
    wp (remote ((teeBackend tee : Backend (Remote SK) PKH).Import (tee.wrap sk)))
      (fun v s' => s'.keys = s.keys ∧ ∃ res, v = some res ∧ res.publicKey = tee.publicKey sk) (fun _ _ => True) s := by
  rw [remote, wp_within]
  refine wp_mono (nextCall_inv (I := fun _ => True) (Q := fun res _ => res.publicKey = tee.publicKey sk)
    (fun _ _ => trivial) (fun _ _ _ => trivial) ?_ trivial) ?_ fun _ _ _ => trivial
  · intro _ t _
    refine ⟨trivial, ?_⟩
    intro v hv
    obtain ⟨sk', n, hsk, -, rfl⟩ := issuing_ok hv
    obtain rfl : sk = sk' := Option.some.inj ((tee.unwrap_wrap sk).symm.trans hsk)
    rfl
  · rintro v t ⟨-, res, hv, hres⟩
    exact ⟨rfl, res, hv, hres⟩

/-- The loader lists a key for every item, in their order. -/
lemma loadLoop_hashes (pkg : Package) (items : List (EncryptedKey PKH)) (hgenuine : ∀ k ∈ items, Genuine tee cr k) :
    wp (loadLoop cr (teeBackend tee) pkg items)
      (fun _ s' => s'.hashes cr = s.hashes cr ++ items.map EncryptedKey.publicKeyHash) (fun _ _ => True) s := by
  induction items generalizing s with
  | nil => simp [loadLoop]
  | cons k rest ih =>
    obtain ⟨sk, p, hblob, hmatches, hhash⟩ := hgenuine k List.mem_cons_self
    rw [loadLoop, wp_bind, hblob, Option.getD_some]
    refine wp_mono (import_blob s sk) ?_ fun _ _ h => h
    rintro _ s' ⟨hkeys, res, rfl, hpub⟩
    simp only [wp_bind, wp_mapError, wp_modify]
    refine ⟨?_, fun _ _ => trivial⟩
    intro p' hp'
    obtain rfl : p = p' := by
      rw [hpub] at hp'
      exact Except.ok.inj (hmatches.symm.trans hp')
    refine wp_mono (ih fun k' hk' => hgenuine k' (List.mem_cons_of_mem _ hk')) ?_ fun _ _ h => h
    intro _ s'' hall
    rw [hall]
    cases pkg <;> simp [State.hashes, newKey, hkeys, hhash]

/-- **What a new vault lists** is what its storage yields. -/
theorem newWithClient_hashes {pkg : Package} {getKeys : Except Error (KeysResult PKH)} {env : Remote SK}
    (hgenuine : ∀ r, getKeys = .ok r → ∀ k ∈ r.items, Genuine tee cr k)
    (hload : exec (newWithClient cr (teeBackend tee) pkg (liftM getKeys)) ⟨[], env⟩ = (.ok (), s)) :
    ∃ r, getKeys = .ok r ∧ s.hashes cr = r.items.map EncryptedKey.publicKeyHash := by
  have hspec : wp (newWithClient cr (teeBackend tee) pkg (liftM getKeys))
      (fun _ s' => ∃ r, getKeys = .ok r ∧ s'.hashes cr = r.items.map EncryptedKey.publicKeyHash) (fun _ _ => True)
      ⟨[], env⟩ := by
    have hconnect : (teeBackend tee : Backend (Remote SK) PKH).Connect = pure () := rfl
    simp only [newWithClient, named, wp_within, wp_tryCatch, wp_bind, remote, hconnect, wp_pure, stored, wp_liftM,
      id_eq]
    refine ⟨?_, fun _ _ => trivial⟩
    intro r hr
    refine wp_mono (loadLoop_hashes pkg r.items (hgenuine r hr)) ?_ fun _ _ _ => trivial
    intro _ s' hall
    -- an item that could not be read makes the whole load fail
    cases r.err with
    | some e => trivial
    | none => exact ⟨r, hr, hall⟩
  exact wp_post hspec hload

end Loading

/-! ## Runs of imports -/

section Writing

variable {PKH S : Type}

/-- A call of `ImportKey`, with the way in which its write ends. -/
def write (sto : KeyBlobStorage PKH S) (s : S) (w : Put × EncryptedKey PKH) : Except Error Unit × S :=
  sto.ImportKey w.1 w.2 s

/-- A key with this hash was imported, and the import returned no error. -/
def Imported (sto : KeyBlobStorage PKH S) (s : S) (writes : List (Put × EncryptedKey PKH)) (pkh : PKH) : Prop :=
  ∃ w, (w, .ok ()) ∈ events (write sto) s writes ∧ w.2.publicKeyHash = pkh

variable {sto : KeyBlobStorage PKH S} {s : S} {writes : List (Put × EncryptedKey PKH)} {pkh : PKH}

theorem Imported.stored (h : Imported sto s writes pkh) : sto.Stored (final (write sto) s writes) pkh := by
  obtain ⟨w, hw, rfl⟩ := h
  have hrun : Along (write sto) (fun _ _ => True) s writes := along_of_forall fun _ _ => trivial
  refine inv_events (I := fun h t => ∀ w, (w, .ok ()) ∈ h → sto.Stored t w.2.publicKeyHash) ?_ ?_ hrun w hw
  · simp
  · intro h t i hold _ w hw
    rcases List.mem_append.1 hw with hw | hw
    · exact sto.kept _ _ _ _ (hold w hw)
    · obtain ⟨rfl, hok⟩ := Prod.mk.inj (List.mem_singleton.1 hw)
      have hdone : w.1.outcome = .ok () := (sto.outcome _ _ _).symm.trans hok.symm
      exact sto.stored _ _ _ (by rw [Put.outcome_ok.1 hdone]; rfl)

lemma entries_of_writes {text : PKH → String} {importKey : Put → EncryptedKey PKH → Table → Except Error Unit × Table}
    (h : importKey = Table.put text) :
    ∀ e ∈ (final (write (tableStorage text importKey h)) ∅ writes).entries,
      ∃ w ∈ writes, e = ⟨text w.2.publicKeyHash, w.2.encryptedPrivateKey⟩ := by
  subst h
  have hrun : Along (write (tableStorage text (Table.put text) rfl)) (fun _ w => w ∈ writes) ∅ writes :=
    along_of_forall fun _ hw => hw
  refine inv_events (I := fun _ (t : Table) => ∀ e ∈ t.entries,
    ∃ w ∈ writes, e = ⟨text w.2.publicKeyHash, w.2.encryptedPrivateKey⟩) ?_ ?_ hrun
  · simp
  · intro _ t w hold hw e he
    change e ∈ (Table.put text w.1 w.2 t).2.entries at he
    unfold Table.put at he
    cases happlied : w.1.applied with
    | false => exact hold e (by simpa [happlied] using he)
    | true =>
      simp only [happlied, if_true, AList.entries_insert, List.mem_cons] at he
      rcases he with rfl | he
      · exact ⟨w, hw, rfl⟩
      · exact hold e ((List.kerase_sublist _ _).subset he)

lemma file_of_writes :
    ∀ k ∈ (final (write (fileStorage PKH)) (newFileStorage []) writes).file, ∃ w ∈ writes, w.2 = k := by
  have hrun : Along (write (fileStorage PKH)) (fun _ w => w ∈ writes) (newFileStorage []) writes :=
    along_of_forall fun _ hw => hw
  have hkeys := inv_events (I := fun _ (f : FileStorage PKH) => ∀ k ∈ f.keys, ∃ w ∈ writes, w.2 = k)
    (by simp [newFileStorage]) ?_ hrun
  · exact fun k hk => hkeys k (FileStorage.file_subset _ hk)
  · intro _ f w hold hw k hk
    have hk' : k ∈ f.keys ++ [w.2] := by
      change k ∈ (FileStorage.ImportKey w.1 w.2 f).2.keys at hk
      unfold FileStorage.ImportKey at hk
      cases happlied : w.1.applied <;> simpa [happlied] using hk
    rcases List.mem_append.1 hk' with hk' | hk'
    · exact hold k hk'
    · exact ⟨w, hw, (List.mem_singleton.1 hk').symm⟩

end Writing

/-! ## After a restart -/

section Restart

variable {Item PKH : Type} {A : Attributes Item PKH}

@[simp] lemma awsResult_items (ks : List (EncryptedKey PKH)) : awsResult A (ks.map A.item) = ⟨ks, none⟩ := by
  induction ks with
  | nil => rfl
  | cons k ks ih => simp [awsResult, Attributes.item, A.unmarshal_marshal, A.parse_text, ih]

lemma gcpLoop_cons (k : EncryptedKey PKH) (rest : List (Except Error Item)) (keys : List (EncryptedKey PKH)) :
    gcpLoop A (.ok (A.item k) :: rest) keys = gcpLoop A rest (keys ++ [k]) := by
  simp [gcpLoop, Attributes.item, Except.mapError, bind, Except.bind, A.unmarshal_marshal, A.parse_text]

lemma gcpLoop_items (ks keys : List (EncryptedKey PKH)) :
    gcpLoop A (ks.map fun k => .ok (A.item k)) keys = .ok (keys ++ ks) := by
  induction ks generalizing keys with
  | nil => simp [gcpLoop, pure, Except.pure]
  | cons k ks ih => rw [List.map_cons, gcpLoop_cons, ih, List.append_assoc, List.singleton_append]

lemma marshal_eq_item {pkh : PKH} {v : Option Bytes} {k : EncryptedKey PKH}
    (h : A.MarshalMap ⟨A.text pkh, v⟩ = A.item k) : k.publicKeyHash = pkh := by
  have hitem := congrArg A.UnmarshalMap h
  rw [Attributes.item, A.unmarshal_marshal, A.unmarshal_marshal] at hitem
  have htext : A.text pkh = A.text k.publicKeyHash := congrArg DbItem.PKH (Except.ok.inj hitem)
  have hpkh := congrArg A.ParsePublicKeyHash htext
  rw [A.parse_text, A.parse_text] at hpkh
  exact (Except.ok.inj hpkh).symm

lemma keys_of_items {writes : List (Put × EncryptedKey PKH)} {t : Table}
    (ht : ∀ e ∈ t.entries, ∃ w ∈ writes, e = ⟨A.text w.2.publicKeyHash, w.2.encryptedPrivateKey⟩) {items : List Item}
    (hitems : ∀ x ∈ items, x ∈ Table.items A t) :
    ∃ ks : List (EncryptedKey PKH), items = ks.map A.item ∧ ∀ k ∈ ks, ∃ w ∈ writes, w.2 = k := by
  have hrange : items ∈ Set.range (List.map fun k : { k // ∃ w ∈ writes, w.2 = k } => A.item k.1) := by
    rw [Set.range_list_map]
    intro x hx
    obtain ⟨e, he, rfl⟩ := List.mem_map.1 (hitems x hx)
    obtain ⟨w, hw, rfl⟩ := ht e he
    exact ⟨⟨w.2, w, hw, rfl⟩, rfl⟩
  obtain ⟨l, rfl⟩ := hrange
  refine ⟨l.map Subtype.val, by simp, ?_⟩
  intro k hk
  obtain ⟨k', -, rfl⟩ := List.mem_map.1 hk
  exact k'.2

variable {SK PK Sig : Type} {tee : Tee SK} {cr : Crypt PK PKH Sig} {writes : List (Put × EncryptedKey PKH)}
  {env : Remote SK} {s : State PK (Remote SK)} {pkh : PKH}

lemma mem_hashes_iff {pkg : Package} {getKeys : Except Error (KeysResult PKH)} {ks : List (EncryptedKey PKH)}
    (hget : getKeys = .ok ⟨ks, none⟩) (hgenuine : ∀ k ∈ ks, Genuine tee cr k)
    (hload : exec (newWithClient cr (teeBackend tee) pkg (liftM getKeys)) ⟨[], env⟩ = (.ok (), s)) :
    pkh ∈ s.hashes cr ↔ ∃ v, A.MarshalMap ⟨A.text pkh, v⟩ ∈ ks.map A.item := by
  have hall : s.hashes cr = ks.map EncryptedKey.publicKeyHash := by
    have hread : ∀ r, getKeys = .ok r → r = ⟨ks, none⟩ := fun r hr => Except.ok.inj (hr.symm.trans hget)
    obtain ⟨r, hr, hall⟩ := newWithClient_hashes (fun r hr => by rw [hread r hr]; exact hgenuine) hload
    rw [hall, hread r hr]
  rw [hall]
  constructor
  · intro hpkh
    obtain ⟨k, hk, rfl⟩ := List.mem_map.1 hpkh
    exact ⟨k.encryptedPrivateKey, List.mem_map_of_mem hk⟩
  · rintro ⟨v, hv⟩
    obtain ⟨k, hk, hitem⟩ := List.mem_map.1 hv
    exact List.mem_map.2 ⟨k, hk, marshal_eq_item hitem.symm⟩

/-- **From a file every key comes back.** -/
theorem file_keys_come_back {pkg : Package} (hgenuine : ∀ w ∈ writes, Genuine tee cr w.2) {f : FileStorage PKH}
    (hfile : f = newFileStorage (final (write (fileStorage PKH)) (newFileStorage []) writes).file)
    (hload : exec (newWithClient cr (teeBackend tee) pkg (liftM (Except.ok f.GetKeys : Except Error _)))
      ⟨[], env⟩ = (.ok (), s)) (himported : Imported (fileStorage PKH) (newFileStorage []) writes pkh) :
    pkh ∈ s.hashes cr := by
  have hlisted : ∀ r, (Except.ok f.GetKeys : Except Error _) = .ok r → ∀ k ∈ r.items, Genuine tee cr k := by
    intro r hr k hk
    rw [← Except.ok.inj hr, hfile] at hk
    obtain ⟨w, hw, rfl⟩ := file_of_writes k hk
    exact hgenuine w hw
  obtain ⟨r, hr, hall⟩ := newWithClient_hashes hlisted hload
  obtain ⟨k, hk, rfl⟩ := himported.stored
  rw [hall, ← Except.ok.inj hr, hfile]
  exact List.mem_map_of_mem hk

/-- **From Firestore every key comes back.** -/
theorem gcp_keys_come_back (hgenuine : ∀ w ∈ writes, Genuine tee cr w.2) {docs : List Item}
    (hdocs : docs.Perm (Table.items A (final (write (gcpStorage A.text)) ∅ writes)))
    (hload : exec (newWithClient cr (teeBackend tee) .confidentialSpace (liftM (gcpGetKeys A (docs.map .ok))))
      ⟨[], env⟩ = (.ok (), s)) (himported : Imported (gcpStorage A.text) ∅ writes pkh) : pkh ∈ s.hashes cr := by
  obtain ⟨v, hv⟩ := Option.isSome_iff_exists.1 himported.stored
  have hitem : A.MarshalMap ⟨A.text pkh, v⟩ ∈ docs :=
    hdocs.mem_iff.2 (List.mem_map.2 ⟨_, AList.mem_lookup_iff.1 hv, rfl⟩)
  obtain ⟨ks, rfl, hks⟩ := keys_of_items (entries_of_writes rfl) fun x hx => hdocs.mem_iff.1 hx
  have hget : gcpGetKeys A ((ks.map A.item).map .ok) = .ok ⟨ks, none⟩ := by
    simp [gcpGetKeys, Function.comp_def, gcpLoop_items, bind, Except.bind, pure, Except.pure]
  refine (mem_hashes_iff hget ?_ hload).2 ⟨v, hitem⟩
  intro k hk
  obtain ⟨w, hw, rfl⟩ := hks k hk
  exact hgenuine w hw

/-- Items as they are, and hashes with a character for each byte. -/
def latin : Attributes DbItem Bytes where
  MarshalMap := id
  UnmarshalMap := .ok
  text pkh := String.ofList (pkh.map fun b => Char.ofNat b.toNat)
  ParsePublicKeyHash text := .ok (text.toList.map fun c => UInt8.ofNat c.toNat)
  unmarshal_marshal _ := rfl
  parse_text pkh := by
    have hbyte : ∀ b : UInt8, UInt8.ofNat (Char.ofNat b.toNat).toNat = b := by
      intro b
      have hlt := b.toNat_lt
      rw [Char.ofNat, dif_pos (Or.inl (by omega))]
      exact UInt8.ofNat_toNat
    simp [Function.comp_def, hbyte]

def wrappedKey (sk : UInt8) : EncryptedKey Bytes := ⟨List.replicate 32 sk, some [sk]⟩

lemma genuine_wrappedKey (sk : UInt8) : Genuine byteTee byteCrypt (wrappedKey sk) :=
  ⟨sk, List.replicate 32 sk, rfl, rfl, rfl⟩

/-- Two keys are imported. -/
def twoWrites : List (Put × EncryptedKey Bytes) := [(.done, wrappedKey 1), (.done, wrappedKey 2)]

lemma imported_twoWrites {pkh : Bytes} :
    Imported (awsStorage latin.text) ∅ twoWrites pkh ↔ pkh = List.replicate 32 1 ∨ pkh = List.replicate 32 2 := by
  have hevents : events (write (awsStorage latin.text)) ∅ twoWrites =
      [((.done, wrappedKey 1), .ok ()), ((.done, wrappedKey 2), .ok ())] := rfl
  simp [Imported, hevents, wrappedKey, eq_comm]

/-- A signer that answers two requests. -/
def twoAnswers : Remote UInt8 := { table := fun _ => none, numbers := [0, 1], turns := [[.reply 0], [.reply 0]] }

/-- **Keys come back from DynamoDB** exactly when all of them are on the first page of the scan. -/
theorem keys_come_back_iff (tee : Tee SK) (cr : Crypt PK PKH Sig) (A : Attributes Item PKH)
    (writes : List (Put × EncryptedKey PKH)) (hgenuine : ∀ w ∈ writes, Genuine tee cr w.2)
    (scan : Option String → Except Error (ScanOutput Item)) (page : List Item) (rest : List (List Item))
    (hscan : Scan scan none (page :: rest))
    (hitems : (page :: rest).flatten.Perm (Table.items A (final (write (awsStorage A.text)) ∅ writes)))
    (env : Remote SK) (s : State PK (Remote SK))
    (hload : exec (newWithClient cr (teeBackend tee) .nitro (liftM (awsGetKeys A scan))) ⟨[], env⟩ = (.ok (), s)) :
    (∀ pkh, Imported (awsStorage A.text) ∅ writes pkh → pkh ∈ s.hashes cr) ↔
      ∀ pkh, Imported (awsStorage A.text) ∅ writes pkh → ∃ v, A.MarshalMap ⟨A.text pkh, v⟩ ∈ page := by
  obtain ⟨ks, rfl, hks⟩ := keys_of_items (entries_of_writes rfl) fun x hx =>
    hitems.mem_iff.1 (List.mem_flatten_of_mem (List.mem_cons_self : page ∈ page :: rest) hx)
  have hget : awsGetKeys A scan = .ok ⟨ks, none⟩ := by
    -- `next` is not looked at: the rest of the scan is never asked for
    have hfirst : ∃ next, scan none = .ok ⟨ks.map A.item, next⟩ := by
      cases hscan with
      | last h => exact ⟨_, h⟩
      | more h _ => exact ⟨_, h⟩
    obtain ⟨next, hnext⟩ := hfirst
    simp [awsGetKeys, hnext, bind, Except.bind, pure, Except.pure]
  have hlisted : ∀ k ∈ ks, Genuine tee cr k := by
    intro k hk
    obtain ⟨w, hw, rfl⟩ := hks k hk
    exact hgenuine w hw
  exact forall₂_congr fun pkh _ => mem_hashes_iff hget hlisted hload

/-- Both keys are on one page. -/
theorem keys_come_back_one_page :
    let scan := fun _ => .ok ⟨[latin.item (wrappedKey 1), latin.item (wrappedKey 2)], none⟩
    let r := exec (newWithClient byteCrypt (teeBackend byteTee) .nitro (liftM (awsGetKeys latin scan))) ⟨[], twoAnswers⟩
    r.1 = .ok () ∧ ∀ pkh, Imported (awsStorage latin.text) ∅ twoWrites pkh → pkh ∈ r.2.hashes byteCrypt := by
  intro scan r
  have hget : awsGetKeys latin scan = .ok ⟨[wrappedKey 1, wrappedKey 2], none⟩ :=
    congrArg Except.ok (awsResult_items [wrappedKey 1, wrappedKey 2])
  have hok : r.1 = .ok () := by
    simp only [r, hget]
    rfl
  refine ⟨hok, ?_⟩
  refine (keys_come_back_iff byteTee byteCrypt latin twoWrites ?_ scan _ [] (.last rfl) (List.Perm.swap _ _ _)
    twoAnswers r.2 (Prod.ext hok rfl)).2 ?_
  · simp [twoWrites, genuine_wrappedKey]
  · intro pkh himported
    rcases imported_twoWrites.1 himported with rfl | rfl
    · exact ⟨some [1], List.mem_cons_self⟩
    · exact ⟨some [2], List.mem_cons_of_mem _ List.mem_cons_self⟩

/-- The second key is on the second page, and the new vault does not have it. -/
theorem keys_lost_on_second_page :
    let scan : Option String → Except Error (ScanOutput DbItem) := fun
      | none => .ok ⟨[latin.item (wrappedKey 1)], some (latin.text (wrappedKey 1).publicKeyHash)⟩
      | some _ => .ok ⟨[latin.item (wrappedKey 2)], none⟩
    let r := exec (newWithClient byteCrypt (teeBackend byteTee) .nitro (liftM (awsGetKeys latin scan))) ⟨[], twoAnswers⟩
    Scan scan none [[latin.item (wrappedKey 1)], [latin.item (wrappedKey 2)]] ∧
      [latin.item (wrappedKey 1), latin.item (wrappedKey 2)].Perm
        (Table.items latin (final (write (awsStorage latin.text)) ∅ twoWrites)) ∧
      r.1 = .ok () ∧ Imported (awsStorage latin.text) ∅ twoWrites (List.replicate 32 2) ∧
      r.2.hashes byteCrypt = [List.replicate 32 1] := by
  intro scan r
  have hget : awsGetKeys latin scan = .ok ⟨[wrappedKey 1], none⟩ :=
    congrArg Except.ok (awsResult_items [wrappedKey 1])
  refine ⟨.more rfl (.last rfl), List.Perm.swap _ _ _, ?_, imported_twoWrites.2 (Or.inr rfl), ?_⟩
  · simp only [r, hget]
    rfl
  · simp only [r, hget]
    rfl

end Restart

end Signatory.Vault

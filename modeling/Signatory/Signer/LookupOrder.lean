import Signatory.Signer.Mediation
import Signatory.Lib.Machine

/-!
# Key lookup and the order of the vaults

`range` over the map of vaults takes them in any order.  A lookup that is not answered by the cache lists the vaults,
and a vault that fails ends the listing; the keys of the vaults before it are in the cache by then, those of the vaults
after it are not.  What a lookup returns and leaves is computed here without the loops (`lookup_result`,
`lookup_cache`), and from that when it is the same for every order (`OrderFree`).
-/

namespace Signatory.Signer

open Lib.Command Lib.Machine

section

variable {PKH PK : Type} {g : Gotez PKH PK} {Key : Type} [KeyReference Key PK] {Enc : Type} [DecidableEq Enc]
  [ToComparable PKH Enc]

/-! ## What one vault yields -/

/-- The pairs a vault yields before its first error. -/
def yielded (g : Gotez PKH PK) (name : String) : List (Next Key) → List (KeyVaultPair g Key)
  | [] => []
  | .key key :: rest => ⟨g.hash (publicKey key), key, name, rfl⟩ :: yielded g name rest
  | .errKey :: rest => yielded g name rest
  | .error _ :: _ => []

/-- The vault fails while it is listed. -/
def fails : List (Next Key) → Bool
  | [] => false
  | .error _ :: _ => true
  | _ :: rest => fails rest

def yieldedBy (g : Gotez PKH PK) (v : String × List (Next Key)) : List (KeyVaultPair g Key) := yielded g v.1 v.2

/-- The pairs that a listing of the vaults, in this order, comes across. -/
def visited (g : Gotez PKH PK) : List (String × List (Next Key)) → List (KeyVaultPair g Key)
  | [] => []
  | v :: vaults => yieldedBy g v ++ if fails v.2 then [] else visited g vaults

/-- The last of the pairs with the hash. -/
def found (h : PKH) (ps : List (KeyVaultPair g Key)) : Option (KeyVaultPair g Key) :=
  ps.reverse.find? fun p => decide (toComparable p.pkh = toComparable h)

lemma found_append (h : PKH) (ps qs : List (KeyVaultPair g Key)) :
    found h (ps ++ qs) = (found h qs).or (found h ps) := by
  unfold found
  rw [List.reverse_append, List.find?_append]

lemma found_nil (h : PKH) : found h ([] : List (KeyVaultPair g Key)) = none := rfl

lemma found_singleton (h : PKH) (p : KeyVaultPair g Key) :
    found h [p] = if toComparable h = toComparable p.pkh then some p else none := by
  unfold found
  by_cases e : toComparable h = toComparable p.pkh
  · simp [e]
  · simp [e, Ne.symm e]

/-! ## Pairs that are stored one after the other -/

lemma get_Insert (m : PublicKeys g Key Enc) (p : KeyVaultPair g Key) (h : PKH) :
    (m.Insert p).Get h = (found h [p]).or (m.Get h) := by
  have hget : (m.Insert p).Get h = if toComparable h = toComparable p.pkh then some p else m.Get h :=
    Hashmap.get_insert m.pairs p.pkh h p
  rw [hget, found_singleton]
  split <;> rfl

lemma get_foldl_Insert (ps : List (KeyVaultPair g Key)) (m : PublicKeys g Key Enc) (h : PKH) :
    (ps.foldl PublicKeys.Insert m).Get h = (found h ps).or (m.Get h) := by
  induction ps using List.reverseRecOn with
  | nil => rfl
  | append_singleton ps p ih =>
    rw [List.foldl_append, List.foldl_cons, List.foldl_nil, get_Insert, ih, found_append, Option.or_assoc]

lemma get_push (k : KeyCache g Key Enc) (p : KeyVaultPair g Key) (h : PKH) :
    (k.push p).get h = (found h [p]).or (k.get h) := by
  have hold : (k.cache.getD .empty).Get h = k.get h := by
    unfold KeyCache.get
    cases k.cache with
    | none => rfl
    | some m => rfl
  rw [← hold]
  exact get_Insert _ p h

lemma get_foldl_push (ps : List (KeyVaultPair g Key)) (k : KeyCache g Key Enc) (h : PKH) :
    (ps.foldl KeyCache.push k).get h = (found h ps).or (k.get h) := by
  induction ps using List.reverseRecOn with
  | nil => rfl
  | append_singleton ps p ih =>
    rw [List.foldl_append, List.foldl_cons, List.foldl_nil, get_push, ih, found_append, Option.or_assoc]

/-! ## The loops of a listing -/

lemma listVault_spec (name : String) (iter : List (Next Key)) (ret : PublicKeys g Key Enc)
    (vaultKeys : List (KeyVaultPair g Key)) (k : KeyCache g Key Enc) :
    wp (listVault name iter ret vaultKeys)
      (fun r k' => fails iter = false ∧ r.1 = (yielded g name iter).foldl PublicKeys.Insert ret ∧
        k' = (yielded g name iter).foldl KeyCache.push k)
      (fun _ k' => fails iter = true ∧ k' = (yielded g name iter).foldl KeyCache.push k) k := by
  induction iter generalizing ret vaultKeys k with
  | nil => exact ⟨rfl, rfl, rfl⟩
  | cons next rest ih =>
    cases next with
    | key key =>
      simp only [listVault, wp_bind, wp_modify]
      exact ih _ _ _
    | errKey => exact ih ret vaultKeys k
    | error e => exact ⟨rfl, rfl⟩

/-- Some vault fails. -/
def anyFails (vaults : List (String × List (Next Key))) : Bool := vaults.any fun v => fails v.2

omit [KeyReference Key PK] in
lemma anyFails_eq_false {vaults : List (String × List (Next Key))} :
    anyFails vaults = false ↔ ∀ v ∈ vaults, fails v.2 = false := by
  simp [anyFails]

lemma listVaults_spec (vaults : List (String × List (Next Key))) (ret : PublicKeys g Key Enc)
    (list : List (KeyVaultPair g Key)) (k : KeyCache g Key Enc) :
    wp (listVaults vaults ret list)
      (fun r k' => anyFails vaults = false ∧ r.1 = (visited g vaults).foldl PublicKeys.Insert ret ∧
        k' = (visited g vaults).foldl KeyCache.push k)
      (fun _ k' => anyFails vaults = true ∧ k' = (visited g vaults).foldl KeyCache.push k) k := by
  induction vaults generalizing ret list k with
  | nil => exact ⟨rfl, rfl, rfl⟩
  | cons v vaults ih =>
    simp only [listVaults, wp_bind]
    refine wp_mono (listVault_spec v.1 v.2 ret [] k) ?_ ?_
    · rintro ⟨ret', vaultKeys⟩ k' ⟨hok, rfl, rfl⟩
      refine wp_mono (ih _ _ _) ?_ ?_
      · rintro r k'' ⟨hrest, hr, rfl⟩
        refine ⟨by rw [anyFails, List.any_cons, hok]; exact hrest, ?_, ?_⟩
        · rw [hr, visited, hok, yieldedBy]
          simp
        · rw [visited, hok, yieldedBy]
          simp
      · rintro e k'' ⟨hrest, rfl⟩
        refine ⟨by rw [anyFails, List.any_cons, hok]; exact hrest, ?_⟩
        rw [visited, hok, yieldedBy]
        simp
    · rintro e k' ⟨hfail, rfl⟩
      refine ⟨by simp [anyFails, hfail], ?_⟩
      rw [visited, hfail, yieldedBy]
      simp

/-! ## One lookup -/

/-- A call of `getPublicKey`, with what the vaults answer to a listing, in the order in which they are visited. -/
structure Lookup (PKH Key : Type) where
  keyHash : PKH
  vaults : List (String × List (Next Key))

/-- The lookup as a step on the cache. -/
def lookup (k : KeyCache g Key Enc) (l : Lookup PKH Key) : Except Error (KeyVaultPair g Key) × KeyCache g Key Enc :=
  exec (getPublicKey l.vaults l.keyHash) k

/-- What the caller gets: a pair, or an error. -/
def answer (k : KeyCache g Key Enc) (l : Lookup PKH Key) : Option (KeyVaultPair g Key) := (lookup k l).1.toOption

lemma lookup_cached {k : KeyCache g Key Enc} {l : Lookup PKH Key} {p : KeyVaultPair g Key}
    (h : k.get l.keyHash = some p) : answer k l = some p ∧ (lookup k l).2 = k := by
  have hspec : wp (getPublicKey l.vaults l.keyHash) (fun q k' => q = p ∧ k' = k) (fun _ _ => False) k := by
    simp only [getPublicKey, wp_bind, wp_get, h]
    exact ⟨rfl, rfl⟩
  unfold answer lookup
  obtain ⟨q, hq, rfl, hk⟩ | ⟨_, _, hfalse⟩ := wp_cases hspec
  · exact ⟨by rw [hq]; rfl, hk⟩
  · exact hfalse.elim

lemma lookup_listed {k : KeyCache g Key Enc} {l : Lookup PKH Key} (h : k.get l.keyHash = none) :
    (answer k l = if anyFails l.vaults then none else found l.keyHash (visited g l.vaults)) ∧
      (lookup k l).2 = (visited g l.vaults).foldl KeyCache.push k := by
  have hspec : wp (getPublicKey l.vaults l.keyHash)
      (fun q k' => (anyFails l.vaults = false ∧ found l.keyHash (visited g l.vaults) = some q) ∧
        k' = (visited g l.vaults).foldl KeyCache.push k)
      (fun _ k' => (anyFails l.vaults = false → found l.keyHash (visited g l.vaults) = none) ∧
        k' = (visited g l.vaults).foldl KeyCache.push k) k := by
    simp only [getPublicKey, wp_bind, wp_get, h]
    refine wp_mono (listVaults_spec l.vaults .empty [] k) ?_ ?_
    · rintro ⟨keys, list⟩ k' ⟨hok, hkeys, rfl⟩
      have hget : keys.Get l.keyHash = found l.keyHash (visited g l.vaults) := by
        have hkeys' : keys = (visited g l.vaults).foldl PublicKeys.Insert .empty := hkeys
        rw [hkeys', get_foldl_Insert]
        exact Option.or_none
      simp only [hget]
      cases hfound : found l.keyHash (visited g l.vaults) with
      | some p => exact ⟨⟨hok, rfl⟩, rfl⟩
      | none => exact ⟨fun _ => rfl, rfl⟩
    · rintro e k' ⟨hfail, rfl⟩
      refine ⟨fun hok => ?_, rfl⟩
      rw [hfail] at hok
      cases hok
  unfold answer lookup
  obtain ⟨q, hq, ⟨hok, hfound⟩, hk⟩ | ⟨e, he, hnone, hk⟩ := wp_cases hspec
  · refine ⟨?_, hk⟩
    rw [hq, hok, hfound]
    rfl
  · refine ⟨?_, hk⟩
    rw [he]
    cases hfail : anyFails l.vaults with
    | true => rfl
    | false => exact (hnone hfail).symm

/-- **What a lookup returns.** -/
lemma lookup_result (k : KeyCache g Key Enc) (l : Lookup PKH Key) :
    answer k l = (k.get l.keyHash).or (if anyFails l.vaults then none else found l.keyHash (visited g l.vaults)) := by
  cases h : k.get l.keyHash with
  | some p => exact (lookup_cached h).1
  | none => rw [(lookup_listed h).1, Option.none_or]

/-- **What a lookup leaves in the cache.** -/
lemma lookup_cache (k : KeyCache g Key Enc) (l : Lookup PKH Key) (h : PKH) :
    (lookup k l).2.get h =
      if (k.get l.keyHash).isSome then k.get h else (found h (visited g l.vaults)).or (k.get h) := by
  cases hk : k.get l.keyHash with
  | some p => rw [(lookup_cached hk).2]; rfl
  | none => rw [(lookup_listed hk).2, get_foldl_push]; rfl

/-! ## Vaults with disjoint keys -/

/-- The two vaults yield no key with the same hash. -/
def Apart (g : Gotez PKH PK) (Enc : Type) [ToComparable PKH Enc] (v w : String × List (Next Key)) : Prop :=
  ∀ p ∈ yieldedBy g v, ∀ q ∈ yieldedBy g w, (toComparable p.pkh : Enc) ≠ toComparable q.pkh

omit [DecidableEq Enc] in
lemma Apart.symm {v w : String × List (Next Key)} (h : Apart g Enc v w) : Apart g Enc w v :=
  fun q hq p hp e => h p hp q hq e.symm

/-- No key is in two vaults. -/
def DisjointKeys (g : Gotez PKH PK) (Enc : Type) [ToComparable PKH Enc] (vaults : List (String × List (Next Key))) :
    Prop := vaults.Pairwise (Apart g Enc)

omit [DecidableEq Enc] in
lemma DisjointKeys.perm {vaults vaults' : List (String × List (Next Key))} (hd : DisjointKeys g Enc vaults)
    (h : vaults.Perm vaults') : DisjointKeys g Enc vaults' := (h.pairwise_iff fun h => Apart.symm h).1 hd

lemma mem_of_found {h : PKH} {ps : List (KeyVaultPair g Key)} {p : KeyVaultPair g Key} (hp : found h ps = some p) :
    p ∈ ps ∧ (toComparable p.pkh : Enc) = toComparable h := by
  unfold found at hp
  have hhash := List.find?_some hp
  exact ⟨List.mem_reverse.1 (List.mem_of_find?_eq_some hp), of_decide_eq_true hhash⟩

lemma Apart.found_none {v w : String × List (Next Key)} (hvw : Apart g Enc v w) {h : PKH} {p : KeyVaultPair g Key}
    (hp : found h (yieldedBy g v) = some p) : found h (yieldedBy g w) = none := by
  cases hq : found h (yieldedBy g w) with
  | none => rfl
  | some q =>
    obtain ⟨hpmem, hph⟩ := mem_of_found hp
    obtain ⟨hqmem, hqh⟩ := mem_of_found hq
    exact absurd (hph.trans hqh.symm) (hvw p hpmem q hqmem)

lemma found_visited {vaults : List (String × List (Next Key))} {h : PKH} {p : KeyVaultPair g Key}
    (hp : found h (visited g vaults) = some p) : ∃ v ∈ vaults, found h (yieldedBy g v) = some p := by
  induction vaults with
  | nil => cases hp
  | cons v vaults ih =>
    rw [visited, found_append, Option.or_eq_some_iff] at hp
    obtain hp | ⟨-, hp⟩ := hp
    · split at hp
      · cases hp
      · obtain ⟨w, hw, hpw⟩ := ih hp
        exact ⟨w, List.mem_cons_of_mem _ hw, hpw⟩
    · exact ⟨v, List.mem_cons_self, hp⟩

lemma found_visited_iff {vaults : List (String × List (Next Key))} (hd : DisjointKeys g Enc vaults)
    (hok : ∀ v ∈ vaults, fails v.2 = false) {h : PKH} {p : KeyVaultPair g Key} :
    found h (visited g vaults) = some p ↔ ∃ v ∈ vaults, found h (yieldedBy g v) = some p := by
  refine ⟨found_visited, ?_⟩
  induction vaults with
  | nil => rintro ⟨v, hv, -⟩; cases hv
  | cons v vaults ih =>
    obtain ⟨hv, hrest⟩ := List.pairwise_cons.1 hd
    have hih := ih hrest fun w hw => hok w (List.mem_cons_of_mem _ hw)
    rintro ⟨w, hw, hp⟩
    rw [visited, hok v List.mem_cons_self, found_append, Option.or_eq_some_iff]
    obtain rfl | hw := List.mem_cons.1 hw
    · refine Or.inr ⟨?_, hp⟩
      -- what a later vault yields under this hash would be in two vaults
      cases hq : found h (visited g vaults) with
      | none => exact hq
      | some q =>
        obtain ⟨u, hu, hqu⟩ := found_visited hq
        rw [(hv u hu).found_none hp] at hqu
        cases hqu
    · exact Or.inl (hih ⟨w, hw, hp⟩)

/-- **Without failures the order of the vaults does not matter.** -/
lemma found_visited_perm {vaults vaults' : List (String × List (Next Key))} (hd : DisjointKeys g Enc vaults)
    (hok : ∀ v ∈ vaults, fails v.2 = false) (hperm : vaults.Perm vaults') (h : PKH) :
    found h (visited g vaults) = found h (visited g vaults') := by
  refine Option.ext fun p => ?_
  rw [found_visited_iff hd hok, found_visited_iff (hd.perm hperm) fun v hv => hok v (hperm.mem_iff.2 hv)]
  simp only [hperm.mem_iff]

/-! ## When the order does not matter -/

/-- The cache has the pairs already. -/
def Held (k : KeyCache g Key Enc) (ps : List (KeyVaultPair g Key)) : Prop :=
  ∀ h p, found h ps = some p → k.get h = some p

lemma Held.or {k : KeyCache g Key Enc} {ps : List (KeyVaultPair g Key)} (hk : Held k ps) (h : PKH) :
    (found h ps).or (k.get h) = k.get h := by
  cases hp : found h ps with
  | none => rfl
  | some p => rw [hk h p hp]; rfl

lemma held_visited {k : KeyCache g Key Enc} {vaults : List (String × List (Next Key))}
    (hk : ∀ v ∈ vaults, Held k (yieldedBy g v)) : Held k (visited g vaults) := by
  intro h p hp
  obtain ⟨v, hv, hpv⟩ := found_visited hp
  exact hk v hv h p hpv

/-- The lookup is answered from the cache; or no vault fails; or the cache has the keys of all vaults; or only one vault
may fail and the cache has the keys of all others. -/
def OrderFree (k : KeyCache g Key Enc) (l : Lookup PKH Key) : Prop :=
  (k.get l.keyHash).isSome = true ∨ anyFails l.vaults = false ∨ (∀ v ∈ l.vaults, Held k (yieldedBy g v)) ∨
    ∃ pre v post, l.vaults = pre ++ v :: post ∧ ∀ w ∈ pre ++ post, fails w.2 = false ∧ Held k (yieldedBy g w)

/-- Where every vault but `v` is listed without failure and is known to the cache, a listing adds what `v` yields. -/
lemma visited_around {k : KeyCache g Key Enc} {pre post : List (String × List (Next Key))}
    {v : String × List (Next Key)} (hd : DisjointKeys g Enc (pre ++ v :: post))
    (hothers : ∀ w ∈ pre ++ post, fails w.2 = false ∧ Held k (yieldedBy g w)) (h : PKH) :
    (found h (visited g (pre ++ v :: post))).or (k.get h) = (found h (yieldedBy g v)).or (k.get h) := by
  induction pre with
  | nil =>
    have hafter : Held k (if fails v.2 then [] else visited g post) := by
      split
      · exact fun _ _ hp => by cases hp
      · exact held_visited fun w hw => (hothers w hw).2
    rw [List.nil_append, visited, found_append]
    cases hp : found h (yieldedBy g v) with
    | none => rw [Option.or_none, hafter.or, Option.none_or]
    | some p =>
      have hnone : found h (if fails v.2 then [] else visited g post) = none := by
        cases hq : found h (if fails v.2 then [] else visited g post) with
        | none => rfl
        | some q =>
          split at hq
          · cases hq
          · obtain ⟨w, hw, hqw⟩ := found_visited hq
            rw [((List.pairwise_cons.1 hd).1 w hw).found_none hp] at hqw
            cases hqw
      rw [hnone, Option.none_or]
  | cons u pre ih =>
    obtain ⟨hok, hheld⟩ := hothers u List.mem_cons_self
    have hih := ih (List.pairwise_cons.1 hd).2 fun w hw => hothers w (List.mem_cons_of_mem _ hw)
    rw [List.cons_append, visited, hok, found_append, Option.or_assoc, hheld.or]
    exact hih

/-- The two lookups ask for the same key, and the second visits the vaults in another order. -/
def Reorders (l l' : Lookup PKH Key) : Prop := l'.keyHash = l.keyHash ∧ l.vaults.Perm l'.vaults

/-- The two caches have the same keys. -/
def SameCache (k k' : KeyCache g Key Enc) : Prop := ∀ h, k.get h = k'.get h

omit [KeyReference Key PK] in
lemma anyFails_perm {vaults vaults' : List (String × List (Next Key))} (h : vaults.Perm vaults') :
    anyFails vaults = anyFails vaults' := h.any_eq

lemma OrderFree.added {k : KeyCache g Key Enc} {l l' : Lookup PKH Key} (hfree : OrderFree k l)
    (hd : DisjointKeys g Enc l.vaults) (hl : Reorders l l') (hmiss : k.get l.keyHash = none) (h : PKH) :
    (found h (visited g l.vaults)).or (k.get h) = (found h (visited g l'.vaults)).or (k.get h) := by
  obtain ⟨-, hperm⟩ := hl
  obtain hhit | hok | hheld | ⟨pre, v, post, hsplit, hothers⟩ := hfree
  · rw [hmiss] at hhit
    cases hhit
  · rw [found_visited_perm hd (anyFails_eq_false.1 hok) hperm]
  · rw [(held_visited hheld).or, (held_visited fun v hv => hheld v (hperm.mem_iff.2 hv)).or]
  · have hmem : v ∈ l'.vaults := hperm.mem_iff.1 (by rw [hsplit]; simp)
    obtain ⟨pre', post', hsplit'⟩ := List.append_of_mem hmem
    rw [hsplit] at hd
    rw [hsplit, hsplit'] at hperm ⊢
    -- the other vaults are the same ones on both sides
    have hrest : (pre ++ post).Perm (pre' ++ post') :=
      ((List.perm_middle.symm.trans hperm).trans List.perm_middle).cons_inv
    rw [visited_around hd hothers,
      visited_around (hd.perm hperm) fun w hw => hothers w (hrest.mem_iff.2 hw)]

/-- **One lookup.**  In caches with the same keys, a lookup that is free of the order returns the same and leaves caches
with the same keys. -/
lemma OrderFree.step {k k' : KeyCache g Key Enc} {l l' : Lookup PKH Key} (hfree : OrderFree k l)
    (hd : DisjointKeys g Enc l.vaults) (hl : Reorders l l') (hk : SameCache k k') :
    answer k l = answer k' l' ∧ SameCache (lookup k l).2 (lookup k' l').2 := by
  have hhash := hl.1
  refine ⟨?_, fun h => ?_⟩
  · rw [lookup_result, lookup_result, hhash, ← hk l.keyHash, ← anyFails_perm hl.2]
    cases hmiss : k.get l.keyHash with
    | some p => rfl
    | none =>
      cases hfails : anyFails l.vaults with
      | true => rfl
      | false => simpa using found_visited_perm hd (anyFails_eq_false.1 hfails) hl.2 l.keyHash
  · rw [lookup_cache, lookup_cache, hhash, ← hk l.keyHash, ← hk h]
    cases hmiss : k.get l.keyHash with
    | some p => rfl
    | none => simpa using hfree.added hd hl hmiss h

/-- If `f` fails and the order of `f` and `w` makes no difference, the cache has the keys of `w`. -/
lemma held_of_same {k : KeyCache g Key Enc} {l : Lookup PKH Key} {f w : String × List (Next Key)}
    {rest : List (String × List (Next Key))} (hd : DisjointKeys g Enc l.vaults) (hmiss : k.get l.keyHash = none)
    (hperm : l.vaults.Perm (f :: w :: rest)) (hf : fails f.2 = true)
    (hsame : ∀ l₁ l₂, Reorders l l₁ → Reorders l l₂ → SameCache (lookup k l₁).2 (lookup k l₂).2) :
    Held k (yieldedBy g w) := by
  intro h p hp
  have hapart : Apart g Enc f w := (List.pairwise_cons.1 (hd.perm hperm)).1 w List.mem_cons_self
  have hnone := hapart.symm.found_none hp
  have hcaches := hsame ⟨l.keyHash, f :: w :: rest⟩ ⟨l.keyHash, w :: f :: rest⟩ ⟨rfl, hperm⟩
    ⟨rfl, hperm.trans (List.Perm.swap w f rest)⟩ h
  rw [lookup_cache, lookup_cache] at hcaches
  simp only [hmiss, visited, hf, found_append, hnone, hp] at hcaches
  cases hw : fails w.2 with
  | true => simpa [hw, found_nil] using hcaches
  | false => simpa [hw, hf, hnone, found_append, found_nil] using hcaches

lemma orderFree_of_same {k : KeyCache g Key Enc} {l : Lookup PKH Key} (hd : DisjointKeys g Enc l.vaults)
    (hsame : ∀ l₁ l₂, Reorders l l₁ → Reorders l l₂ → SameCache (lookup k l₁).2 (lookup k l₂).2) : OrderFree k l := by
  by_cases hmiss : k.get l.keyHash = none
  swap
  · exact Or.inl (Option.isSome_iff_ne_none.2 hmiss)
  by_cases hok : anyFails l.vaults = false
  · exact Or.inr (Or.inl hok)
  obtain ⟨f, hfmem, hf⟩ : ∃ f ∈ l.vaults, fails f.2 = true := by
    simpa [anyFails] using hok
  obtain ⟨pre, post, hsplit⟩ := List.append_of_mem hfmem
  -- any other vault can be brought next to `f`
  have hnext : ∀ w ∈ pre ++ post, ∃ rest, l.vaults.Perm (f :: w :: rest) := by
    intro w hw
    obtain ⟨a, b, hab⟩ := List.append_of_mem hw
    refine ⟨a ++ b, ?_⟩
    rw [hsplit]
    refine List.perm_middle.trans (List.Perm.cons f ?_)
    rw [hab]
    exact List.perm_middle
  have hheld : ∀ w ∈ pre ++ post, Held k (yieldedBy g w) := by
    intro w hw
    obtain ⟨rest, hperm⟩ := hnext w hw
    exact held_of_same hd hmiss hperm hf hsame
  by_cases hmore : ∃ w ∈ pre ++ post, fails w.2 = true
  · -- with a second failing vault the keys of `f` are in the cache as well
    obtain ⟨w, hw, hwf⟩ := hmore
    obtain ⟨rest, hperm⟩ := hnext w hw
    have hfheld := held_of_same hd hmiss (hperm.trans (List.Perm.swap w f rest)) hwf hsame
    refine Or.inr (Or.inr (Or.inl fun v hv => ?_))
    rw [hsplit] at hv
    obtain rfl | hv := List.mem_cons.1 (List.perm_middle.mem_iff.1 hv)
    · exact hfheld
    · exact hheld v hv
  · refine Or.inr (Or.inr (Or.inr ⟨pre, f, post, hsplit, fun w hw => ⟨?_, hheld w hw⟩⟩))
    exact Bool.eq_false_iff.2 fun hwf => hmore ⟨w, hw, hwf⟩

/-! ## Runs -/

/-- What the callers of a run of lookups get. -/
def answers (k : KeyCache g Key Enc) (ls : List (Lookup PKH Key)) : List (Option (KeyVaultPair g Key)) :=
  (events lookup k ls).map fun e => e.2.toOption

lemma answers_cons (k : KeyCache g Key Enc) (l : Lookup PKH Key) (ls : List (Lookup PKH Key)) :
    answers k (l :: ls) = answer k l :: answers (lookup k l).2 ls := rfl

omit [KeyReference Key PK] in
lemma forall₂_reorders_refl (ls : List (Lookup PKH Key)) : List.Forall₂ Reorders ls ls :=
  List.forall₂_same.2 fun _ _ => ⟨rfl, List.Perm.refl _⟩

/-- In a run whose lookups are all free of the order, another order gives the same answers and the same keys in the
cache, at every point. -/
lemma agree_of_orderFree {k k' : KeyCache g Key Enc} {ls ls' : List (Lookup PKH Key)}
    (hd : ∀ l ∈ ls, DisjointKeys g Enc l.vaults) (hfree : Along lookup OrderFree k ls) (hk : SameCache k k')
    (hls : List.Forall₂ Reorders ls ls') :
    answers k ls = answers k' ls' ∧
      ∀ n, SameCache (final lookup k (ls.take n)) (final lookup k' (ls'.take n)) := by
  induction hls generalizing k k' with
  | nil => exact ⟨rfl, fun n => by simpa using hk⟩
  | cons hl hls ih =>
    rename_i l l' ls ls'
    obtain ⟨hhead, htail⟩ := hfree
    obtain ⟨hanswer, hcache⟩ := hhead.step (hd l List.mem_cons_self) hl hk
    obtain ⟨hrest, hcaches⟩ := ih (fun m hm => hd m (List.mem_cons_of_mem _ hm)) htail hcache
    refine ⟨by rw [answers_cons, answers_cons, hanswer, hrest], fun n => ?_⟩
    cases n with
    | zero => simpa using hk
    | succ n => exact hcaches n

/-- **Key lookup and the order of the vaults.**  For vaults with disjoint keys, any of which may fail while it is
listed: every two choices of the order in which each lookup visits the vaults give the same answers, and caches with the
same keys after each lookup, exactly when every lookup of the run is free of the order in the state before it. -/
theorem lookups_agree_iff (k : KeyCache g Key Enc) (ls : List (Lookup PKH Key))
    (hd : ∀ l ∈ ls, DisjointKeys g Enc l.vaults) :
    Along lookup OrderFree k ls ↔
      ∀ ls₁ ls₂, List.Forall₂ Reorders ls ls₁ → List.Forall₂ Reorders ls ls₂ →
        answers k ls₁ = answers k ls₂ ∧
          ∀ n, SameCache (final lookup k (ls₁.take n)) (final lookup k (ls₂.take n)) := by
  constructor
  · intro hfree ls₁ ls₂ h₁ h₂
    obtain ⟨ha₁, hc₁⟩ := agree_of_orderFree hd hfree (fun _ => rfl) h₁
    obtain ⟨ha₂, hc₂⟩ := agree_of_orderFree hd hfree (fun _ => rfl) h₂
    exact ⟨ha₁.symm.trans ha₂, fun n h => (hc₁ n h).symm.trans (hc₂ n h)⟩
  · induction ls generalizing k with
    | nil => exact fun _ => trivial
    | cons l ls ih =>
      intro hagree
      refine ⟨orderFree_of_same (hd l List.mem_cons_self) fun l₁ l₂ h₁ h₂ => ?_, ?_⟩
      · have hls := forall₂_reorders_refl ls
        exact (hagree (l₁ :: ls) (l₂ :: ls) (.cons h₁ hls) (.cons h₂ hls)).2 1
      · refine ih _ (fun m hm => hd m (List.mem_cons_of_mem _ hm)) fun ls₁ ls₂ h₁ h₂ => ?_
        have hl : Reorders l l := ⟨rfl, List.Perm.refl _⟩
        obtain ⟨hanswers, hcaches⟩ := hagree (l :: ls₁) (l :: ls₂) (.cons hl h₁) (.cons hl h₂)
        rw [answers_cons, answers_cons] at hanswers
        exact ⟨(List.cons.inj hanswers).2, fun n => hcaches (n + 1)⟩

end

/-! ### A vault with a key beside one that fails -/

def goodVault : String × List (Next SampleKey) := ("good", [.key ⟨0⟩])

def failingVault : String × List (Next SampleKey) := ("failing", [.error { text := "unavailable" }])

def emptyCache : KeyCache sampleGotez SampleKey EncodedPublicKeyHash := ⟨none⟩

/-- A lookup of the key while both vaults answer, with the other vault first or last, and one that the cache answers
although a vault fails by then. -/
theorem lookups_agree_after_listing :
    answers emptyCache [⟨0, [goodVault, ("other", [])]⟩, ⟨0, [goodVault, failingVault]⟩] =
      answers emptyCache [⟨0, [("other", []), goodVault]⟩, ⟨0, [failingVault, goodVault]⟩] := by
  have hd : ∀ l ∈ [(⟨0, [goodVault, ("other", [])]⟩ : Lookup EncodedPublicKeyHash SampleKey),
      ⟨0, [goodVault, failingVault]⟩], DisjointKeys sampleGotez EncodedPublicKeyHash l.vaults := by
    intro l hl
    simp only [List.mem_cons, List.not_mem_nil, or_false] at hl
    obtain rfl | rfl := hl <;> simp [DisjointKeys, Apart, goodVault, failingVault, yieldedBy, yielded]
  refine ((lookups_agree_iff emptyCache _ hd).1 ?_ _ _ (forall₂_reorders_refl _) ?_).1
  · exact ⟨Or.inr (Or.inl rfl), Or.inl rfl, trivial⟩
  · exact .cons ⟨rfl, List.Perm.swap _ _ _⟩ (.cons ⟨rfl, List.Perm.swap _ _ _⟩ .nil)

/-- The key is looked up twice while one vault fails.  Both lookups fail if the failing vault is visited first, but the
second one succeeds if it is visited last: the key has reached the cache before the listing was given up. -/
theorem lookups_depend_on_order :
    DisjointKeys sampleGotez EncodedPublicKeyHash [goodVault, failingVault] ∧
    answers emptyCache [⟨0, [failingVault, goodVault]⟩, ⟨0, [failingVault, goodVault]⟩] = [none, none] ∧
    answers emptyCache [⟨0, [goodVault, failingVault]⟩, ⟨0, [goodVault, failingVault]⟩] =
      [none, some ⟨0, ⟨0⟩, "good", rfl⟩] := by
  refine ⟨?_, rfl, rfl⟩
  simp [DisjointKeys, Apart, goodVault, failingVault, yieldedBy, yielded]

end Signatory.Signer

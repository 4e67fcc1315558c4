import Signatory.Lib.Machine
import Signatory.Request

/-!
# `watermark/mem.go`: the store in memory

The store is a map from chains to delegates to request kinds to watermarks; inner maps are made when a
request first needs them.  Every other fact about it goes through `lookup`, the watermark stored for a
triple of a chain, a public key hash (in comparable form) and a kind:

* `step_of_none` — a request without watermark is let through and changes nothing;
* `step_answer`, `step_lookup` — any other request is answered by `Validate` against the watermark of
  its own triple, and replaces that watermark, and no other, when it passes;
* `events_of_triples` — triples do not see each other (`triples_do_not_interfere`).

The mutex makes every call of `IsSafeToSign` one step, so a run is a list of calls.
-/

namespace Signatory.Watermark

open Request Hashmap Lib.Machine

/-- The errors of the watermark backends: `ErrWatermark` ("watermark validation failed"), and what the
storage behind a backend reports. -/
inductive Err where
  | ErrWatermark
  | storage
  deriving DecidableEq, Repr

/-- `requestMap`: request type to watermark. -/
abbrev RequestMap := GoMap String Watermark

/-- `delegateMap`: delegate (pkh) to request type to watermark. -/
abbrev DelegateMap (Enc : Type) := HashMap Enc RequestMap

/-- `map[tz.ChainID]delegateMap`. -/
abbrev ChainMap (Enc : Type) := GoMap ChainID (DelegateMap Enc)

/-- `InMemory`; `none` is the nil map of a fresh value. -/
structure InMemory (Enc : Type) where
  chains : Option (ChainMap Enc) := none

section Model

variable {PKH Enc : Type} [DecidableEq Enc] [ToComparable PKH Enc]

/-- The requests of a chain and a key; the maps on the way are made when they are missing. -/
def InMemory.requests (w : InMemory Enc) (chain : ChainID) (pkh : PKH) : RequestMap :=
  let chains := w.chains.getD ∅
  let delegates := (chains.lookup chain).getD ∅
  (delegates.Get pkh).getD ∅

/-- The store whose maps hold `requests` for a chain and a key. -/
def InMemory.store (w : InMemory Enc) (chain : ChainID) (pkh : PKH) (requests : RequestMap) :
    InMemory Enc :=
  let chains := w.chains.getD ∅
  let delegates := (chains.lookup chain).getD ∅
  ⟨some (chains.insert chain (delegates.Insert pkh requests).2)⟩

def InMemory.isSafeToSignUnlocked (w : InMemory Enc) (pkh : PKH) (req : SignRequest) (digest : Digest) :
    Except Err Unit × InMemory Enc :=
  match req.asWithWatermark with
  | none => (.ok (), w) -- watermark is not required
  | some m =>
    let requests := w.requests m.chainID pkh
    let watermark := NewWatermark m digest
    match requests.lookup req.SignRequestKind with
    | some stored =>
      if watermark.Validate stored then
        (.ok (), w.store m.chainID pkh (requests.insert m.kind watermark))
      else
        -- the inner maps are references: those made above stay even though the request is refused
        (.error .ErrWatermark, w.store m.chainID pkh requests)
    | none => (.ok (), w.store m.chainID pkh (requests.insert m.kind watermark))

/-- The arguments of a call of `IsSafeToSign`. -/
structure Call (PKH : Type) where
  pkh : PKH
  req : SignRequest
  digest : Digest

/-- `InMemory.IsSafeToSign`: one call, with the mutex held. -/
def InMemory.IsSafeToSign (w : InMemory Enc) (c : Call PKH) : Except Err Unit × InMemory Enc :=
  w.isSafeToSignUnlocked c.pkh c.req c.digest

end Model

/-! ## The watermark of a triple -/

/-- What a watermark is stored under. -/
structure Triple (Enc : Type) where
  chain : ChainID
  pkh : Enc
  kind : String
  deriving DecidableEq, Repr

section Lookup

variable {PKH Enc : Type} [DecidableEq Enc] [ToComparable PKH Enc]

/-- The watermark that a delegate map holds for a public key hash and a kind. -/
def DelegateMap.find (ds : DelegateMap Enc) (pkh : Enc) (kind : String) : Option Watermark :=
  (ds.lookup pkh).bind fun requests => requests.lookup kind

/-- The watermark that a map of chains holds for a triple. -/
def ChainMap.find (chains : ChainMap Enc) (k : Triple Enc) : Option Watermark :=
  (chains.lookup k.chain).bind fun ds => DelegateMap.find ds k.pkh k.kind

/-- The watermark stored for a triple. -/
def InMemory.lookup (w : InMemory Enc) (k : Triple Enc) : Option Watermark :=
  w.chains.bind fun chains => ChainMap.find chains k

lemma find_set (chains : ChainMap Enc) (c : ChainID) (pkh : Enc) (requests : RequestMap) (k : Triple Enc) :
    ChainMap.find (chains.insert c (AList.insert pkh requests ((chains.lookup c).getD ∅))) k =
      if k.chain = c ∧ k.pkh = pkh then requests.lookup k.kind else ChainMap.find chains k := by
  unfold ChainMap.find
  rw [GoMap.lookup_set]
  by_cases hc : k.chain = c
  · rw [if_pos hc, hc]
    simp only [Option.bind_some, DelegateMap.find, GoMap.lookup_set]
    by_cases hp : k.pkh = pkh
    · simp [hp]
    · simp only [hp, and_false, if_false]
      cases chains.lookup c <;> rfl
  · simp [hc]

/-- The triple of a watermarked request for a key. -/
def tripleOf (pkh : PKH) (m : WithWatermark) : Triple Enc := ⟨m.chainID, toComparable pkh, m.kind⟩

/-- The triple of a call; a request without watermark has none. -/
def Call.triple (c : Call PKH) : Option (Triple Enc) := c.req.asWithWatermark.map (tripleOf c.pkh)

/-- The watermark that a call would store. -/
def Call.watermark (c : Call PKH) : Option Watermark :=
  c.req.asWithWatermark.map fun m => NewWatermark m c.digest

/-- The new watermark `new` passes against what is stored for the triple. -/
def InMemory.admits (w : InMemory Enc) (k : Triple Enc) (new : Watermark) : Bool :=
  match w.lookup k with
  | some stored => new.Validate stored
  | none => true

lemma admits_iff {w : InMemory Enc} {k : Triple Enc} {new : Watermark} :
    w.admits k new = true ↔ ∀ stored, w.lookup k = some stored → new.Validate stored = true := by
  unfold InMemory.admits
  cases w.lookup k <;> simp

/-! ## What one call does -/

theorem step_of_none {w : InMemory Enc} {c : Call PKH} (h : c.req.asWithWatermark = none) :
    w.IsSafeToSign c = (.ok (), w) := by
  simp [InMemory.IsSafeToSign, InMemory.isSafeToSignUnlocked, h]

lemma lookup_requests (w : InMemory Enc) (chain : ChainID) (pkh : PKH) (kind : String) :
    (w.requests chain pkh).lookup kind = w.lookup ⟨chain, toComparable pkh, kind⟩ := by
  unfold InMemory.requests InMemory.lookup HashMap.Get
  cases w.chains with
  | none => rfl
  | some chains =>
    simp only [Option.getD_some, Option.bind_some, ChainMap.find]
    cases chains.lookup chain with
    | none => rfl
    | some ds =>
      simp only [Option.getD_some, Option.bind_some, DelegateMap.find]
      cases ds.lookup (toComparable pkh) <;> rfl

lemma lookup_store (w : InMemory Enc) (chain : ChainID) (pkh : PKH) (requests : RequestMap)
    (k : Triple Enc) :
    (w.store chain pkh requests).lookup k =
      if k.chain = chain ∧ k.pkh = toComparable pkh then requests.lookup k.kind else w.lookup k := by
  have h := find_set (w.chains.getD ∅) chain (toComparable pkh) requests k
  unfold InMemory.store InMemory.lookup HashMap.Insert
  simp only [Option.bind_some]
  rw [h]
  cases w.chains <;> rfl

lemma lookup_store_requests (w : InMemory Enc) (chain : ChainID) (pkh : PKH) (k : Triple Enc) :
    (w.store chain pkh (w.requests chain pkh)).lookup k = w.lookup k := by
  rw [lookup_store, lookup_requests]
  split
  · rename_i h
    rw [← h.1, ← h.2]
  · rfl

lemma lookup_store_insert (w : InMemory Enc) (pkh : PKH) (m : WithWatermark) (new : Watermark)
    (k : Triple Enc) :
    (w.store m.chainID pkh ((w.requests m.chainID pkh).insert m.kind new)).lookup k =
      if k = tripleOf pkh m then some new else w.lookup k := by
  have hk : k = tripleOf pkh m ↔
      (k.chain = m.chainID ∧ k.pkh = toComparable pkh) ∧ k.kind = m.kind := by
    cases k; simp [tripleOf, and_assoc]
  rw [lookup_store, GoMap.lookup_set, lookup_requests]
  by_cases hcp : k.chain = m.chainID ∧ k.pkh = toComparable pkh
  · have hsame : w.lookup ⟨m.chainID, toComparable pkh, k.kind⟩ = w.lookup k := by
      rw [← hcp.1, ← hcp.2]
    rw [if_pos hcp, hsame]
    simp only [hk, hcp, and_self, true_and]
  · rw [if_neg hcp, if_neg (fun h => hcp (hk.1 h).1)]

section Step

variable {w : InMemory Enc} {c : Call PKH} {m : WithWatermark}

/-- **The verdict**: a watermarked request is accepted exactly when its watermark passes against the
one stored for its triple. -/
theorem step_answer (h : c.req.asWithWatermark = some m) :
    (w.IsSafeToSign c).1 =
      if w.admits (tripleOf c.pkh m) (NewWatermark m c.digest) then .ok () else .error .ErrWatermark := by
  unfold InMemory.IsSafeToSign InMemory.isSafeToSignUnlocked InMemory.admits tripleOf
  simp only [h, SignRequest.kind_of_asWithWatermark h, lookup_requests]
  cases w.lookup ⟨m.chainID, toComparable c.pkh, m.kind⟩ with
  | none => rfl
  | some stored => by_cases hv : (NewWatermark m c.digest).Validate stored = true <;> simp [hv]

/-- **The new store**: the watermark of the call's triple is replaced when the call is accepted; the
watermark of every other triple, and of every triple on a refusal, stays. -/
theorem step_lookup (h : c.req.asWithWatermark = some m) (k : Triple Enc) :
    (w.IsSafeToSign c).2.lookup k =
      if w.admits (tripleOf c.pkh m) (NewWatermark m c.digest) = true ∧ k = tripleOf c.pkh m
      then some (NewWatermark m c.digest) else w.lookup k := by
  have hnew := lookup_store_insert w c.pkh m (NewWatermark m c.digest) k
  have hold := lookup_store_requests w m.chainID c.pkh k
  unfold InMemory.IsSafeToSign InMemory.isSafeToSignUnlocked InMemory.admits
  simp only [h, SignRequest.kind_of_asWithWatermark h, lookup_requests]
  have hl : w.lookup (tripleOf c.pkh m) = w.lookup ⟨m.chainID, toComparable c.pkh, m.kind⟩ := rfl
  cases hs : w.lookup ⟨m.chainID, toComparable c.pkh, m.kind⟩ with
  | none => simpa [hl, hs] using hnew
  | some stored =>
    by_cases hv : (NewWatermark m c.digest).Validate stored = true
    · simpa [hl, hs, hv] using hnew
    · simpa [hl, hs, hv] using hold

end Step

/-! ## Triples do not see each other -/

/-- **Isolation of triples.**  The requests whose triple is in `P` get the answers, and leave the
watermarks, that they get and leave in a run given to these requests only. -/
theorem events_of_triples (P : Triple Enc → Bool) {w v : InMemory Enc}
    (hwv : ∀ k, P k = true → w.lookup k = v.lookup k) (calls : List (Call PKH)) :
    (events InMemory.IsSafeToSign w calls).filter (fun e => e.1.triple.any P) =
        events InMemory.IsSafeToSign v (calls.filter fun c => c.triple.any P) ∧
      ∀ k, P k = true → (final InMemory.IsSafeToSign w calls).lookup k =
        (final InMemory.IsSafeToSign v (calls.filter fun c => c.triple.any P)).lookup k := by
  refine events_filter (R := fun w v : InMemory Enc => ∀ k, P k = true → w.lookup k = v.lookup k)
    (p := fun c : Call PKH => c.triple.any P) ?_ ?_ hwv calls
  · intro w v c hR hp k hk
    cases h : c.req.asWithWatermark with
    | none => rw [step_of_none h]; exact hR k hk
    | some m =>
      have hne : k ≠ tripleOf c.pkh m := by
        rintro rfl
        simp [Call.triple, h, hk] at hp
      rw [step_lookup h, if_neg (fun hc => hne hc.2)]
      exact hR k hk
  · intro w v c hR hp
    cases h : c.req.asWithWatermark with
    | none => simp [Call.triple, h] at hp
    | some m =>
      have hk : P (tripleOf c.pkh m) = true := by simpa [Call.triple, h] using hp
      have hadm : w.admits (tripleOf c.pkh m) (NewWatermark m c.digest) =
          v.admits (tripleOf c.pkh m) (NewWatermark m c.digest) := by
        unfold InMemory.admits; rw [hR _ hk]
      refine ⟨by rw [step_answer h, step_answer h, hadm], fun k' hk' => ?_⟩
      rw [step_lookup h, step_lookup h, hadm, hR k' hk']

lemma lookup_of_refused {w : InMemory Enc} {c : Call PKH} {e : Err} (h : (w.IsSafeToSign c).1 = .error e)
    (k : Triple Enc) : (w.IsSafeToSign c).2.lookup k = w.lookup k := by
  cases hreq : c.req.asWithWatermark with
  | none => rw [step_of_none hreq]
  | some m =>
    have hno : w.admits (tripleOf c.pkh m) (NewWatermark m c.digest) ≠ true := by
      intro hadm
      rw [step_answer hreq, if_pos hadm] at h
      cases h
    rw [step_lookup hreq, if_neg (fun hc => hno hc.1)]

/-- The call is a watermarked request for a chain, a key and a kind. -/
def Call.isFor [DecidableEq PKH] (chain : ChainID) (pkh : PKH) (kind : String) (c : Call PKH) : Bool :=
  c.req.asWithWatermark.any fun m => decide (m.chainID = chain ∧ c.pkh = pkh ∧ m.kind = kind)

/-- Keys with the same comparable form being equal, the requests for a chain, a key and a kind are those of a triple. -/
lemma isFor_iff [DecidableEq PKH] (hinj : Function.Injective (toComparable : PKH → Enc)) (chain : ChainID) (pkh : PKH)
    (kind : String) (c : Call PKH) :
    c.isFor chain pkh kind = c.triple.any fun k => decide (k = ⟨chain, toComparable pkh, kind⟩) := by
  unfold Call.isFor Call.triple
  cases c.req.asWithWatermark with
  | none => rfl
  | some m => simp [tripleOf, hinj.eq_iff]

/-- **Triples do not interfere.**  In every run, from any store: the requests for a chain, a key and a kind get the
verdicts, and leave the watermark, that they get and leave when all other requests are deleted; and a request that is
refused leaves every watermark as it was. -/
theorem triples_do_not_interfere [DecidableEq PKH] (hinj : Function.Injective (toComparable : PKH → Enc))
    (chain : ChainID) (pkh : PKH) (kind : String) (w : InMemory Enc) (calls : List (Call PKH)) :
    (events InMemory.IsSafeToSign w calls).filter (fun e => e.1.isFor chain pkh kind) =
        events InMemory.IsSafeToSign w (calls.filter fun c => c.isFor chain pkh kind) ∧
      (final InMemory.IsSafeToSign w calls).lookup ⟨chain, toComparable pkh, kind⟩ =
        (final InMemory.IsSafeToSign w (calls.filter fun c => c.isFor chain pkh kind)).lookup
          ⟨chain, toComparable pkh, kind⟩ ∧
      ∀ pre c post e, calls = pre ++ c :: post → ((final InMemory.IsSafeToSign w pre).IsSafeToSign c).1 = .error e →
        ∀ k, ((final InMemory.IsSafeToSign w pre).IsSafeToSign c).2.lookup k =
          (final InMemory.IsSafeToSign w pre).lookup k := by
  obtain ⟨hevents, hfinal⟩ := events_of_triples (fun k : Triple Enc => decide (k = ⟨chain, toComparable pkh, kind⟩))
    (fun k _ => rfl : ∀ k, _ → w.lookup k = w.lookup k) calls
  simp only [← isFor_iff hinj] at hevents hfinal
  refine ⟨hevents, hfinal _ (by simp), ?_⟩
  intro pre c post e _ hrefused k
  exact lookup_of_refused hrefused k

end Lookup

/-- A block at level 3 of the key `0`, after an attestation of the same key and blocks of another key and of another
chain at higher levels. -/
theorem triples_do_not_interfere_block :
    let call := fun (pkh : EncodedPublicKeyHash) (kind : String) (chain : ChainID) (level : Int32) =>
      (⟨pkh, .latest (.withWatermark ⟨kind, chain, level, 0⟩), 7⟩ : Call EncodedPublicKeyHash)
    (final InMemory.IsSafeToSign ⟨none⟩
        [call 0 "attestation" 0 9, call 1 "block" 0 8, call 0 "block" 5 7, call 0 "block" 0 3]).lookup
        ⟨0, 0, "block"⟩ = some ⟨3, 0, some 7⟩ := by
  intro call
  exact (triples_do_not_interfere (fun _ _ h => h) 0 0 "block" (⟨none⟩ : InMemory EncodedPublicKeyHash)
    [call 0 "attestation" 0 9, call 1 "block" 0 8, call 0 "block" 5 7, call 0 "block" 0 3]).2.1

end Signatory.Watermark

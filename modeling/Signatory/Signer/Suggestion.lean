import Signatory.Signer.PolicyMeaning

/-!
# The replacement that is suggested for a deprecated entry

For an entry with `allowed_operations` or `allowed_kinds`, `PreparePolicy` prints an `allow` map to use instead.  Its
operations stand under the key `generic`, and so the map also allows generic requests, which `allowed_kinds` alone does
not.  An entry that is replaced as suggested admits what it did before, and the requests of `Widened` besides:
`replaced_verdict_iff`.
-/

namespace Signatory.Signer

open Hashmap

variable {PKH PK Enc : Type}

/-- The map `e.Allow`. -/
def suggestedAllow (allowedRequests : List String) (allowedOps : Option (List String)) :
    GoMap String (List String) :=
  let allow := allowedRequests.foldl (fun e r => e.insert r []) ∅
  match allowedOps with
  | some ops => allow.insert "generic" ops
  | none => allow

/-- What `PreparePolicy` prints for an entry whose names it accepts. -/
def suggestion (v : TezosPolicy PK) : Option (GoMap String (List String)) :=
  match v.allow with
  | some _ => none
  | none =>
    if v.allowedKinds.isSome || v.allowedOperations.isSome then
      some (suggestedAllow (v.allowedOperations.elim [] fixupRequests) (v.allowedKinds.map sortStrings))
    else none

/-- The entry with the two lists replaced by the map. -/
def replaced (v : TezosPolicy PK) : TezosPolicy PK :=
  match suggestion v with
  | some allow => { v with allow := some allow, allowedOperations := none, allowedKinds := none }
  | none => v

/-- The requests that only the replacement admits. -/
structure Widened [ToComparable PKH Enc] (g : Gotez PKH PK) (v : TezosPolicy PK) (req : SignRequest PKH)
    (msg : Request.SignRequest) : Prop where
  kinds : v.allowedKinds ≠ none
  unlisted : "generic" ∉ v.allowedOperations.getD []
  request : msg.SignRequestKind = "generic"
  operations : ∀ contents, msg.proto = .generic contents →
    ∀ op ∈ contents, OperationMeant (meantOperations (some v)) op
  chain : ∀ chains ∈ v.allowedChains, ∀ m, msg.asWithWatermark = some m → g.chainText m.chainID ∈ chains
  client : ∀ keys ∈ v.authorizedKeys, ∃ client, req.clientPublicKeyHash = some client ∧
    ∃ key, keys.Lists key ∧ toComparable (g.hash key) = toComparable client

/-! ## The names in the map -/

section Names

lemma lookup_foldl_insert_nil (requests : List String) (out : GoMap String (List String)) (s : String) :
    (requests.foldl (fun e r => e.insert r []) out).lookup s = if s ∈ requests then some [] else out.lookup s := by
  induction requests generalizing out with
  | nil => simp
  | cons r rest ih =>
    rw [List.foldl_cons, ih, GoMap.lookup_set]
    by_cases hrest : s ∈ rest
    · simp [hrest]
    · by_cases hr : s = r
      · simp [hr]
      · simp [hrest, hr]

lemma mem_keys_iff {V : Type} {m : GoMap String V} {s : String} : s ∈ m.keys ↔ m.lookup s ≠ none := by
  rw [← AList.mem_keys, ← AList.lookup_isSome, Option.isSome_iff_ne_none]

lemma mem_suggestedAllow (requests : List String) (ops : Option (List String)) (s : String) :
    s ∈ (suggestedAllow requests ops).keys ↔ s ∈ requests ∨ (s = "generic" ∧ ops ≠ none) := by
  rw [mem_keys_iff]
  unfold suggestedAllow
  cases ops with
  | none => simp [lookup_foldl_insert_nil]
  | some ops =>
    by_cases hs : s = "generic"
    · simp [hs]
    · simp [lookup_foldl_insert_nil, hs]

lemma lookup_suggestedAllow_generic (requests : List String) (ops : Option (List String)) :
    ((suggestedAllow requests ops).lookup "generic").getD [] = ops.getD [] := by
  unfold suggestedAllow
  cases ops with
  | none => by_cases h : "generic" ∈ requests <;> simp [lookup_foldl_insert_nil, h]
  | some ops => simp

lemma renamed_cases (s : String) :
    s = "endorsement" ∨ s = "preendorsement" ∨ renamed legacyRequests s = s := by
  rw [← fixupRequest_eq]
  unfold fixupRequest
  split
  · exact Or.inl rfl
  · exact Or.inr (Or.inl rfl)
  · exact Or.inr (Or.inr rfl)

lemma renamed_renamed (s : String) : renamed legacyRequests (renamed legacyRequests s) = renamed legacyRequests s := by
  rcases renamed_cases s with rfl | rfl | h
  · decide
  · decide
  · rw [h, h]

lemma renamed_eq_generic_iff (s : String) : renamed legacyRequests s = "generic" ↔ s = "generic" := by
  rcases renamed_cases s with rfl | rfl | h
  · decide
  · decide
  · rw [h]

end Names

/-! ## The two entries compared -/

section Compare

variable {v : TezosPolicy PK}

lemma replaced_cases (hallow : v.allow = none) :
    (v.allowedKinds = none ∧ v.allowedOperations = none ∧ replaced v = v) ∨
      replaced v = { v with
        allow := some (suggestedAllow (v.allowedOperations.elim [] fixupRequests) (v.allowedKinds.map sortStrings))
        allowedOperations := none, allowedKinds := none } := by
  unfold replaced suggestion
  rw [hallow]
  cases hkinds : v.allowedKinds with
  | some kinds => exact Or.inr rfl
  | none =>
    cases hops : v.allowedOperations with
    | some ops => exact Or.inr rfl
    | none => exact Or.inl ⟨rfl, rfl, rfl⟩

lemma mem_meantRequests_replaced (hallow : v.allow = none) (s : String) :
    s ∈ meantRequests (some (replaced v)) ↔
      s ∈ meantRequests (some v) ∨ (s = "generic" ∧ v.allowedKinds ≠ none) := by
  rcases replaced_cases hallow with ⟨hkinds, -, hsame⟩ | hmap
  · simp [hsame, hkinds]
  · have hlisted : ∀ r, r ∈ v.allowedOperations.elim [] fixupRequests ↔ r ∈ meantRequests (some v) := by
      intro r
      rw [← mem_requestNames]
      simp [requestNames, hallow]
    have hkeys : ∀ r, r ∈ listedRequests (replaced v) ↔
        r ∈ meantRequests (some v) ∨ (r = "generic" ∧ v.allowedKinds ≠ none) := by
      intro r
      rw [hmap, ← hlisted]
      simpa [listedRequests] using mem_suggestedAllow _ (v.allowedKinds.map sortStrings) r
    constructor
    · intro hs
      obtain ⟨r, hr, rfl⟩ := List.mem_map.1 hs
      rcases (hkeys r).1 hr with hmeant | ⟨rfl, hkinds⟩
      · left
        obtain ⟨r', hr', rfl⟩ := List.mem_map.1 hmeant
        rw [renamed_renamed]
        exact List.mem_map_of_mem hr'
      · exact Or.inr ⟨(renamed_eq_generic_iff _).2 rfl, hkinds⟩
    · rintro (hmeant | ⟨rfl, hkinds⟩)
      · obtain ⟨r, -, rfl⟩ := List.mem_map.1 hmeant
        exact List.mem_map.2 ⟨_, (hkeys _).2 (Or.inl hmeant), renamed_renamed r⟩
      · exact List.mem_map.2 ⟨"generic", (hkeys _).2 (Or.inr ⟨rfl, hkinds⟩), (renamed_eq_generic_iff _).2 rfl⟩

lemma mem_meantOperations_replaced (hallow : v.allow = none) (s : String) :
    s ∈ meantOperations (some (replaced v)) ↔ s ∈ meantOperations (some v) := by
  rcases replaced_cases hallow with ⟨-, -, hsame⟩ | hmap
  · rw [hsame]
  · rw [hmap]
    simp only [meantOperations, listedOperations, hallow, lookup_suggestedAllow_generic]
    cases v.allowedKinds with
    | none => rfl
    | some kinds => simp [mem_sortStrings]

lemma known_replaced {g : Gotez PKH PK} (hgeneric : "generic" ∈ g.listSignRequests) (hallow : v.allow = none)
    (h : Known g v) : Known g (replaced v) := by
  constructor
  · intro kind hkind
    rcases (mem_meantRequests_replaced hallow kind).1 hkind with hkind | ⟨rfl, -⟩
    · exact h.1 kind hkind
    · exact hgeneric
  · intro kind hkind
    exact h.2 kind ((mem_meantOperations_replaced hallow kind).1 hkind)

lemma replaced_allowedChains : (replaced v).allowedChains = v.allowedChains := by
  unfold replaced
  split <;> rfl

lemma replaced_authorizedKeys : (replaced v).authorizedKeys = v.authorizedKeys := by
  unfold replaced
  split <;> rfl

variable [ToComparable PKH Enc] {g : Gotez PKH PK} {req : SignRequest PKH} {msg : Request.SignRequest}

lemma generic_mem_meantRequests_iff (hallow : v.allow = none) :
    "generic" ∈ meantRequests (some v) ↔ "generic" ∈ v.allowedOperations.getD [] := by
  show "generic" ∈ (listedRequests v).map _ ↔ _
  simp only [listedRequests, hallow, List.mem_map, renamed_eq_generic_iff, exists_eq_right]

/-- **The replacement means the entry and what it is widened by.** -/
lemma meant_replaced_iff (hallow : v.allow = none) :
    Meant g (some (replaced v)) req msg ↔ Meant g (some v) req msg ∨ Widened g v req msg := by
  have hop : ∀ op, OperationMeant (meantOperations (some (replaced v))) op ↔
      OperationMeant (meantOperations (some v)) op := by
    intro op
    cases op <;> simp [OperationMeant, mem_meantOperations_replaced hallow]
  constructor
  · rintro ⟨hrequest, hoperations, hchain, hclient⟩
    simp only [hop] at hoperations
    have hchain := hchain _ rfl
    have hclient := hclient _ rfl
    rw [replaced_allowedChains] at hchain
    rw [replaced_authorizedKeys] at hclient
    by_cases hlisted : msg.SignRequestKind ∈ meantRequests (some v)
    · refine Or.inl ⟨hlisted, hoperations, ?_, ?_⟩
      · rintro p ⟨⟩
        exact hchain
      · rintro p ⟨⟩
        exact hclient
    · rcases (mem_meantRequests_replaced hallow _).1 hrequest with hmeant | ⟨hkind, hkinds⟩
      · exact absurd hmeant hlisted
      · rw [hkind, generic_mem_meantRequests_iff hallow] at hlisted
        exact Or.inr ⟨hkinds, hlisted, hkind, hoperations, hchain, hclient⟩
  · rintro (⟨hrequest, hoperations, hchain, hclient⟩ | ⟨hkinds, -, hkind, hoperations, hchain, hclient⟩)
    · refine ⟨(mem_meantRequests_replaced hallow _).2 (Or.inl hrequest), by simpa only [hop] using hoperations, ?_, ?_⟩
      · rintro p ⟨⟩
        rw [replaced_allowedChains]
        exact hchain v rfl
      · rintro p ⟨⟩
        rw [replaced_authorizedKeys]
        exact hclient v rfl
    · refine ⟨(mem_meantRequests_replaced hallow _).2 (Or.inr ⟨hkind, hkinds⟩),
        by simpa only [hop] using hoperations, ?_, ?_⟩
      · rintro p ⟨⟩
        rw [replaced_allowedChains]
        exact hchain
      · rintro p ⟨⟩
        rw [replaced_authorizedKeys]
        exact hclient

/-- The entry itself does not admit the requests that it is widened by. -/
lemma not_meant_of_widened (hallow : v.allow = none) (h : Widened g v req msg) : ¬ Meant g (some v) req msg := by
  intro hmeant
  have hrequest := hmeant.request
  rw [h.request, generic_mem_meantRequests_iff hallow] at hrequest
  exact h.unlisted hrequest

end Compare

/-! ## The verdicts -/

section Verdicts

variable [DecidableEq Enc] [ToComparable PKH Enc] [LawfulToComparable PKH Enc] {g : Gotez PKH PK}

lemma preparePolicy_replaced (hgeneric : "generic" ∈ g.listSignRequests) {src : TezosConfig Enc PK}
    (hprep : (PreparePolicy g src).2 = none) {pkh : PKH} {v : TezosPolicy PK} (hkey : src.Get pkh = some (some v))
    (hallow : v.allow = none) : (PreparePolicy g (src.Insert pkh (some (replaced v))).2).2 = none := by
  have hknown : ∀ k w, src.lookup k = some (some w) → Known g w := by
    intro k w hw
    by_contra hnot
    exact preparePolicy_error_iff.2 ⟨k, w, hw, hnot⟩ hprep
  by_contra hbad
  obtain ⟨k, w, hw, hnot⟩ := preparePolicy_error_iff.1 hbad
  rw [HashMap.Insert, GoMap.lookup_set] at hw
  split_ifs at hw with hk
  · cases hw
    exact hnot (known_replaced hgeneric hallow (hknown _ v hkey))
  · exact hnot (hknown k w hw)

/-- **The replacement that is suggested.**  Take any accepted configuration and an entry of it without `allow`.  The
configuration in which the entry is replaced as suggested is accepted as well, and a decoded request gets the same
verdict under both, unless it is one of those that the entry is widened by. -/
theorem replaced_verdict_iff (hgeneric : "generic" ∈ g.listSignRequests) {src : TezosConfig Enc PK}
    {policy : Policy Enc PKH} (hprep : PreparePolicy g src = (policy, none)) {pkh : PKH} {v : TezosPolicy PK}
    (hkey : src.Get pkh = some (some v)) (hallow : v.allow = none) :
    ∃ policy', PreparePolicy g (src.Insert pkh (some (replaced v))).2 = (policy', none) ∧
      ∃ pol pol', fetchPolicyOrDefault policy pkh = some pol ∧ fetchPolicyOrDefault policy' pkh = some pol' ∧
        ∀ req msg, getSignRequest g req = .ok msg →
          ((matchFilter g pol req msg = .ok () ↔ matchFilter g pol' req msg = .ok ()) ↔ ¬ Widened g v req msg) := by
  have hprep' : PreparePolicy g (src.Insert pkh (some (replaced v))).2 = (_, none) :=
    Prod.ext rfl (preparePolicy_replaced hgeneric (by rw [hprep]) hkey hallow)
  have hkey' : (src.Insert pkh (some (replaced v))).2.Get pkh = some (some (replaced v)) := by
    rw [get_insert, if_pos rfl]
  obtain ⟨pol, hfetch, hpol⟩ := fetchPolicyOrDefault_meant hprep hkey
  obtain ⟨pol', hfetch', hpol'⟩ := fetchPolicyOrDefault_meant hprep' hkey'
  refine ⟨_, hprep', pol, pol', hfetch, hfetch', fun req msg hmsg => ?_⟩
  rw [hpol req msg hmsg, hpol' req msg hmsg, meant_replaced_iff hallow]
  constructor
  · intro hsame hwidened
    exact not_meant_of_widened hallow hwidened (hsame.2 (Or.inr hwidened))
  · intro hnot
    constructor
    · exact Or.inl
    · rintro (hmeant | hwidened)
      · exact hmeant
      · exact absurd hwidened hnot

end Verdicts

/-- A vote gets the same verdict, as the entry lists generic requests. -/
theorem replaced_verdict_of_listed :
    ∃ policy policy' pol pol', PreparePolicy sampleGotez (AList.singleton 0 (some samplePolicy)) = (policy, none) ∧
      PreparePolicy sampleGotez
        (HashMap.Insert (AList.singleton 0 (some samplePolicy)) (0 : EncodedPublicKeyHash)
          (some (replaced samplePolicy))).2 = (policy', none) ∧
      fetchPolicyOrDefault policy (0 : EncodedPublicKeyHash) = some pol ∧
      fetchPolicyOrDefault policy' (0 : EncodedPublicKeyHash) = some pol' ∧
      (matchFilter sampleGotez pol (sampleRequest [3]) (.latest (.generic [.ballot .yay])) = .ok () ↔
        matchFilter sampleGotez pol' (sampleRequest [3]) (.latest (.generic [.ballot .yay])) = .ok ()) := by
  have hknown : Known sampleGotez samplePolicy := by unfold Known; decide
  have hprep : PreparePolicy sampleGotez (AList.singleton 0 (some samplePolicy)) = (_, none) :=
    Prod.ext rfl (preparePolicy_singleton hknown)
  have hkey : HashMap.Get (AList.singleton 0 (some samplePolicy)) (0 : EncodedPublicKeyHash) =
      some (some samplePolicy) := rfl
  obtain ⟨policy', hprep', pol, pol', hfetch, hfetch', hiff⟩ := replaced_verdict_iff (by decide) hprep hkey rfl
  refine ⟨_, policy', pol, pol', hprep, hprep', hfetch, hfetch', (hiff (sampleRequest [3]) _ rfl).2 ?_⟩
  intro hwidened
  exact hwidened.unlisted (by decide)

/-- An entry that lists operations and no requests. -/
def kindsOnly : TezosPolicy EncodedPublicKeyHash := { samplePolicy with allowedOperations := none }

/-- A vote is refused under the entry and accepted under its replacement. -/
theorem kindsOnly_replaced_accepts :
    ∃ policy policy' pol pol', PreparePolicy sampleGotez (AList.singleton 0 (some kindsOnly)) = (policy, none) ∧
      PreparePolicy sampleGotez
        (HashMap.Insert (AList.singleton 0 (some kindsOnly)) (0 : EncodedPublicKeyHash)
          (some (replaced kindsOnly))).2 = (policy', none) ∧
      fetchPolicyOrDefault policy (0 : EncodedPublicKeyHash) = some pol ∧
      fetchPolicyOrDefault policy' (0 : EncodedPublicKeyHash) = some pol' ∧
      matchFilter sampleGotez pol (sampleRequest [3]) (.latest (.generic [.ballot .yay])) ≠ .ok () ∧
      matchFilter sampleGotez pol' (sampleRequest [3]) (.latest (.generic [.ballot .yay])) = .ok () := by
  have hknown : Known sampleGotez kindsOnly := by unfold Known; decide
  have hprep : PreparePolicy sampleGotez (AList.singleton 0 (some kindsOnly)) = (_, none) :=
    Prod.ext rfl (preparePolicy_singleton hknown)
  have hkey : HashMap.Get (AList.singleton 0 (some kindsOnly)) (0 : EncodedPublicKeyHash) =
      some (some kindsOnly) := rfl
  have hkey' : (HashMap.Insert (AList.singleton 0 (some kindsOnly)) (0 : EncodedPublicKeyHash)
      (some (replaced kindsOnly))).2.Get (0 : EncodedPublicKeyHash) = some (some (replaced kindsOnly)) := by
    rw [get_insert, if_pos rfl]
  have hprep' : PreparePolicy sampleGotez (HashMap.Insert (AList.singleton 0 (some kindsOnly))
      (0 : EncodedPublicKeyHash) (some (replaced kindsOnly))).2 = (_, none) :=
    Prod.ext rfl (preparePolicy_replaced (by decide) (preparePolicy_singleton hknown) hkey rfl)
  have hwidened : Widened sampleGotez kindsOnly (sampleRequest [3]) (.latest (.generic [.ballot .yay])) := by
    refine ⟨by decide, by decide, rfl, ?_, ?_, ?_⟩
    · rintro contents ⟨⟩ op hop
      obtain rfl := List.mem_singleton.1 hop
      exact Or.inr (by decide)
    · rintro chains ⟨⟩
    · rintro keys ⟨⟩
  obtain ⟨pol, hfetch, hpol⟩ := fetchPolicyOrDefault_meant hprep hkey
  obtain ⟨pol', hfetch', hpol'⟩ := fetchPolicyOrDefault_meant hprep' hkey'
  refine ⟨_, _, pol, pol', hprep, hprep', hfetch, hfetch', ?_, ?_⟩
  · intro h
    exact not_meant_of_widened rfl hwidened ((hpol (sampleRequest [3]) _ rfl).1 h)
  · exact (hpol' (sampleRequest [3]) _ rfl).2 ((meant_replaced_iff rfl).2 (Or.inr hwidened))

end Signatory.Signer

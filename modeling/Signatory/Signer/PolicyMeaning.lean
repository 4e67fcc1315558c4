import Signatory.Lib.Fallible
import Signatory.Signer.Policy

/-!
# What a configuration means

`Meant v req msg` says, in the words of the configuration file, which requests an entry admits: nothing is sorted,
copied or prepared there.  `matchFilter_iff_meant` is the refinement: the prepared policy admits exactly these.
`preparePolicy_error_iff` says which configurations are refused.
-/

namespace Signatory.Signer

open Hashmap Lib.Fallible
open Request (BallotKind OperationContents GetOperationKind ProtoSignRequest WithWatermark)

variable {PKH PK Enc : Type}

/-! ## The abstract meaning -/

section Meaning

/-- The names of requests that are no longer used, with those that replace them. -/
def legacyRequests : List (String × String) :=
  [("endorsement", "attestation"), ("preendorsement", "preattestation")]

/-- The same for operations. -/
def legacyOperations : List (String × String) :=
  legacyRequests ++ [("double_endorsement_evidence", "double_attestation_evidence"),
    ("double_preendorsement_evidence", "double_preattestation_evidence")]

/-- The name used today. -/
def renamed (table : List (String × String)) (name : String) : String := (table.lookup name).getD name

/-- The name of an operation used today; a sub-kind stays. -/
def currentOperation (o : String) : String :=
  match cut o with
  | (base, some subKind) => renamed legacyOperations base ++ ":" ++ subKind
  | (base, none) => renamed legacyOperations base

/-- The request kinds that an entry lists. -/
def listedRequests (v : TezosPolicy PK) : List String :=
  match v.allow with
  | some allow => allow.keys
  | none => v.allowedOperations.getD []

/-- The operations that an entry lists. -/
def listedOperations (v : TezosPolicy PK) : List String :=
  match v.allow with
  | some allow => (allow.lookup "generic").getD []
  | none => v.allowedKinds.getD []

def meantRequests : Option (TezosPolicy PK) → List String
  | none => ["block", "preattestation", "attestation"]
  | some v => (listedRequests v).map (renamed legacyRequests)

def meantOperations : Option (TezosPolicy PK) → List String
  | none => []
  | some v => (listedOperations v).map currentOperation

/-- A ballot needs `ballot` or its own vote in the list, any other operation its kind. -/
def OperationMeant (names : List String) : OperationContents → Prop
  | .ballot vote => "ballot" ∈ names ∨ "ballot:" ++ vote.String ∈ names
  | .other kind => kind ∈ names

/-- The keys in a tree of keys. -/
inductive AuthorizedKeys.Lists : AuthorizedKeys PK → PK → Prop
  | value (key : PK) : Lists (.value key) key
  | list {keys : List (AuthorizedKeys PK)} {sub : AuthorizedKeys PK} {key : PK} (hsub : sub ∈ keys)
      (hkey : sub.Lists key) : Lists (.list keys) key

/-- The entry `v` of the configuration admits the request. -/
structure Meant [ToComparable PKH Enc] (g : Gotez PKH PK) (v : Option (TezosPolicy PK)) (req : SignRequest PKH)
    (msg : Request.SignRequest) : Prop where
  request : msg.SignRequestKind ∈ meantRequests v
  operations : ∀ contents, msg.proto = .generic contents → ∀ op ∈ contents, OperationMeant (meantOperations v) op
  chain : ∀ p ∈ v, ∀ chains ∈ p.allowedChains, ∀ m, msg.asWithWatermark = some m → g.chainText m.chainID ∈ chains
  client : ∀ p ∈ v, ∀ keys ∈ p.authorizedKeys, ∃ client, req.clientPublicKeyHash = some client ∧
    ∃ key, keys.Lists key ∧ toComparable (g.hash key) = toComparable client

/-- An operation of the protocol, or a vote if ballots are one. -/
def KnownOperation (g : Gotez PKH PK) (kind : String) : Prop :=
  (kind ∈ g.listGenericOperations ++ g.listPseudoOperations ∧ ':' ∉ kind.toList) ∨
    ("ballot" ∈ g.listGenericOperations ++ g.listPseudoOperations ∧ kind ∈ ["ballot:yay", "ballot:nay", "ballot:pass"])

instance (g : Gotez PKH PK) (kind : String) : Decidable (KnownOperation g kind) := by
  unfold KnownOperation
  infer_instance

/-- The names in an entry are all known, once they are brought up to date. -/
def Known (g : Gotez PKH PK) (v : TezosPolicy PK) : Prop :=
  (∀ kind ∈ meantRequests (some v), kind ∈ g.listSignRequests) ∧
    ∀ kind ∈ meantOperations (some v), KnownOperation g kind

/-- The policy of a key in a prepared configuration: that of its entry, or the default one for a null entry. -/
def PolicyFor [DecidableEq Enc] [ToComparable PKH Enc] (policy : Policy Enc PKH) (keyHash : PKH)
    (pol : PublicKeyPolicy PKH) : Prop :=
  policy.Get keyHash = some (some pol) ∨ (policy.Get keyHash = some none ∧ pol = defaultPolicy)

/-- The message decodes to a request under the version of `opts`; bytes may be left. -/
def Decodes (g : Gotez PKH PK) (opts : SignOptions) (message : Bytes) : Request.SignRequest → Prop
  | .v1 r => opts.version = 1 ∧ ∃ rest, g.decodeV1 message = .ok (r, rest)
  | .latest r => opts.version ≠ 1 ∧ ∃ rest, g.decodeLatest message = .ok (r, rest)

end Meaning

/-! ## Keys, policies and messages -/

section Terms

lemma AuthorizedKeys.mem_toListAll {key : PK} {keys : List (AuthorizedKeys PK)} :
    key ∈ AuthorizedKeys.toListAll keys ↔ ∃ sub ∈ keys, key ∈ sub.toList := by
  induction keys with
  | nil => simp [AuthorizedKeys.toListAll]
  | cons sub keys ih => simp [AuthorizedKeys.toListAll, ih]

lemma AuthorizedKeys.lists_of_mem_toList {key : PK} (keys : AuthorizedKeys PK) (h : key ∈ keys.toList) :
    keys.Lists key := by
  match keys with
  | .value k =>
    obtain rfl : key = k := List.mem_singleton.1 h
    exact .value key
  | .list keys =>
    obtain ⟨sub, hsub, hkey⟩ := AuthorizedKeys.mem_toListAll.1 h
    exact .list hsub (AuthorizedKeys.lists_of_mem_toList sub hkey)

@[simp] lemma AuthorizedKeys.mem_toList {key : PK} {keys : AuthorizedKeys PK} :
    key ∈ keys.toList ↔ keys.Lists key := by
  refine ⟨AuthorizedKeys.lists_of_mem_toList keys, fun h => ?_⟩
  induction h with
  | value key => exact List.mem_singleton.2 rfl
  | list hsub _ ih => exact AuthorizedKeys.mem_toListAll.2 ⟨_, hsub, ih⟩

lemma policyFor_iff [DecidableEq Enc] [ToComparable PKH Enc] {policy : Policy Enc PKH} {keyHash : PKH}
    {pol : PublicKeyPolicy PKH} : PolicyFor policy keyHash pol ↔ fetchPolicyOrDefault policy keyHash = some pol := by
  unfold PolicyFor fetchPolicyOrDefault
  rcases policy.Get keyHash with _ | _ | p
  · simp
  · simp [eq_comm]
  · simp

lemma decodes_iff {g : Gotez PKH PK} {req : SignRequest PKH} {msg : Request.SignRequest} :
    Decodes g req.signOptions req.message msg ↔ getSignRequest g req = .ok msg := by
  unfold getSignRequest
  split
  next hversion => cases msg <;> simp [Decodes, hversion, ok_map_iff]
  next hversion => cases msg <;> simp [Decodes, ok_map_iff, show req.signOptions.version ≠ 1 from hversion]

lemma Decodes.unique {g : Gotez PKH PK} {opts : SignOptions} {message : Bytes} {msg msg' : Request.SignRequest}
    (h : Decodes g opts message msg) (h' : Decodes g opts message msg') : msg = msg' := by
  cases msg with
  | v1 r =>
    obtain ⟨hversion, rest, hdecode⟩ := h
    cases msg' with
    | v1 r' =>
      obtain ⟨-, rest', hdecode'⟩ := h'
      cases hdecode.symm.trans hdecode'
      rfl
    | latest r' => exact absurd hversion h'.1
  | latest r =>
    obtain ⟨hversion, rest, hdecode⟩ := h
    cases msg' with
    | v1 r' => exact absurd h'.1 hversion
    | latest r' =>
      obtain ⟨-, rest', hdecode'⟩ := h'
      cases hdecode.symm.trans hdecode'
      rfl

end Terms

/-! ## The preparation -/

section Prepare

lemma fixupRequest_eq (req : String) : fixupRequest req = renamed legacyRequests req := by
  unfold fixupRequest renamed legacyRequests
  split <;> simp_all [List.lookup_cons, beq_false_of_ne]

lemma fixupBase_eq (base : String) : fixupBase base = renamed legacyOperations base := by
  unfold fixupBase renamed legacyOperations legacyRequests
  split <;> simp_all [List.lookup_cons, beq_false_of_ne]

lemma fixupOperation_eq (o : String) : fixupOperation o = currentOperation o := by
  unfold fixupOperation currentOperation
  rcases cut o with ⟨base, _ | subKind⟩ <;> simp [fixupBase_eq]

lemma mem_sortStrings {l : List String} {s : String} : s ∈ sortStrings l ↔ s ∈ l := by
  simp [sortStrings]

lemma mem_fixupRequests {l : List String} {s : String} :
    s ∈ fixupRequests l ↔ s ∈ l.map (renamed legacyRequests) := by
  simp [fixupRequests, mem_sortStrings, fixupRequest_eq]

lemma mem_fixupOperations {l : List String} {s : String} :
    s ∈ fixupOperations l ↔ s ∈ l.map currentOperation := by
  simp [fixupOperations, mem_sortStrings, fixupOperation_eq]

lemma cut_cases (s : String) : (':' ∉ s.toList ∧ cut s = (s, none)) ∨
    (':' ∈ s.toList ∧ ∃ base subKind, cut s = (base, some subKind) ∧ s = base ++ ":" ++ subKind) := by
  have hsplit : s.toList.takeWhile (· ≠ ':') ++ s.toList.dropWhile (· ≠ ':') = s.toList :=
    List.takeWhile_append_dropWhile
  unfold cut
  rw [List.span_eq_takeWhile_dropWhile]
  cases hrest : s.toList.dropWhile (· ≠ ':') with
  | nil =>
    rw [hrest, List.append_nil] at hsplit
    refine Or.inl ⟨fun hmem => ?_, rfl⟩
    rw [← hsplit] at hmem
    simpa using List.all_eq_true.1 List.all_takeWhile ':' hmem
  | cons c subKind =>
    have hhead := List.head_dropWhile_not (fun c => decide (c ≠ ':')) (l := s.toList) (by rw [hrest]; simp)
    obtain rfl : c = ':' := by simpa only [hrest, List.head_cons, decide_eq_false_iff_not, not_not] using hhead
    rw [hrest] at hsplit
    refine Or.inr ⟨?_, _, _, rfl, ?_⟩
    · rw [← hsplit]
      exact List.mem_append_right _ List.mem_cons_self
    · apply String.toList_inj.1
      simp only [String.toList_append, String.toList_ofList, List.append_assoc]
      exact hsplit.symm

lemma mem_votes_iff {base subKind : String} (hcut : cut (base ++ ":" ++ subKind) = (base, some subKind)) :
    base ++ ":" ++ subKind ∈ ["ballot:yay", "ballot:nay", "ballot:pass"] ↔
      base = "ballot" ∧ subKind ∈ ["yay", "nay", "pass"] := by
  constructor
  · intro hmem
    have hcuts : ∀ k ∈ ["ballot:yay", "ballot:nay", "ballot:pass"],
        (cut k).1 = "ballot" ∧ ∃ subKind ∈ ["yay", "nay", "pass"], (cut k).2 = some subKind := by decide
    obtain ⟨hbase, sub, hsub, hsome⟩ := hcuts _ hmem
    rw [hcut] at hbase hsome
    cases hsome
    exact ⟨hbase, hsub⟩
  · rintro ⟨rfl, hsub⟩
    have hjoin : ∀ sub ∈ ["yay", "nay", "pass"],
        "ballot" ++ ":" ++ sub ∈ ["ballot:yay", "ballot:nay", "ballot:pass"] := by decide
    exact hjoin subKind hsub

lemma any_ballotKind_iff (subKind : String) :
    ([BallotKind.yay, .nay, .pass].any fun b => b.String == subKind) = true ↔ subKind ∈ ["yay", "nay", "pass"] := by
  simp only [List.any_cons, List.any_nil, BallotKind.String, Bool.or_eq_true, beq_iff_eq, Bool.false_eq_true,
    or_false, List.mem_cons, List.not_mem_nil, @eq_comm _ _ subKind]

variable {g : Gotez PKH PK} {v : TezosPolicy PK}

lemma availableOperation_iff (kind : String) : availableOperation g kind = true ↔ KnownOperation g kind := by
  unfold availableOperation KnownOperation
  rcases cut_cases kind with ⟨hno, hcut⟩ | ⟨hcolon, base, subKind, hcut, rfl⟩
  · have hvote : kind ∉ ["ballot:yay", "ballot:nay", "ballot:pass"] := by
      intro hmem
      have hcolons : ∀ k ∈ ["ballot:yay", "ballot:nay", "ballot:pass"], ':' ∈ k.toList := by decide
      exact hno (hcolons kind hmem)
    simp [hcut, hno, hvote]
  · rw [hcut]
    dsimp only
    rw [Bool.and_eq_true, Bool.and_eq_true, beq_iff_eq, any_ballotKind_iff, List.contains_iff_mem, mem_votes_iff hcut]
    constructor
    · rintro ⟨⟨rfl, hsub⟩, hlisted⟩
      exact Or.inr ⟨hlisted, rfl, hsub⟩
    · rintro (⟨-, hno⟩ | ⟨hlisted, rfl, hsub⟩)
      · exact absurd hcolon hno
      · exact ⟨⟨rfl, hsub⟩, hlisted⟩

lemma checkRequestKind_ok_iff (kinds : List String) :
    checkRequestKind g kinds = .ok () ↔ ∀ kind ∈ kinds, kind ∈ g.listSignRequests := by
  induction kinds with
  | nil => simp [checkRequestKind]
  | cons kind rest ih => by_cases h : kind ∈ g.listSignRequests <;> simp [checkRequestKind, h, ih]

lemma checkOperationKind_ok_iff (kinds : List String) :
    checkOperationKind g kinds = .ok () ↔ ∀ kind ∈ kinds, KnownOperation g kind := by
  induction kinds with
  | nil => simp [checkOperationKind]
  | cons kind rest ih =>
    by_cases h : KnownOperation g kind
    · simp [checkOperationKind, availableOperation_iff, h, ih]
    · simp [checkOperationKind, availableOperation_iff, h]

lemma bind_unit_ok_iff {α : Type} {x : Except Error Unit} {y : Except Error α} {a : α} :
    (x >>= fun _ => y) = .ok a ↔ x = .ok () ∧ y = .ok a := by
  cases x <;> simp [bind, Except.bind]

/-- The names of requests that `PreparePolicy` puts into the policy of an entry. -/
def requestNames (v : TezosPolicy PK) : List String :=
  match v.allow with
  | some allow => fixupRequests allow.keys
  | none => v.allowedOperations.elim [] fixupRequests

/-- The names of operations, before they are brought up to date. -/
def operationNames (v : TezosPolicy PK) : List String :=
  match v.allow with
  | some allow => (allow.lookup "generic").elim [] sortStrings
  | none => v.allowedKinds.elim [] sortStrings

lemma mem_requestNames {s : String} : s ∈ requestNames v ↔ s ∈ meantRequests (some v) := by
  show s ∈ requestNames v ↔ s ∈ (listedRequests v).map (renamed legacyRequests)
  unfold requestNames listedRequests
  cases v.allow with
  | some allow => exact mem_fixupRequests
  | none =>
    cases v.allowedOperations with
    | none => simp
    | some l => exact mem_fixupRequests

lemma mem_operationNames {s : String} : s ∈ fixupOperations (operationNames v) ↔ s ∈ meantOperations (some v) := by
  rw [mem_fixupOperations]
  show s ∈ (operationNames v).map currentOperation ↔ s ∈ (listedOperations v).map currentOperation
  unfold operationNames listedOperations
  have hsort : ∀ l : Option (List String), s ∈ (l.elim [] sortStrings).map currentOperation ↔
      s ∈ (l.getD []).map currentOperation := by
    intro l
    cases l <;> simp [mem_sortStrings]
  cases v.allow with
  | some allow => exact hsort _
  | none => exact hsort _

lemma preparedNames_eq :
    preparedNames g v = (checkRequestKind g (requestNames v) >>= fun _ => .ok (requestNames v, operationNames v)) := by
  unfold preparedNames requestNames operationNames
  cases v.allow <;> rfl

/-- The policy of an entry. -/
def preparedPolicy (g : Gotez PKH PK) (k : PKH) (v : TezosPolicy PK) : PublicKeyPolicy PKH where
  allowedRequests := requestNames v
  allowedOps := fixupOperations (operationNames v)
  allowedChains := v.allowedChains
  allowProofOfPossession := v.allowProofOfPossession && g.isBLS k
  authorizedKeyHashes := v.authorizedKeys.map fun keys => keys.toList.map g.hash
  authorizedJwtUsers := v.jwtUsers

/-- **An entry is prepared exactly if its names are known.** -/
theorem prepareEntry_ok_iff {k : PKH} {pol : PublicKeyPolicy PKH} :
    prepareEntry g k v = .ok pol ↔ Known g v ∧ pol = preparedPolicy g k v := by
  have hreq := checkRequestKind_ok_iff (g := g) (requestNames v)
  have hops := checkOperationKind_ok_iff (g := g) (fixupOperations (operationNames v))
  simp only [mem_requestNames] at hreq
  simp only [mem_operationNames] at hops
  unfold prepareEntry Known
  rw [preparedNames_eq, ← hreq, ← hops]
  cases checkRequestKind g (requestNames v) with
  | error e => simp [bind, Except.bind]
  | ok u =>
    simp only [bind, Except.bind]
    cases checkOperationKind g (fixupOperations (operationNames v)) with
    | error e => simp
    | ok u' => simp [preparedPolicy, pure, Except.pure, eq_comm]

end Prepare

section Config

variable [DecidableEq Enc] [ToComparable PKH Enc] {g : Gotez PKH PK}

/-- A null entry is always fine. -/
def KnownEntry (g : Gotez PKH PK) (v : Option (TezosPolicy PK)) : Prop := ∀ p ∈ v, Known g p

lemma prepareStep_cases (g : Gotez PKH PK) (out : Policy Enc PKH) (k : PKH) (v : Option (TezosPolicy PK)) :
    (KnownEntry g v ∧
        prepareStep g (out, none) k v = (true, (out.Insert k (v.map (preparedPolicy g k))).2, none)) ∨
      (¬ KnownEntry g v ∧ ∃ e, prepareStep g (out, none) k v = (false, out, some e)) := by
  cases v with
  | none => exact Or.inl ⟨by simp [KnownEntry], rfl⟩
  | some p =>
    cases he : prepareEntry g k p with
    | ok pol =>
      obtain ⟨hknown, rfl⟩ := prepareEntry_ok_iff.1 he
      exact Or.inl ⟨by simpa [KnownEntry] using hknown, by simp [prepareStep, he]⟩
    | error e =>
      refine Or.inr ⟨fun hknown => ?_, e, by simp [prepareStep, he]⟩
      have hok : prepareEntry g k p = .ok _ := prepareEntry_ok_iff.2 ⟨hknown p rfl, rfl⟩
      rw [he] at hok
      cases hok

variable [LawfulToComparable PKH Enc]

/-- The whole loop: if all names are known, every entry is prepared; otherwise there is an error. -/
lemma loop_prepareStep (entries : List (Σ _ : Enc, Option (TezosPolicy PK))) (hnd : entries.NodupKeys)
    (out : Policy Enc PKH) :
    ((∀ e ∈ entries, KnownEntry g e.2) ∧
        ∃ pol, HashMap.ForEach.loop (prepareStep g) entries (out, none) = (true, pol, none) ∧
          ∀ h, pol.lookup h =
            ((entries.dlookup h).map fun v => v.map (preparedPolicy g (toKey h))).or (out.lookup h)) ∨
      ((∃ e ∈ entries, ¬ KnownEntry g e.2) ∧
        ∃ pol e, HashMap.ForEach.loop (prepareStep g) entries (out, none) = (false, pol, some e)) := by
  induction entries generalizing out with
  | nil => exact Or.inl ⟨by simp, out, rfl, by simp⟩
  | cons entry rest ih =>
    obtain ⟨hfresh, hnd'⟩ := List.nodupKeys_cons.1 hnd
    rcases entry with ⟨h₀, v⟩
    rcases prepareStep_cases g out (toKey h₀) v with ⟨hknown, he⟩ | ⟨hnot, e, he⟩
    · rcases ih hnd' (out.Insert (toKey h₀ : PKH) (v.map (preparedPolicy g (toKey h₀)))).2 with
        ⟨hall, pol, hloop, hlookup⟩ | ⟨⟨e, hmem, hbad⟩, pol, err, hloop⟩
      · refine Or.inl ⟨?_, pol, ?_, fun h => ?_⟩
        · simpa using ⟨hknown, hall⟩
        · simp only [HashMap.ForEach.loop, he, hloop]
        · rw [hlookup, HashMap.Insert, GoMap.lookup_set, toComparable_toKey]
          by_cases hh : h = h₀
          · subst hh
            rw [List.dlookup_eq_none.2 hfresh, List.dlookup_cons_eq]
            simp
          · rw [if_neg hh, List.dlookup_cons_ne _ _ hh]
      · refine Or.inr ⟨⟨e, List.mem_cons_of_mem _ hmem, hbad⟩, pol, err, ?_⟩
        simp only [HashMap.ForEach.loop, he, hloop]
    · exact Or.inr ⟨⟨⟨h₀, v⟩, List.mem_cons_self, hnot⟩, out, e, by simp only [HashMap.ForEach.loop, he]⟩

theorem lookup_preparePolicy {src : TezosConfig Enc PK} {policy : Policy Enc PKH}
    (h : PreparePolicy g src = (policy, none)) (k : Enc) :
    policy.lookup k = (src.lookup k).map fun v => v.map (preparedPolicy g (toKey k)) := by
  rcases loop_prepareStep (g := g) src.entries src.nodupKeys (∅ : Policy Enc PKH) with
    ⟨-, pol, hloop, hlookup⟩ | ⟨-, pol, e, hloop⟩
  · obtain rfl : pol = policy := by simpa [PreparePolicy, HashMap.ForEach, hloop] using h
    rw [hlookup, AList.lookup_empty, Option.or_none]
    rfl
  · simp [PreparePolicy, HashMap.ForEach, hloop] at h

/-- **A configuration is refused exactly if some entry has a name that is not known.** -/
theorem preparePolicy_error_iff {src : TezosConfig Enc PK} :
    (PreparePolicy g src).2 ≠ none ↔ ∃ k v, src.lookup k = some (some v) ∧ ¬ Known g v := by
  have hentry : (∃ e ∈ src.entries, ¬ KnownEntry g e.2) ↔ ∃ k v, src.lookup k = some (some v) ∧ ¬ Known g v := by
    constructor
    · rintro ⟨⟨k, v⟩, hmem, hbad⟩
      obtain ⟨p, hp, hnot⟩ : ∃ p, v = some p ∧ ¬ Known g p := by
        simpa [KnownEntry, eq_comm] using hbad
      subst hp
      exact ⟨k, p, (List.mem_dlookup_iff src.nodupKeys).2 hmem, hnot⟩
    · rintro ⟨k, p, hlookup, hnot⟩
      refine ⟨⟨k, some p⟩, (List.mem_dlookup_iff src.nodupKeys).1 hlookup, fun hknown => ?_⟩
      exact hnot (hknown p rfl)
  rw [← hentry]
  rcases loop_prepareStep (g := g) src.entries src.nodupKeys (∅ : Policy Enc PKH) with
    ⟨hall, pol, hloop, -⟩ | ⟨hbad, pol, e, hloop⟩
  · have hnone : (PreparePolicy g src).2 = none := by simp [PreparePolicy, HashMap.ForEach, hloop]
    simp only [hnone, ne_eq, not_true, false_iff, not_exists, not_and, not_not]
    exact hall
  · have hsome : (PreparePolicy g src).2 = some e := by simp [PreparePolicy, HashMap.ForEach, hloop]
    simp only [hsome, ne_eq, reduceCtorEq, not_false_eq_true, true_iff]
    exact hbad

lemma preparePolicy_singleton {k : Enc} {v : TezosPolicy PK} (hknown : Known g v) :
    (PreparePolicy g (AList.singleton k (some v))).2 = none := by
  by_contra h
  obtain ⟨k', v', hlookup, hnot⟩ := preparePolicy_error_iff.1 h
  have hmem := (List.mem_dlookup_iff (AList.nodupKeys _)).1 hlookup
  simp only [AList.singleton_entries, List.mem_singleton, Sigma.mk.injEq, heq_eq_eq, Option.some.injEq] at hmem
  exact hnot (hmem.2 ▸ hknown)

end Config

/-! ## The filter -/

section Filter

variable [DecidableEq Enc] [ToComparable PKH Enc] {g : Gotez PKH PK} {policy : PublicKeyPolicy PKH}
  {req : SignRequest PKH} {msg : Request.SignRequest}

lemma matchChain_ok_iff : matchChain g policy msg = .ok () ↔
    ∀ chains ∈ policy.allowedChains, ∀ m, msg.asWithWatermark = some m → g.chainText m.chainID ∈ chains := by
  unfold matchChain
  cases policy.allowedChains with
  | none => simp
  | some chains =>
    cases msg.asWithWatermark with
    | none => simp
    | some m => by_cases h : g.chainText m.chainID ∈ chains <;> simp [strInSlice, h]

lemma matchClient_ok_iff : matchClient g policy req = .ok () ↔
    ∀ hashes ∈ policy.authorizedKeyHashes, ∃ client, req.clientPublicKeyHash = some client ∧
      ∃ k ∈ hashes, toComparable k = toComparable client := by
  unfold matchClient
  cases policy.authorizedKeyHashes with
  | none => simp
  | some hashes =>
    cases req.clientPublicKeyHash with
    | none => simp
    | some client => simp

lemma matchRequest_ok_iff : matchRequest policy msg = .ok () ↔ msg.SignRequestKind ∈ policy.allowedRequests := by
  by_cases h : msg.SignRequestKind ∈ policy.allowedRequests <;> simp [matchRequest, strInSlice, h]

lemma allowedOperation_iff (op : OperationContents) :
    (allowedOperation policy op).2 = true ↔ OperationMeant policy.allowedOps op := by
  cases op <;> simp [allowedOperation, OperationMeant, strInSlice, GetOperationKind]

lemma matchOperations_ok_iff (ops : List OperationContents) :
    matchOperations policy ops = .ok () ↔ ∀ op ∈ ops, OperationMeant policy.allowedOps op := by
  induction ops with
  | nil => simp [matchOperations]
  | cons op ops ih =>
    rw [List.forall_mem_cons, ← allowedOperation_iff, ← ih, matchOperations]
    rcases allowedOperation policy op with ⟨opKind, _ | _⟩ <;> simp

/-- **What `matchFilter` accepts**, check by check. -/
theorem matchFilter_ok_iff : matchFilter g policy req msg = .ok () ↔
    matchChain g policy msg = .ok () ∧ matchClient g policy req = .ok () ∧ matchRequest policy msg = .ok () ∧
      matchOperations policy ((getOperations req msg).getD []) = .ok () := by
  unfold matchFilter
  rw [bind_unit_ok_iff, bind_unit_ok_iff, bind_unit_ok_iff]

/-- The decoder and the search for operations look into the same package. -/
lemma mem_getOperations (h : getSignRequest g req = .ok msg) (op : OperationContents) :
    op ∈ (getOperations req msg).getD [] ↔ ∃ contents, msg.proto = .generic contents ∧ op ∈ contents := by
  unfold getSignRequest at h
  unfold getOperations
  split at h
  case h_1 hv =>
    obtain ⟨r, -, rfl⟩ := ok_map_iff.1 h
    cases r.1 <;> simp [hv, Request.SignRequest.proto]
  case h_2 hv =>
    obtain ⟨r, -, rfl⟩ := ok_map_iff.1 h
    cases r.1 <;> simp [Request.SignRequest.proto]

end Filter

/-! ## The refinement -/

section Refinement

variable [DecidableEq Enc] [ToComparable PKH Enc] {g : Gotez PKH PK}

/-- A policy that holds the same names, chains and clients as an entry admits what the entry means. -/
lemma matchFilter_iff_meant {pol : PublicKeyPolicy PKH} {v : Option (TezosPolicy PK)} {req : SignRequest PKH}
    {msg : Request.SignRequest} (hmsg : getSignRequest g req = .ok msg)
    (hreq : ∀ s, s ∈ pol.allowedRequests ↔ s ∈ meantRequests v)
    (hops : ∀ s, s ∈ pol.allowedOps ↔ s ∈ meantOperations v)
    (hchains : pol.allowedChains = v.bind fun p => p.allowedChains)
    (hkeys : pol.authorizedKeyHashes =
      v.bind fun p => p.authorizedKeys.map fun keys => keys.toList.map g.hash) :
    matchFilter g pol req msg = .ok () ↔ Meant g v req msg := by
  have hop : ∀ op, OperationMeant pol.allowedOps op ↔ OperationMeant (meantOperations v) op := by
    intro op
    cases op <;> simp [OperationMeant, hops]
  rw [matchFilter_ok_iff, matchChain_ok_iff, matchClient_ok_iff, matchRequest_ok_iff, matchOperations_ok_iff, hreq]
  simp only [mem_getOperations hmsg, hop, hchains, hkeys]
  constructor
  · rintro ⟨hchain, hclient, hrequest, hoperations⟩
    refine ⟨hrequest, fun contents hc op hop => hoperations op ⟨contents, hc, hop⟩, ?_, ?_⟩
    · rintro p rfl chains hchains
      exact hchain chains hchains
    · rintro p rfl keys hkeys
      simpa using hclient (keys.toList.map g.hash) (by simpa using ⟨keys, hkeys, rfl⟩)
  · rintro ⟨hrequest, hoperations, hchain, hclient⟩
    refine ⟨?_, ?_, hrequest, fun op ⟨contents, hc, hop⟩ => hoperations contents hc op hop⟩
    · intro chains hchains
      obtain ⟨p, hp, hchains⟩ := Option.bind_eq_some_iff.1 hchains
      exact hchain p hp chains hchains
    · intro hashes hhashes
      obtain ⟨p, hp, hkeys⟩ := Option.bind_eq_some_iff.1 hhashes
      obtain ⟨keys, hlisted, rfl⟩ := Option.map_eq_some_iff.1 hkeys
      simpa using hclient p hp keys hlisted

lemma fetchPolicyOrDefault_meant [LawfulToComparable PKH Enc] {src : TezosConfig Enc PK} {policy : Policy Enc PKH}
    (hprep : PreparePolicy g src = (policy, none)) {pkh : PKH} {v : Option (TezosPolicy PK)}
    (hkey : src.Get pkh = some v) :
    ∃ pol, fetchPolicyOrDefault policy pkh = some pol ∧
      ∀ req msg, getSignRequest g req = .ok msg → (matchFilter g pol req msg = .ok () ↔ Meant g v req msg) := by
  have hget : policy.Get pkh = some (v.map (preparedPolicy g (toKey (toComparable pkh)))) := by
    have hlookup := lookup_preparePolicy hprep (toComparable pkh)
    rw [show src.lookup (toComparable pkh) = some v from hkey] at hlookup
    exact hlookup
  cases v with
  | none =>
    refine ⟨defaultPolicy, by simp [fetchPolicyOrDefault, hget], fun req msg hmsg => ?_⟩
    exact matchFilter_iff_meant hmsg (fun _ => Iff.rfl) (fun _ => Iff.rfl) rfl rfl
  | some p =>
    refine ⟨preparedPolicy g (toKey (toComparable pkh)) p, by simp [fetchPolicyOrDefault, hget],
      fun req msg hmsg => ?_⟩
    exact matchFilter_iff_meant hmsg (fun _ => mem_requestNames) (fun _ => mem_operationNames) rfl rfl

/-- **The prepared policy means what the configuration says.**  A configuration is refused exactly if an entry
has a name that is not known.  One that is accepted has a policy for every key in it, and with this policy
`matchFilter` accepts exactly the decoded requests that the entry of the key means. -/
theorem policy_means_configuration [LawfulToComparable PKH Enc] (src : TezosConfig Enc PK) :
    ((PreparePolicy g src).2 ≠ none ↔ ∃ k v, src.lookup k = some (some v) ∧ ¬ Known g v) ∧
      ∀ policy, PreparePolicy g src = (policy, none) → ∀ (pkh : PKH) v, src.Get pkh = some v →
        ∃ pol, fetchPolicyOrDefault policy pkh = some pol ∧
          ∀ req msg, getSignRequest g req = .ok msg → (matchFilter g pol req msg = .ok () ↔ Meant g v req msg) := by
  refine ⟨preparePolicy_error_iff, ?_⟩
  intro policy hprep pkh v hkey
  exact fetchPolicyOrDefault_meant hprep hkey

end Refinement

/-- A small protocol: the first byte of a message tells a block from a vote in a ballot, and the rest is left
undecoded. -/
def sampleGotez : Gotez EncodedPublicKeyHash EncodedPublicKeyHash where
  chainText _ := "main"
  pkhText _ := "tz1"
  hash := id
  isBLS _ := false
  listSignRequests := ["block", "preattestation", "attestation", "generic"]
  listGenericOperations := ["ballot", "transaction"]
  listPseudoOperations := []
  decodeV1 _ := .error { text := "unknown" }
  decodeLatest
    | 17 :: rest => .ok (.withWatermark ⟨"block", 0, 1, 0⟩, rest)
    | 3 :: rest => .ok (.generic [.ballot .yay], rest)
    | _ => .error { text := "unknown" }
  digest message := BitVec.ofNat 256 message.length

/-- A request for the key `0` with the given message. -/
def sampleRequest (message : Bytes) : SignRequest EncodedPublicKeyHash where
  clientPublicKeyHash := none
  publicKeyHash := 0
  signOptions := ⟨2⟩
  source := []
  message := message

/-- An entry in the deprecated syntax, with a legacy name. -/
def samplePolicy : TezosPolicy EncodedPublicKeyHash where
  allow := none
  allowedOperations := some ["generic", "endorsement"]
  allowedKinds := some ["ballot:yay"]
  allowedChains := none
  allowProofOfPossession := false
  authorizedKeys := none
  jwtUsers := none

/-- With this entry for its key, a yay vote is accepted and a block is not. -/
theorem policy_means_configuration_ballot :
    ∃ policy pol, PreparePolicy sampleGotez (AList.singleton 0 (some samplePolicy)) = (policy, none) ∧
      fetchPolicyOrDefault policy (0 : EncodedPublicKeyHash) = some pol ∧
      matchFilter sampleGotez pol (sampleRequest [3]) (.latest (.generic [.ballot .yay])) = .ok () ∧
      matchFilter sampleGotez pol (sampleRequest [17]) (.latest (.withWatermark ⟨"block", 0, 1, 0⟩)) ≠ .ok () := by
  obtain ⟨-, hgood⟩ := policy_means_configuration (g := sampleGotez) (AList.singleton 0 (some samplePolicy))
  have hknown : Known sampleGotez samplePolicy := by unfold Known; decide
  have hnone := preparePolicy_singleton (k := 0) hknown
  obtain ⟨pol, hfetch, hiff⟩ := hgood _ (Prod.ext rfl hnone) 0 (some samplePolicy) rfl
  refine ⟨_, pol, Prod.ext rfl hnone, hfetch, (hiff (sampleRequest [3]) _ rfl).2 ⟨by decide, ?_, ?_, ?_⟩, fun h => ?_⟩
  · rintro contents ⟨⟩ op hop
    obtain rfl := List.mem_singleton.1 hop
    exact Or.inr (by decide)
  · rintro p ⟨⟩ chains ⟨⟩
  · rintro p ⟨⟩ keys ⟨⟩
  · exact absurd ((hiff (sampleRequest [17]) _ rfl).1 h).request (by decide)

end Signatory.Signer

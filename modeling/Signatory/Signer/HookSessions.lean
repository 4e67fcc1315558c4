import Signatory.Lib.Fallible
import Signatory.Lib.Machine
import Signatory.Auth
import Signatory.Signer.PolicyHook
import Signatory.Signer.PolicyMeaning

/-!
# Sessions of an authenticated policy hook

Any number of calls of `callPolicyHook` are under way at a time, and the network is in the hands of an adversary.
A session draws a nonce and sends its request; the service approves requests; the holders of keys sign payloads; and
the adversary answers a session with whatever it likes (`Action.deliver`).  What is assumed of the parties is a guard
on the actions (`Assumed`): nonces are distinct, the service gets the requests as they were sent, and a reply that
verifies under an authorized key holds a payload that the holder of this key has signed.

* `authenticateReply_ok`: what a reply that is accepted looks like;
* `Inv`: what holds of every state that can be reached;
* `hook_approvals_bound`: approvals can be neither replayed nor swapped.
-/

namespace Signatory.Signer

open Hashmap Lib.Fallible Lib.Machine

variable {PKH PK Sig ι : Type}

/-! ## One session -/

section Session

variable (g : Gotez PKH PK) (codec : HookCodec PKH PK Sig)

lemma callPolicyHook_auth (address : String) (getPublicKey : PKH → Except Error PK) (nonce : Bytes)
    (post : String → PolicyHookRequest → Except Error Response) (req : SignRequest PKH) :
    callPolicyHook g codec (some ⟨address, some getPublicKey⟩) ⟨.ok nonce, post⟩ req =
      post address (hookRequest g req nonce) >>= authenticateReply codec getPublicKey (hookRequest g req nonce) := rfl

/-- A reply that passes all checks: its payload has the nonce of the request and a status 2xx, and its signature
verifies under the key that the payload names. -/
structure Authentic (getPublicKey : PKH → Except Error PK) (nonce : Bytes) (reply : PolicyHookReply)
    (pl : PolicyHookReplyPayload) (pkh : PKH) (pub : PK) (sig : Sig) : Prop where
  payload : codec.unmarshalPayload reply.payload = .ok pl
  nonce : pl.nonce = nonce
  status : pl.status / 100 = 2
  named : codec.ParsePublicKeyHash pl.publicKeyHash = .ok pkh
  authorized : getPublicKey pkh = .ok pub
  signature : codec.ParseSignature reply.signature = .ok sig
  verified : codec.Verify sig pub reply.payload = true

variable {g codec}

theorem authenticateReply_ok {getPublicKey : PKH → Except Error PK} {hookReq : PolicyHookRequest} {resp : Response}
    (h : authenticateReply codec getPublicKey hookReq resp = .ok ()) :
    ∃ reply pl pkh pub sig, codec.decodeReply resp.body = .ok reply ∧
      Authentic codec getPublicKey hookReq.nonce reply pl pkh pub sig := by
  simp only [authenticateReply, ok_bind_iff, ok_check_bind_iff, ok_check_iff, ok_mapError_iff] at h
  obtain ⟨reply, hreply, pl, hpl, hstatus, hnonce, pkh, hpkh, pub, hpub, sig, hsig, hverify, h2xx, -⟩ := h
  refine ⟨reply, pl, pkh, pub, sig, hreply, hpl, not_not.1 hnonce, ?_, hpkh, hpub, hsig, ?_⟩
  · rw [not_not.1 hstatus]
    omega
  · simpa using hverify

end Session

/-! ## All sessions and the adversary -/

/-- A session: what it was called with, the nonce it has drawn, and the answer it was given, if any. -/
structure Session (PKH : Type) where
  req : SignRequest PKH
  nonce : Bytes
  answer : Option (Except Error Response)

/-- The sessions, the payloads that the holders of keys have signed, and the requests that the service has approved. -/
structure Sessions (PKH PK ι : Type) where
  sessions : ι → Option (Session PKH)
  signed : List (PK × Bytes)
  approved : List PolicyHookRequest

inductive Action (PKH PK ι : Type) where
  | call (i : ι) (req : SignRequest PKH) (nonce : Bytes)
  | approve (r : PolicyHookRequest)
  | sign (pk : PK) (payload : Bytes)
  | deliver (i : ι) (answer : Except Error Response)

section Model

variable [DecidableEq ι] (g : Gotez PKH PK) (codec : HookCodec PKH PK Sig) (hook : PolicyHook PKH PK)

/-- What `callPolicyHook` returns to a session with the answer it was given. -/
def Session.result (s : Session PKH) : Option (Except Error Unit) :=
  s.answer.map fun answer => callPolicyHook g codec (some hook) ⟨.ok s.nonce, fun _ _ => answer⟩ s.req

/-- The session has returned nil. -/
def Session.Passed (s : Session PKH) : Prop := s.result g codec hook = some (.ok ())

/-- The payload of the reply that a session was given. -/
def Session.payload (s : Session PKH) : Option Bytes :=
  match s.answer with
  | some (.ok resp) => (codec.decodeReply resp.body).toOption.map fun reply => reply.payload
  | _ => none

/-- One action.  A session is called once, and takes one answer. -/
def Sessions.step (s : Sessions PKH PK ι) : Action PKH PK ι → Unit × Sessions PKH PK ι
  | .call i req nonce =>
    match s.sessions i with
    | none => ((), { s with sessions := Function.update s.sessions i (some ⟨req, nonce, none⟩) })
    | some _ => ((), s)
  | .approve r => ((), { s with approved := r :: s.approved })
  | .sign pk payload => ((), { s with signed := (pk, payload) :: s.signed })
  | .deliver i answer =>
    match s.sessions i with
    | some ⟨req, nonce, none⟩ =>
      ((), { s with sessions := Function.update s.sessions i (some ⟨req, nonce, some answer⟩) })
    | _ => ((), s)

def Sessions.init : Sessions PKH PK ι := ⟨fun _ => none, [], []⟩

/-- The request was sent by a session. -/
def Sessions.Sent (s : Sessions PKH PK ι) (r : PolicyHookRequest) : Prop :=
  ∃ i session, s.sessions i = some session ∧ hookRequest g session.req session.nonce = r

/-- The answer is no forgery: a payload that verifies under one of the keys was signed with that key. -/
def Unforged (keys : List PK) (signed : List (PK × Bytes)) (answer : Except Error Response) : Prop :=
  ∀ resp reply sig, answer = .ok resp → codec.decodeReply resp.body = .ok reply →
    codec.ParseSignature reply.signature = .ok sig →
    ∀ pk ∈ keys, codec.Verify sig pk reply.payload = true → (pk, reply.payload) ∈ signed

/-- **What is assumed** of an action: a nonce is drawn once, the service gets what the sessions have sent, and the
adversary cannot forge signatures of the authorized keys. -/
def Assumed (keys : List PK) (s : Sessions PKH PK ι) : Action PKH PK ι → Prop
  | .call _ _ nonce => ∀ j session, s.sessions j = some session → session.nonce ≠ nonce
  | .approve r => s.Sent g r
  | .sign _ _ => True
  | .deliver _ answer => Unforged codec keys s.signed answer

/-- A payload with a status 2xx is signed for a nonce only after a request with this nonce was approved. -/
def SignsApproved (keys : List PK) (s : Sessions PKH PK ι) : Action PKH PK ι → Prop
  | .sign pk payload => pk ∈ keys → ∀ pl, codec.unmarshalPayload payload = .ok pl → pl.status / 100 = 2 →
      ∃ r ∈ s.approved, r.nonce = pl.nonce
  | _ => True

end Model

/-! ## The invariant -/

section Step

variable [DecidableEq ι] {s : Sessions PKH PK ι} {a : Action PKH PK ι} {j : ι} {session : Session PKH}

/-- Where a session comes from: it was there, it was just called, or it was just given its answer. -/
lemma sessions_step (h : (s.step a).2.sessions j = some session) :
    s.sessions j = some session ∨
      (∃ req nonce, a = .call j req nonce ∧ s.sessions j = none ∧ session = ⟨req, nonce, none⟩) ∨
      ∃ req nonce answer, a = .deliver j answer ∧ s.sessions j = some ⟨req, nonce, none⟩ ∧
        session = ⟨req, nonce, some answer⟩ := by
  cases a with
  | approve r => exact Or.inl h
  | sign pk payload => exact Or.inl h
  | call i req nonce =>
    simp only [Sessions.step] at h
    cases hi : s.sessions i with
    | some old => exact Or.inl (by simpa [hi] using h)
    | none =>
      simp only [hi, Function.update_apply] at h
      split at h
      case isTrue hij =>
        subst hij
        exact Or.inr (Or.inl ⟨req, nonce, rfl, hi, (Option.some.inj h).symm⟩)
      case isFalse => exact Or.inl h
  | deliver i answer =>
    simp only [Sessions.step] at h
    split at h
    case h_1 req nonce hi =>
      simp only [Function.update_apply] at h
      split at h
      case isTrue hij =>
        subst hij
        exact Or.inr (Or.inr ⟨req, nonce, answer, rfl, hi, (Option.some.inj h).symm⟩)
      case isFalse => exact Or.inl h
    case h_2 => exact Or.inl h

lemma sessions_step_of_some (h : s.sessions j = some session) :
    ∃ session', (s.step a).2.sessions j = some session' ∧ session'.req = session.req ∧
      session'.nonce = session.nonce := by
  have hsame : s.sessions j = some session ∧ session.req = session.req ∧ session.nonce = session.nonce :=
    ⟨h, rfl, rfl⟩
  cases a with
  | approve r => exact ⟨session, hsame⟩
  | sign pk payload => exact ⟨session, hsame⟩
  | call i req nonce =>
    simp only [Sessions.step]
    cases hi : s.sessions i with
    | some old => exact ⟨session, hsame⟩
    | none =>
      have hij : j ≠ i := by
        rintro rfl
        rw [hi] at h
        cases h
      exact ⟨session, by simpa [hij] using hsame⟩
  | deliver i answer =>
    simp only [Sessions.step]
    split
    case h_1 req nonce hi =>
      by_cases hij : j = i
      · subst hij
        obtain rfl := Option.some.inj (h.symm.trans hi)
        exact ⟨⟨req, nonce, some answer⟩, by simp, rfl, rfl⟩
      · exact ⟨session, by simpa [hij] using hsame⟩
    case h_2 => exact ⟨session, hsame⟩

lemma mem_signed_step {x : PK × Bytes} : x ∈ (s.step a).2.signed ↔ x ∈ s.signed ∨ a = .sign x.1 x.2 := by
  cases a with
  | sign pk payload => simp [Sessions.step, Prod.ext_iff, or_comm, eq_comm]
  | approve r => simp [Sessions.step]
  | call i req nonce =>
    simp only [Sessions.step]
    split <;> simp
  | deliver i answer =>
    simp only [Sessions.step]
    split <;> simp

lemma mem_approved_step {r : PolicyHookRequest} : r ∈ (s.step a).2.approved ↔ r ∈ s.approved ∨ a = .approve r := by
  cases a with
  | approve r' => simp [Sessions.step, or_comm, eq_comm]
  | sign pk payload => simp [Sessions.step]
  | call i req nonce =>
    simp only [Sessions.step]
    split <;> simp
  | deliver i answer =>
    simp only [Sessions.step]
    split <;> simp

end Step

section Inv

variable [DecidableEq ι] (g : Gotez PKH PK) (codec : HookCodec PKH PK Sig) (keys : List PK)

structure Sessions.Inv (s : Sessions PKH PK ι) : Prop where
  nonces : ∀ i j a b, s.sessions i = some a → s.sessions j = some b → a.nonce = b.nonce → i = j
  unforged : ∀ i a answer, s.sessions i = some a → a.answer = some answer → Unforged codec keys s.signed answer
  sent : ∀ r ∈ s.approved, s.Sent g r

variable {g codec keys} {s : Sessions PKH PK ι}

lemma Unforged.step {answer : Except Error Response} (h : Unforged codec keys s.signed answer)
    (a : Action PKH PK ι) : Unforged codec keys (s.step a).2.signed answer := by
  intro resp reply sig hresp hreply hsig pk hpk hverify
  exact mem_signed_step.2 (Or.inl (h resp reply sig hresp hreply hsig pk hpk hverify))

lemma Sessions.Sent.step {r : PolicyHookRequest} (h : s.Sent g r) (a : Action PKH PK ι) : (s.step a).2.Sent g r := by
  obtain ⟨i, session, hi, rfl⟩ := h
  obtain ⟨session', hi', hreq, hnonce⟩ := sessions_step_of_some (a := a) hi
  exact ⟨i, session', hi', by rw [hreq, hnonce]⟩

lemma nonce_step {a : Action PKH PK ι} {j : ι} {b : Session PKH} (h : (s.step a).2.sessions j = some b) :
    (∃ b', s.sessions j = some b' ∧ b'.nonce = b.nonce) ∨ ∃ req, a = .call j req b.nonce ∧ s.sessions j = none := by
  rcases sessions_step h with h | ⟨req, nonce, rfl, hj, rfl⟩ | ⟨req, nonce, answer, rfl, hj, rfl⟩
  · exact Or.inl ⟨b, h, rfl⟩
  · exact Or.inr ⟨req, rfl, hj⟩
  · exact Or.inl ⟨_, hj, rfl⟩

theorem Sessions.Inv.step (h : s.Inv g codec keys) {a : Action PKH PK ι} (ha : Assumed g codec keys s a) :
    (s.step a).2.Inv g codec keys := by
  refine ⟨?_, ?_, ?_⟩
  · intro i j x y hx hy hxy
    rcases nonce_step hx with ⟨x', hx', hnx⟩ | ⟨req, rfl, hi⟩
    · rcases nonce_step hy with ⟨y', hy', hny⟩ | ⟨req, rfl, hj⟩
      · exact h.nonces i j x' y' hx' hy' (by rw [hnx, hny, hxy])
      · exact absurd (hnx.trans hxy) (ha i x' hx')
    · rcases nonce_step hy with ⟨y', hy', hny⟩ | ⟨req', e, -⟩
      · exact absurd (hny.trans hxy.symm) (ha j y' hy')
      · simp only [Action.call.injEq] at e
        exact e.1
  · intro i x answer hx hanswer
    rcases sessions_step hx with hx | ⟨req, nonce, rfl, -, rfl⟩ | ⟨req, nonce, answer', rfl, -, rfl⟩
    · exact (h.unforged i x answer hx hanswer).step a
    · cases hanswer
    · obtain rfl := Option.some.inj hanswer
      exact Unforged.step ha _
  · intro r hr
    rcases mem_approved_step.1 hr with hr | rfl
    · exact (h.sent r hr).step a
    · exact Sessions.Sent.step ha _

/-- Every payload with a status 2xx that an authorized key has signed answers a request that was approved. -/
def Sessions.Approves (codec : HookCodec PKH PK Sig) (keys : List PK) (s : Sessions PKH PK ι) : Prop :=
  ∀ pk payload, (pk, payload) ∈ s.signed → pk ∈ keys → ∀ pl, codec.unmarshalPayload payload = .ok pl →
    pl.status / 100 = 2 → ∃ r ∈ s.approved, r.nonce = pl.nonce

lemma Sessions.Approves.step (h : s.Approves codec keys) {a : Action PKH PK ι} (ha : SignsApproved codec keys s a) :
    (s.step a).2.Approves codec keys := by
  intro pk payload hmem hpk pl hpl h2xx
  have happroved : ∃ r ∈ s.approved, r.nonce = pl.nonce := by
    rcases mem_signed_step.1 hmem with hmem | rfl
    · exact h pk payload hmem hpk pl hpl h2xx
    · exact ha hpk pl hpl h2xx
  obtain ⟨r, hr, hn⟩ := happroved
  exact ⟨r, mem_approved_step.2 (Or.inl hr), hn⟩

end Inv

/-! ## Agreement -/

section Agreement

variable [DecidableEq ι] {Enc : Type} [DecidableEq Enc] [ToComparable PKH Enc] (g : Gotez PKH PK)
  (codec : HookCodec PKH PK Sig) (address : String) (keys : List PK)

/-- The hook that authenticates replies with the given keys. -/
def authenticatedHook : PolicyHook PKH PK := ⟨address, some (Auth.StaticAuthorizedKeys g.hash keys).GetPublicKey⟩

variable {g codec address keys}

lemma Session.Passed.authentic {session : Session PKH} (h : session.Passed g codec (authenticatedHook g address keys)) :
    ∃ resp reply pl pkh pub sig, session.answer = some (.ok resp) ∧ codec.decodeReply resp.body = .ok reply ∧
      pub ∈ keys ∧
        Authentic codec (Auth.StaticAuthorizedKeys g.hash keys).GetPublicKey session.nonce reply pl pkh pub sig := by
  obtain ⟨answer, hanswer, hok⟩ := Option.map_eq_some_iff.1 h
  unfold authenticatedHook at hok
  rw [callPolicyHook_auth] at hok
  cases answer with
  | error e => cases hok
  | ok resp =>
    obtain ⟨reply, pl, pkh, pub, sig, hreply, hauth⟩ := authenticateReply_ok hok
    exact ⟨resp, reply, pl, pkh, pub, sig, hanswer, hreply, (Auth.getPublicKey_static hauth.authorized).1, hauth⟩

omit [DecidableEq ι] in
/-- The payload that a session which has returned nil was given: an authorized key has signed it, and it has a status
2xx and the nonce of the session. -/
lemma Sessions.Inv.signed_of_passed {s : Sessions PKH PK ι} (h : s.Inv g codec keys) {i : ι} {session : Session PKH}
    (hi : s.sessions i = some session) (hpass : session.Passed g codec (authenticatedHook g address keys)) :
    ∃ pk ∈ keys, ∃ payload pl, session.payload codec = some payload ∧ (pk, payload) ∈ s.signed ∧
      codec.unmarshalPayload payload = .ok pl ∧ pl.status / 100 = 2 ∧ pl.nonce = session.nonce := by
  obtain ⟨resp, reply, pl, pkh, pk, sig, hanswer, hreply, hpk, hauth⟩ := hpass.authentic
  refine ⟨pk, hpk, reply.payload, pl, ?_, ?_, hauth.payload, hauth.status, hauth.nonce⟩
  · simp [Session.payload, hanswer, hreply, Except.toOption]
  · exact h.unforged i session _ hi hanswer resp reply sig rfl hreply hauth.signature pk hpk hauth.verified

/-- **Approvals are neither replayed nor swapped.**  In every run of sessions against the adversary:

* a session returns nil only if the holder of an authorized key has signed the payload it was given, with a status
  2xx and the nonce of the session;
* two sessions that return nil were given different payloads;
* if payloads with a status 2xx are signed for a nonce only after the request with it was approved, then the request
  of every session that returns nil was approved, with its message, source, key hash and client key hash. -/
theorem hook_approvals_bound {acts : List (Action PKH PK ι)}
    (hrun : Along Sessions.step (Assumed g codec keys) Sessions.init acts) :
    let s := final Sessions.step Sessions.init acts
    let Passed := fun i session =>
      s.sessions i = some session ∧ session.Passed g codec (authenticatedHook g address keys)
    (∀ i session, Passed i session → ∃ pk ∈ keys, ∃ payload pl, session.payload codec = some payload ∧
        (pk, payload) ∈ s.signed ∧ codec.unmarshalPayload payload = .ok pl ∧ pl.status / 100 = 2 ∧
        pl.nonce = session.nonce) ∧
      (∀ i j a b, Passed i a → Passed j b → a.payload codec = b.payload codec → i = j) ∧
      (Along Sessions.step (SignsApproved codec keys) Sessions.init acts → ∀ i session, Passed i session →
        ∃ r ∈ s.approved, r.request = session.req.message ∧ r.source = session.req.source ∧
          r.publicKeyHash = g.pkhText session.req.publicKeyHash ∧
          r.clientKeyHash = (session.req.clientPublicKeyHash.map g.pkhText).getD "" ∧ r.nonce = session.nonce) := by
  intro s Passed
  have hinv : s.Inv g codec keys := by
    refine inv_events (I := fun _ (s : Sessions PKH PK ι) => s.Inv g codec keys) ⟨?_, ?_, ?_⟩ ?_ hrun
    · intro i j a b hi
      cases hi
    · intro i a answer hi
      cases hi
    · intro r hr
      cases hr
    · intro _ s a h ha
      exact h.step ha
  refine ⟨?_, ?_, ?_⟩
  · rintro i session ⟨hi, hpass⟩
    exact hinv.signed_of_passed hi hpass
  · rintro i j a b ⟨hi, ha⟩ ⟨hj, hb⟩ hab
    obtain ⟨-, -, payload, pl, hpa, -, hpl, -, hna⟩ := hinv.signed_of_passed hi ha
    obtain ⟨-, -, payload', pl', hpb, -, hpl', -, hnb⟩ := hinv.signed_of_passed hj hb
    obtain rfl : payload = payload' := Option.some.inj (hpa.symm.trans (hab.trans hpb))
    obtain rfl : pl = pl' := Except.ok.inj (hpl.symm.trans hpl')
    exact hinv.nonces i j a b hi hj (hna.symm.trans hnb)
  · rintro hservice i session ⟨hi, hpass⟩
    have happroves : s.Approves codec keys := by
      refine inv_events (I := fun _ (s : Sessions PKH PK ι) => s.Approves codec keys) ?_ ?_ hservice
      · intro pk payload hmem
        cases hmem
      · intro _ s a h ha
        exact h.step ha
    obtain ⟨pk, hpk, payload, pl, -, hsigned, hpl, h2xx, hnonce⟩ := hinv.signed_of_passed hi hpass
    obtain ⟨r, hr, hrn⟩ := happroves pk payload hsigned hpk pl hpl h2xx
    -- the nonce says which session has sent the request
    obtain ⟨j, session', hj, rfl⟩ := hinv.sent r hr
    have hnn : session'.nonce = session.nonce := hrn.trans hnonce
    obtain rfl := hinv.nonces j i session' session hj hi hnn
    obtain rfl := Option.some.inj (hj.symm.trans hi)
    exact ⟨_, hr, rfl, rfl, rfl, rfl, rfl⟩

end Agreement

/-- A payload is a nonce, and says that the status is 200; the one key signs it. -/
def nonceCodec : HookCodec EncodedPublicKeyHash EncodedPublicKeyHash Unit where
  decodeReply body := .ok ⟨body, "edsig"⟩
  unmarshalPayload payload := .ok ⟨200, "", "tz1", payload⟩
  ParsePublicKeyHash _ := .ok 0
  ParseSignature _ := .ok ()
  Verify _ pk payload := decide (pk = 0 ∧ payload = [1])

/-- Two sessions are called, the service approves the request of the first and signs a reply, and the adversary gives
the reply to the second session before it gives it to the first. -/
def redirected : List (Action EncodedPublicKeyHash EncodedPublicKeyHash ℕ) :=
  let reply : Except Error Response := .ok ⟨200, "200 OK", [1]⟩
  [.call 0 (sampleRequest [17]) [1], .call 1 (sampleRequest [18]) [2],
    .approve (hookRequest sampleGotez (sampleRequest [17]) [1]), .sign 0 [1], .deliver 1 reply, .deliver 0 reply]

lemma unforged_nonceCodec (signed : List (EncodedPublicKeyHash × Bytes)) (h : (0, [1]) ∈ signed)
    (answer : Except Error Response) : Unforged nonceCodec [0] signed answer := by
  intro resp reply sig hanswer hreply hsig pk hpk hverify
  obtain ⟨rfl, hpayload⟩ := of_decide_eq_true hverify
  rw [hpayload]
  exact h

theorem hook_approvals_bound_redirected :
    let s := final Sessions.step Sessions.init redirected
    (∃ session, s.sessions 1 = some session ∧
        ¬ session.Passed sampleGotez nonceCodec (authenticatedHook sampleGotez "hook" [0])) ∧
      ∃ session, s.sessions 0 = some session ∧
        session.Passed sampleGotez nonceCodec (authenticatedHook sampleGotez "hook" [0]) ∧
        ∃ r ∈ s.approved, r.request = [17] ∧ r.nonce = [1] := by
  intro s
  have hrun : Along Sessions.step (Assumed sampleGotez nonceCodec [0]) Sessions.init redirected := by
    refine ⟨?_, ?_, ?_, trivial, unforged_nonceCodec _ (by decide) _, unforged_nonceCodec _ (by decide) _, trivial⟩
    · intro j session hj
      cases hj
    · intro j session hj
      simp only [Sessions.step, Sessions.init, Function.update_apply] at hj
      split at hj
      · obtain rfl := Option.some.inj hj
        decide
      · cases hj
    · exact ⟨0, ⟨sampleRequest [17], [1], none⟩, rfl, rfl⟩
  have hservice : Along Sessions.step (SignsApproved nonceCodec [0]) Sessions.init redirected := by
    refine ⟨trivial, trivial, trivial, ?_, trivial, trivial, trivial⟩
    intro _ pl hpl _
    obtain rfl := Except.ok.inj hpl
    exact ⟨_, List.mem_cons_self, rfl⟩
  have hfirst : s.sessions 0 = some ⟨sampleRequest [17], [1], some (.ok ⟨200, "200 OK", [1]⟩)⟩ := rfl
  have hpass : Session.Passed sampleGotez nonceCodec (authenticatedHook sampleGotez "hook" [0])
      ⟨sampleRequest [17], [1], some (.ok ⟨200, "200 OK", [1]⟩)⟩ := rfl
  obtain ⟨r, hr, hrequest, -, -, -, hnonce⟩ := (hook_approvals_bound hrun).2.2 hservice 0 _ ⟨hfirst, hpass⟩
  refine ⟨⟨_, rfl, ?_⟩, _, hfirst, hpass, r, hr, hrequest, hnonce⟩
  -- the second session has another nonce
  unfold Session.Passed
  decide

end Signatory.Signer

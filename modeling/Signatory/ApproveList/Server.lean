import Mathlib.Logic.Equiv.List
import Signatory.ApproveList.Addresses
import Signatory.Signer.HookSessions
import Signatory.Signer.Mediation

/-!
# `cmd/approve-list-svc/server`: the service behind the policy hook

The service is the other end of `callPolicyHook`: it answers a request with the status 200 or 403 after the source of
the request, and signs what it answers.  JSON and signatures are the parameter `Codec`; that the two ends understand
each other is `Agree`.

* `handler_isSome_iff`: without a private key there is no handler, since `Handler` asks for the public key first;
* `list_decides`: what the signatory makes of the answer, authenticated or not;
* `listed_of_key_use`: a signatory with this hook uses keys for listed sources only.
-/

namespace Signatory.ApproveList

open Hashmap Lib.Command Lib.Fallible
open Signer hiding New

variable {Priv PKH PK Sig : Type}

/-! ## The handler -/

/-- The statuses of the service. -/
inductive Status where
  | ok
  | noContent
  | badRequest
  | forbidden
  | internalServerError

def Status.code : Status → ℕ
  | .ok => 200
  | .noContent => 204
  | .badRequest => 400
  | .forbidden => 403
  | .internalServerError => 500

/-- The field `Status` of a response, with `http.StatusText`. -/
def Status.line : Status → String
  | .ok => "200 OK"
  | .noContent => "204 No Content"
  | .badRequest => "400 Bad Request"
  | .forbidden => "403 Forbidden"
  | .internalServerError => "500 Internal Server Error"

/-- The response as the client gets it. -/
def respond (status : Status) (body : Bytes) : Response where
  statusCode := status.code
  status := status.line
  body := body

/-- JSON, the texts of addresses and signatures, and `crypt.PrivateKey`. -/
structure Codec (Priv PK Sig : Type) where
  decodeRequest : Bytes → Option PolicyHookRequest
  marshalPayload : PolicyHookReplyPayload → Except Error Bytes
  encodeReply : PolicyHookReply → Bytes
  ipText : IP → String
  sigText : Sig → String
  Public : Priv → PK
  Sign : Priv → Bytes → Except Error Sig

structure Server (Priv : Type) where
  privateKey : Option Priv
  addresses : List IP
  nets : List IPNet

section Model

variable (g : Gotez PKH PK) (c : Codec Priv PK Sig)

/-- What is signed. -/
def replyPayload (pub : PK) (req : PolicyHookRequest) (ok : Bool) : PolicyHookReplyPayload where
  status := if ok then Status.ok.code else Status.forbidden.code
  error := if ok then "" else "address " ++ c.ipText req.source ++ " is not allowed"
  publicKeyHash := g.pkhText (g.hash pub)
  nonce := req.nonce

/-- The reply with a private key. -/
def signedReply (key : Priv) (pub : PK) (req : PolicyHookRequest) (ok : Bool) : Response :=
  match c.marshalPayload (replyPayload g c pub req ok) with
  | .error _ => respond .internalServerError []
  | .ok buf =>
    match c.Sign key buf with
    | .error _ => respond .internalServerError []
    | .ok sig => respond (if ok then .ok else .forbidden) (c.encodeReply ⟨buf, c.sigText sig⟩)

/-- The function that `Handler` returns. -/
def serve (s : Server Priv) (pub : PK) (body : Bytes) : Response :=
  match c.decodeRequest body with
  | none => respond .badRequest []
  | some req =>
    let ok := approves s.addresses s.nets req.source
    match s.privateKey with
    | some key => signedReply g c key pub req ok
    | none => respond (if ok then .noContent else .forbidden) []

/-- `Server.Handler`; without a key it panics, in `s.PrivateKey.Public()`. -/
def Handler (s : Server Priv) : Option (Bytes → Response) := s.privateKey.map fun key => serve g c s (c.Public key)

end Model

theorem handler_isSome_iff {g : Gotez PKH PK} {c : Codec Priv PK Sig} {s : Server Priv} :
    (Handler g c s).isSome = true ↔ s.privateKey ≠ none := by
  rw [Handler, Option.isSome_map, Option.isSome_iff_ne_none]

/-! ## The two ends -/

/-- An address, or none: what `net.ParseIP` returns, in either form. -/
def IsSource (ip : IP) : Prop := ip.length = 0 ∨ ip.length = 4 ∨ ip.length = 16

instance (ip : IP) : Decidable (IsSource ip) := inferInstanceAs (Decidable (_ ∨ _ ∨ _))

/-- **The two ends understand each other**: requests, payloads, replies, hashes and signatures are read as they were
written.  An address is written as a text and read in its long form. -/
structure Agree (g : Gotez PKH PK) (c : Codec Priv PK Sig) (codec : HookCodec PKH PK Sig)
    (encodeRequest : PolicyHookRequest → Except Error Bytes) : Prop where
  request : ∀ r, IsSource r.source → ∃ body, encodeRequest r = .ok body ∧
    c.decodeRequest body = some { r with source := To16 r.source }
  payload : ∀ pl, ∃ buf, c.marshalPayload pl = .ok buf ∧ codec.unmarshalPayload buf = .ok pl
  reply : ∀ pl buf t, c.marshalPayload pl = .ok buf → codec.decodeReply (c.encodeReply ⟨buf, t⟩) = .ok ⟨buf, t⟩
  hash : ∀ key, codec.ParsePublicKeyHash (g.pkhText (g.hash (c.Public key))) = .ok (g.hash (c.Public key))
  signature : ∀ key buf sig, c.Sign key buf = .ok sig →
    codec.ParseSignature (c.sigText sig) = .ok sig ∧ codec.Verify sig (c.Public key) buf = true

/-- The hook is answered by the service. -/
def viaService (encodeRequest : PolicyHookRequest → Except Error Bytes) (handler : Bytes → Response) (nonce : Bytes) :
    HookAnswers where
  nonce := .ok nonce
  post _ r := do
    let body ← encodeRequest r
    return handler body

section Ends

variable {g : Gotez PKH PK} {c : Codec Priv PK Sig} {codec : HookCodec PKH PK Sig}
  {encodeRequest : PolicyHookRequest → Except Error Bytes}

/-- The error for a source that is not listed. -/
def notAllowed (c : Codec Priv PK Sig) (source : IP) : Error :=
  Wrap { text := "policy hook: " ++ ("address " ++ c.ipText (To16 source) ++ " is not allowed") } 403

lemma address_ne_empty (t : String) : "address " ++ t ++ " is not allowed" ≠ "" := by
  intro h
  have hlen := congrArg String.length h
  simp only [String.length_append] at hlen
  exact absurd hlen (by simp)

lemma statusCode_signedReply {key : Priv} {pub : PK} {r : PolicyHookRequest} {ok : Bool}
    (h : (signedReply g c key pub r ok).statusCode / 100 = 2) : ok = true := by
  unfold signedReply at h
  cases hmarshal : c.marshalPayload (replyPayload g c pub r ok) with
  | error e =>
    simp [hmarshal, respond, Status.code] at h
  | ok buf =>
    cases hsign : c.Sign key buf with
    | error e =>
      simp [hmarshal, hsign, respond, Status.code] at h
    | ok sig =>
      cases ok with
      | true => rfl
      | false => simp [hmarshal, hsign, respond, Status.code] at h

/-- The hook passes only with a status 2xx, whether the reply is authenticated or not. -/
lemma statusCode_of_hook_ok {hook : PolicyHook PKH PK} {handler : Bytes → Response} {nonce : Bytes}
    {req : SignRequest PKH}
    (h : callPolicyHook g codec (some hook) (viaService encodeRequest handler nonce) req = .ok ()) :
    ∃ body, encodeRequest (hookRequest g req nonce) = .ok body ∧ (handler body).statusCode / 100 = 2 := by
  simp only [callPolicyHook, viaService, ok_bind_iff, ok_pure_iff, Except.ok.injEq, exists_eq_left'] at h
  obtain ⟨_, ⟨body, hbody, rfl⟩, h⟩ := h
  refine ⟨body, hbody, ?_⟩
  cases hauth : hook.auth with
  | some getPublicKey =>
    rw [hauth] at h
    simp only [authenticateReply, ok_bind_iff, ok_check_bind_iff, ok_check_iff] at h
    obtain ⟨-, -, -, -, -, -, -, -, -, -, -, -, -, h2xx, -⟩ := h
    exact not_not.1 h2xx
  | none =>
    rw [hauth] at h
    exact not_not.1 (ok_check_iff.1 h).1

section Service

variable (hagree : Agree g c codec encodeRequest) {s : Server Priv} {key : Priv} (hkey : s.privateKey = some key)
  {texts : NetTexts} {list : List String} (hlist : Addresses texts list = .ok (s.addresses, s.nets))
  {req : SignRequest PKH} (hsource : IsSource req.source)

include hagree hkey hlist hsource

lemma serve_request (pub : PK) (nonce : Bytes) : ∃ body, encodeRequest (hookRequest g req nonce) = .ok body ∧
    ∃ ok, (ok = true ↔ Listed texts list req.source) ∧
      serve g c s pub body =
        signedReply g c key pub { hookRequest g req nonce with source := To16 req.source } ok := by
  obtain ⟨body, hbody, hdecode⟩ := hagree.request (hookRequest g req nonce) hsource
  refine ⟨body, hbody, _, (approves_iff hlist _).trans listed_to16, ?_⟩
  simp only [serve, hdecode, hkey]
  rfl

/-- **What passes is listed**, with any authorized keys and also without authentication. -/
lemma listed_of_hook_ok {hook : PolicyHook PKH PK} {nonce : Bytes} (h : callPolicyHook g codec (some hook)
      (viaService encodeRequest (serve g c s (c.Public key)) nonce) req = .ok ()) : Listed texts list req.source := by
  obtain ⟨body, hbody, h2xx⟩ := statusCode_of_hook_ok h
  obtain ⟨body', hbody', ok, hok, hserve⟩ := serve_request hagree hkey hlist hsource (c.Public key) nonce
  obtain rfl := Except.ok.inj (hbody.symm.trans hbody')
  rw [hserve] at h2xx
  exact hok.1 (statusCode_signedReply h2xx)

end Service

lemma authenticateReply_eq {getPublicKey : PKH → Except Error PK} {r : PolicyHookRequest} {resp : Response}
    {reply : PolicyHookReply} {pl : PolicyHookReplyPayload} {pkh : PKH} {pub : PK} {sig : Sig}
    (hdecode : codec.decodeReply resp.body = .ok reply) (hpayload : codec.unmarshalPayload reply.payload = .ok pl)
    (hstatus : pl.status = resp.statusCode) (hnonce : pl.nonce = r.nonce)
    (hpkh : codec.ParsePublicKeyHash pl.publicKeyHash = .ok pkh) (hpub : getPublicKey pkh = .ok pub)
    (hsig : codec.ParseSignature reply.signature = .ok sig) (hverify : codec.Verify sig pub reply.payload = true) :
    authenticateReply codec getPublicKey r resp =
      if resp.statusCode / 100 = 2 then .ok ()
      else .error (Wrap { text := "policy hook: " ++ if pl.error ≠ "" then pl.error else resp.status }
        (refusalStatus resp)) := by
  simp only [authenticateReply, bind, Except.bind, hdecode, hpayload, hstatus, hnonce, hpkh, hpub, hsig, hverify,
    Except.mapError, ne_eq, not_true, if_false, Bool.not_true, Bool.false_eq_true, ite_not]
  rfl

lemma signedReply_eq (hagree : Agree g c codec encodeRequest) {key : Priv}
    (hsigns : ∀ buf, ∃ sig, c.Sign key buf = .ok sig) (pub : PK) (r : PolicyHookRequest) (ok : Bool) :
    ∃ buf sig, c.marshalPayload (replyPayload g c pub r ok) = .ok buf ∧
      codec.unmarshalPayload buf = .ok (replyPayload g c pub r ok) ∧ c.Sign key buf = .ok sig ∧
      signedReply g c key pub r ok =
        respond (if ok then .ok else .forbidden) (c.encodeReply ⟨buf, c.sigText sig⟩) := by
  obtain ⟨buf, hmarshal, hunmarshal⟩ := hagree.payload (replyPayload g c pub r ok)
  obtain ⟨sig, hsign⟩ := hsigns buf
  exact ⟨buf, sig, hmarshal, hunmarshal, hsign, by simp only [signedReply, hmarshal, hsign]⟩

lemma authenticateReply_signedReply (hagree : Agree g c codec encodeRequest) {key : Priv}
    (hsigns : ∀ buf, ∃ sig, c.Sign key buf = .ok sig) {getPublicKey : PKH → Except Error PK}
    (hauth : getPublicKey (g.hash (c.Public key)) = .ok (c.Public key)) {r r' : PolicyHookRequest}
    (hnonce : r'.nonce = r.nonce) (ok : Bool) :
    authenticateReply codec getPublicKey r (signedReply g c key (c.Public key) r' ok) =
      if ok then .ok ()
      else .error
        (Wrap { text := "policy hook: " ++ ("address " ++ c.ipText r'.source ++ " is not allowed") } 403) := by
  obtain ⟨buf, sig, hmarshal, hunmarshal, hsign, hreply⟩ := signedReply_eq hagree hsigns (c.Public key) r' ok
  obtain ⟨hparse, hverify⟩ := hagree.signature key buf sig hsign
  rw [hreply]
  have hstatus : (replyPayload g c (c.Public key) r' ok).status =
      (respond (if ok then .ok else .forbidden) (c.encodeReply ⟨buf, c.sigText sig⟩)).statusCode := by
    cases ok <;> rfl
  rw [authenticateReply_eq (hagree.reply _ buf (c.sigText sig) hmarshal) hunmarshal hstatus hnonce (hagree.hash key)
    hauth hparse hverify]
  cases ok with
  | true => simp [respond, Status.code]
  | false =>
    have herror : (replyPayload g c (c.Public key) r' false).error ≠ "" := address_ne_empty _
    rw [if_pos herror]
    simp [respond, Status.code, refusalStatus, replyPayload]

/-- **The list decides.**  The service runs with the list of its configuration and a key that signs and that the hook
authorizes.  Then a request passes the hook if an entry of the list covers its source, and else it is refused with the
status 403 and the address in the text.  Without authentication it is the same but for the text. -/
theorem list_decides (hagree : Agree g c codec encodeRequest) {s : Server Priv} {key : Priv}
    (hkey : s.privateKey = some key) (hsigns : ∀ buf, ∃ sig, c.Sign key buf = .ok sig) {texts : NetTexts}
    {list : List String} (hlist : Addresses texts list = .ok (s.addresses, s.nets))
    {getPublicKey : PKH → Except Error PK} (hauth : getPublicKey (g.hash (c.Public key)) = .ok (c.Public key))
    {req : SignRequest PKH} (hsource : IsSource req.source) (address : String) (nonce : Bytes) :
    let answers := viaService encodeRequest (serve g c s (c.Public key)) nonce
    (Listed texts list req.source →
        callPolicyHook g codec (some ⟨address, some getPublicKey⟩) answers req = .ok () ∧
          callPolicyHook g codec (some ⟨address, none⟩) answers req = .ok ()) ∧
      (¬ Listed texts list req.source →
        callPolicyHook g codec (some ⟨address, some getPublicKey⟩) answers req = .error (notAllowed c req.source) ∧
          callPolicyHook g codec (some ⟨address, none⟩) answers req =
            .error (Wrap { text := "policy hook: " ++ Status.forbidden.line } 403)) := by
  intro answers
  obtain ⟨body, hbody, ok, hok, hserve⟩ := serve_request hagree hkey hlist hsource (c.Public key) nonce
  have hpost : answers.post address (hookRequest g req nonce) =
      .ok (signedReply g c key (c.Public key) { hookRequest g req nonce with source := To16 req.source } ok) := by
    simp only [answers, viaService, hbody, ← hserve]
    rfl
  have hauthenticated : callPolicyHook g codec (some ⟨address, some getPublicKey⟩) answers req =
      if ok then .ok () else .error (notAllowed c req.source) := by
    refine (callPolicyHook_auth g codec address getPublicKey nonce answers.post req).trans ?_
    rw [hpost]
    exact authenticateReply_signedReply hagree hsigns hauth rfl ok
  have hplain : callPolicyHook g codec (some ⟨address, none⟩) answers req =
      if ok then .ok () else .error (Wrap { text := "policy hook: " ++ Status.forbidden.line } 403) := by
    have hcall : callPolicyHook g codec (some ⟨address, none⟩) answers req =
        answers.post address (hookRequest g req nonce) >>= fun resp =>
          if resp.statusCode / 100 ≠ 2 then throw (Wrap { text := "policy hook: " ++ resp.status } (refusalStatus resp))
          else pure () := rfl
    obtain ⟨_, _, -, -, -, hreply⟩ := signedReply_eq hagree hsigns (c.Public key)
      { hookRequest g req nonce with source := To16 req.source } ok
    rw [hcall, hpost, hreply]
    cases ok <;> simp [bind, Except.bind, respond, Status.code, refusalStatus] <;> rfl
  rw [hauthenticated, hplain]
  cases ok with
  | true => exact ⟨fun _ => ⟨rfl, rfl⟩, fun hno => absurd (hok.1 rfl) hno⟩
  | false => exact ⟨fun hyes => absurd (hok.2 hyes) (by decide), fun _ => ⟨rfl, rfl⟩⟩

end Ends

/-! ### A small service -/

/-- A value as a number of bytes. -/
def tally {α : Type} [Encodable α] (a : α) : Bytes := List.replicate (Encodable.encode a) 0

def untally (α : Type) [Encodable α] (body : Bytes) : Option α := Encodable.decode body.length

@[simp] lemma untally_tally {α : Type} [Encodable α] (a : α) : untally α (tally a) = some a := by
  rw [untally, tally, List.length_replicate, Encodable.encodek]

def codes (t : String) : List ℕ := t.toList.map Char.toNat

def ofCodes (l : List ℕ) : String := String.ofList (l.map Char.ofNat)

@[simp] lemma ofCodes_codes (t : String) : ofCodes (codes t) = t := by
  simp [ofCodes, codes, Function.comp_def]

def octets (bs : Bytes) : List ℕ := bs.map UInt8.toNat

def ofOctets (l : List ℕ) : Bytes := l.map UInt8.ofNat

@[simp] lemma ofOctets_octets (bs : Bytes) : ofOctets (octets bs) = bs := by
  simp [ofOctets, octets, Function.comp_def]

/-- Requests, payloads and replies are tallied. -/
def tallyRequest (r : PolicyHookRequest) : Bytes :=
  tally (octets r.request, octets (To16 r.source), codes r.clientKeyHash, codes r.publicKeyHash, octets r.nonce)

def tallyPayload (pl : PolicyHookReplyPayload) : Bytes :=
  tally (pl.status, codes pl.error, codes pl.publicKeyHash, octets pl.nonce)

def tallyReply (reply : PolicyHookReply) : Bytes := tally (octets reply.payload, codes reply.signature)

/-- One key, which signs everything. -/
def smallCodec : Codec Unit EncodedPublicKeyHash Unit where
  decodeRequest body := (untally (List ℕ × List ℕ × List ℕ × List ℕ × List ℕ) body).map fun t =>
    ⟨ofOctets t.1, ofOctets t.2.1, ofCodes t.2.2.1, ofCodes t.2.2.2.1, ofOctets t.2.2.2.2⟩
  marshalPayload pl := .ok (tallyPayload pl)
  encodeReply := tallyReply
  ipText ip := ".".intercalate (ip.map fun b => toString b.toNat)
  sigText _ := "edsig"
  Public _ := 0
  Sign _ _ := .ok ()

def smallHookCodec : HookCodec EncodedPublicKeyHash EncodedPublicKeyHash Unit where
  decodeReply body :=
    match untally (List ℕ × List ℕ) body with
    | some t => .ok ⟨ofOctets t.1, ofCodes t.2⟩
    | none => .error { text := "EOF" }
  unmarshalPayload payload :=
    match untally (ℤ × List ℕ × List ℕ × List ℕ) payload with
    | some t => .ok ⟨t.1, ofCodes t.2.1, ofCodes t.2.2.1, ofOctets t.2.2.2⟩
    | none => .error { text := "EOF" }
  ParsePublicKeyHash _ := .ok 0
  ParseSignature _ := .ok ()
  Verify _ _ _ := true

lemma small_agree : Agree sampleGotez smallCodec smallHookCodec fun r => .ok (tallyRequest r) where
  request r _ := ⟨_, rfl, by simp [smallCodec, tallyRequest]⟩
  payload pl := ⟨_, rfl, by simp [smallHookCodec, tallyPayload]⟩
  reply pl buf t _ := by simp [smallHookCodec, smallCodec, tallyReply]
  hash _ := rfl
  signature _ _ _ _ := ⟨rfl, rfl⟩

/-- The list `10.0.0.0/8`. -/
def tenTexts : NetTexts where
  cidr t := if t = "10.0.0.0/8" then some ⟨⟨[10, 0, 0, 0], Or.inl rfl⟩, 8, by decide⟩ else none
  addr _ := none

def tenServer : Server Unit := ⟨some (), [], [Prefix.net ⟨⟨[10, 0, 0, 0], Or.inl rfl⟩, 8, by decide⟩]⟩

lemma ten_addresses : Addresses tenTexts ["10.0.0.0/8"] = .ok (tenServer.addresses, tenServer.nets) := rfl

def requestFrom (source : IP) : SignRequest EncodedPublicKeyHash := { sampleRequest [17] with source }

def tenAnswers : HookAnswers :=
  viaService (fun r => .ok (tallyRequest r)) (serve sampleGotez smallCodec tenServer 0) [1]

lemma listed_ten_iff (source : IP) :
    Listed tenTexts ["10.0.0.0/8"] source ↔ approves tenServer.addresses tenServer.nets source = true :=
  (approves_iff ten_addresses source).symm

/-- An address in the network passes, also in its long form; others do not. -/
theorem list_decides_ten :
    (∀ source ∈ [[10, 1, 2, 3], v4InV6Prefix ++ [10, 1, 2, 3]],
        callPolicyHook sampleGotez smallHookCodec (some ⟨"hook", some .ok⟩) tenAnswers (requestFrom source) = .ok ()) ∧
      ∀ source ∈ [[11, 1, 2, 3], List.replicate 16 10, []],
        callPolicyHook sampleGotez smallHookCodec (some ⟨"hook", some .ok⟩) tenAnswers (requestFrom source) =
          .error (notAllowed smallCodec source) := by
  have hauth : (Except.ok : EncodedPublicKeyHash → Except Error EncodedPublicKeyHash)
      (sampleGotez.hash (smallCodec.Public ())) = .ok (smallCodec.Public ()) := rfl
  have hdecides := fun source (hsource : IsSource (requestFrom source).source) =>
    list_decides small_agree (s := tenServer) rfl (fun _ => ⟨(), rfl⟩) ten_addresses hauth hsource "hook" [1]
  refine ⟨fun source hmem => ((hdecides source ?_).1 ((listed_ten_iff source).2 ?_)).1,
    fun source hmem => ((hdecides source ?_).2 fun h => ?_).1⟩
  · simp only [List.mem_cons, List.not_mem_nil, or_false] at hmem
    rcases hmem with rfl | rfl <;> decide
  · simp only [List.mem_cons, List.not_mem_nil, or_false] at hmem
    rcases hmem with rfl | rfl <;> decide
  · simp only [List.mem_cons, List.not_mem_nil, or_false] at hmem
    rcases hmem with rfl | rfl | rfl <;> decide
  · have happroves := (listed_ten_iff source).1 h
    simp only [List.mem_cons, List.not_mem_nil, or_false] at hmem
    rcases hmem with rfl | rfl | rfl <;> exact absurd happroves (by decide)

/-! ## A signatory with this hook -/

section Signatory

variable {Key Enc ω : Type} {g : Gotez PKH PK} [KeyReference Key PK] [DecidableEq Enc] [ToComparable PKH Enc]
  {c : Codec Priv PK Sig} {codec : HookCodec PKH PK Sig} {encodeRequest : PolicyHookRequest → Except Error Bytes}

/-- **Keys are used for listed sources only.**  A signatory asks the service, with any authorized keys or without
authentication; the service may fail to sign.  Whatever the policy, the state, the context and the answers of the vaults
and the key are: if `Sign` or `ProvePossession` calls the watermark backend or a key at all, an entry of the list covers
the source of the request. -/
theorem listed_of_key_use (hagree : Agree g c codec encodeRequest) {s : Server Priv} {key : Priv}
    (hkey : s.privateKey = some key) {texts : NetTexts} {list : List String}
    (hlist : Addresses texts list = .ok (s.addresses, s.nets)) {cfg : Config PKH PK Enc ω} {hook : PolicyHook PKH PK}
    (hhook : cfg.policyHook = some hook) {a : Answers Key Sig} {nonce : Bytes}
    (hvia : a.hook = viaService encodeRequest (serve g c s (c.Public key)) nonce) {req : SignRequest PKH}
    (hsource : IsSource req.source) (ctx : ContextUser) (w : World g Key Enc ω) :
    Adds (fun calls => calls ≠ [] → Listed texts list req.source) w (exec (Sign cfg codec ctx req a) w).2 ∧
      Adds (fun calls => calls ≠ [] → Listed texts list req.source) w
        (exec (ProvePossession cfg codec ctx req a) w).2 := by
  have hlisted (h : callPolicyHook g codec cfg.policyHook a.hook req = .ok ()) : Listed texts list req.source := by
    rw [hhook, hvia] at h
    exact listed_of_hook_ok hagree hkey hlist hsource h
  constructor
  · obtain ⟨calls, hcalls, hlog⟩ := sign_calls cfg codec ctx req a w
    refine ⟨calls, fun hne => ?_, hlog⟩
    cases hcalls with
    | refused _ => exact absurd rfl hne
    | conflict h _ => exact hlisted h.hook
    | signed h _ => exact hlisted h.hook
  · obtain ⟨calls, hcalls, hlog⟩ := provePossession_calls cfg codec ctx req a w
    refine ⟨calls, fun hne => ?_, hlog⟩
    cases hcalls with
    | refused _ => exact absurd rfl hne
    | proved h => exact hlisted h.hook

end Signatory

/-- The small signatory asks the small service. -/
def hookedConfig : Config EncodedPublicKeyHash EncodedPublicKeyHash EncodedPublicKeyHash
    (Watermark.InMemory EncodedPublicKeyHash) := { sampleConfig none with policyHook := some ⟨"hook", none⟩ }

def hookedAnswers : Answers SampleKey Unit := { sampleAnswers with hook := tenAnswers }

/-- A block from elsewhere: neither the watermark backend nor the key is called. -/
theorem listed_of_key_use_elsewhere :
    (exec (Sign hookedConfig smallHookCodec .absent (requestFrom [192, 168, 0, 1]) hookedAnswers) sampleWorld).2.log =
      [] := by
  have hhook : hookedConfig.policyHook = some ⟨"hook", none⟩ := rfl
  have hvia : hookedAnswers.hook = viaService (fun r => .ok (tallyRequest r))
      (serve sampleGotez smallCodec tenServer (smallCodec.Public ())) [1] := rfl
  have hsource : IsSource (requestFrom [192, 168, 0, 1]).source := by decide
  obtain ⟨⟨calls, hcalls, hlog⟩, -⟩ := listed_of_key_use small_agree (s := tenServer) rfl ten_addresses hhook hvia
    hsource .absent sampleWorld
  by_cases hne : calls = []
  · rw [hlog, hne]
    rfl
  · exact absurd ((listed_ten_iff _).1 (hcalls hne)) (by decide)

end Signatory.ApproveList

import Signatory.Middlewares.Jwt
import Signatory.Server
import Signatory.Signer.Concurrent

/-!
# `pkg/server`: the handlers

Every request is handled by a thread of its own, a program on the state that all requests share: the users of the JWT
middleware, the key cache and the watermark backend.  Each entry of the log of calls carries the request it was made
for.

What is taken from libraries is the parameter `Libs`; the answers of vaults, hook and keys, and the times at which the
clock is read, belong to the request (`Call`).  Logging and metrics are left out.
-/

namespace Signatory.Server

open Hashmap Signer Auth Middlewares Lib.Command Lib.Fallible Lib.Threads

/-! ## Requests and responses -/

/-- What is read of an `http.Request`: headers, the query value `version`, the form value `authentication`, the address
of the client and the body. -/
structure HttpRequest where
  method : String
  path : String
  authorization : String
  username : String
  password : String
  version : String
  authentication : String
  remoteAddr : String
  body : Except Error Bytes

/-- The body of a response. -/
inductive Body (PKH PK Sig : Type) where
  | signature (sig : Sig)
  | publicKey (pk : PK)
  | authorizedKeys (hashes : Option (List PKH))
  | blsProvePossession (sig : Sig)
  /-- The only element of the list that `tezosJSONError` sends. -/
  | failure (id kind msg : String)
  | text (s : String)
  /-- A redirection to another path. -/
  | location (path : String)
  | empty

structure HttpResponse (PKH PK Sig : Type) where
  status : ℕ
  body : Body PKH PK Sig

/-- Why a thread ends without a response: a handler panics, or the thread is none of a request. -/
inductive NoResponse where
  | panic
  | notARequest

def tezosJSONError {PKH PK Sig : Type} (e : Error) : HttpResponse PKH PK Sig :=
  ⟨e.status.getD 500, .failure "failure" "temporary" e.text⟩

/-- What is used of gotez, the JWT library, the router and the standard library. -/
structure Libs (PKH PK Sig : Type) where
  jwt : JwtLib String
  auth : AuthCodec PKH PK Sig
  hook : HookCodec PKH PK Sig
  ParsePublicKeyHash : String → Except Error PKH
  SplitHostPort : String → Except Error (String × String)
  ParseIP : String → Bytes
  /-- `json.Unmarshal` into a string. -/
  Unmarshal : Bytes → Except Error String
  /-- `hex.DecodeString`. -/
  DecodeString : String → Except Error Bytes
  cleanPath : String → String

/-- A request, with the answers of its surroundings and the times at which it reads the clock. -/
structure Call (Key Sig : Type) where
  request : HttpRequest
  answers : Answers Key Sig
  now : ℤ

/-- `utils.ParseVersionString`. -/
def ParseVersionString : String → UInt8
  | "0" => 0
  | "1" => 1
  | "2" => 2
  | _ => 2

/-- `strings.TrimPrefix(s, pre)`. -/
def trim (pre s : String) : String :=
  if pre.toList.isPrefixOf s.toList then String.ofList (s.toList.drop pre.toList.length) else s

/-! ## Routes -/

inductive Route where
  | login
  | sign (key : String)
  | getKey (key : String)
  | blsProve (key : String)
  | authorizedKeys

/-- The variable of the template `base ++ "{key}"`, which is one segment of the path. -/
def segment (base path : String) : Option String :=
  let rest := path.toList.drop base.toList.length
  if base.toList.isPrefixOf path.toList && !rest.isEmpty && !rest.contains '/' then some (String.ofList rest) else none

/-- The routes of `Handler` whose templates match the path, with their methods. -/
def matching (midWare : Bool) (path : String) : List (String × Route) :=
  (if midWare && path == "/login" then [("POST", .login)] else []) ++
  ((segment "/keys/" path).toList.flatMap fun key => [("POST", .sign key), ("GET", .getKey key)]) ++
  ((segment "/bls_prove_possession/" path).toList.map fun key => ("GET", .blsProve key)) ++
  (if path == "/authorized_keys" then [("GET", .authorizedKeys)] else [])

/-- The route of a request, or the status of the answer of the router. -/
def route (midWare : Bool) (method path : String) : Except ℕ Route :=
  match matching midWare path with
  | [] => .error 404
  | routes =>
    match routes.lookup method with
    | some r => .ok r
    | none => .error 405

/-! ## The shared state -/

section

variable {PKH PK Key Enc ω Sig ι : Type} {g : Gotez PKH PK} [KeyReference Key PK] [DecidableEq Enc]
  [ToComparable PKH Enc] [DecidableEq ι]

/-- The fields of `Server`; of the middleware it is only told whether there is one. -/
structure ServerFields (PKH PK Enc ω : Type) [DecidableEq Enc] where
  auth : Option (AuthorizedKeysStorage PKH PK)
  midWare : Bool
  signer : Config PKH PK Enc ω

/-- What the requests share. -/
structure Shared (g : Gotez PKH PK) (Key Enc ω ι : Type) [KeyReference Key PK] [DecidableEq Enc] [ToComparable PKH Enc]
    where
  users : Users
  cache : KeyCache g Key Enc
  watermark : ω
  log : List (ι × Event PKH Key)

/-- The calls made for the request `i`. -/
def callsOf (i : ι) (log : List (ι × Event PKH Key)) : List (Event PKH Key) := (log.filter (·.1 = i)).map Prod.snd

/-- The signatory as the request `i` sees it. -/
def Shared.view (i : ι) (s : Shared g Key Enc ω ι) : World g Key Enc ω := ⟨s.cache, s.watermark, callsOf i s.log⟩

/-- What the request `i` has changed; calls that were not there are its own. -/
def Shared.put (i : ι) (w : World g Key Enc ω) (s : Shared g Key Enc ω ι) : Shared g Key Enc ω ι where
  users := s.users
  cache := w.cache
  watermark := w.watermark
  log := s.log ++ (w.log.drop (callsOf i s.log).length).map (i, ·)

/-- A handler, which answers a request. -/
abbrev Handler (g : Gotez PKH PK) (Key Enc ω Sig ι : Type) [KeyReference Key PK] [DecidableEq Enc]
    [ToComparable PKH Enc] := Prog (Shared g Key Enc ω ι) NoResponse (HttpResponse PKH PK Sig)

/-- The answer after a method of the signer has returned. -/
def respond {α : Type} (body : α → Body PKH PK Sig) : Except Stop α → Except NoResponse (HttpResponse PKH PK Sig)
  | .ok a => .ok ⟨200, body a⟩
  | .error (.error e) => .ok (tezosJSONError e)
  | .error .panic => .error .panic

/-- A method of the signer is called. -/
def callSigner {α : Type} (i : ι) (body : α → Body PKH PK Sig) (p : Prog (World g Key Enc ω) Stop α) :
    Handler g Key Enc ω Sig ι :=
  (p.within (Shared.view i) (Shared.put i)).mapResult (respond body)

/-! ## The handlers -/

variable (srv : ServerFields PKH PK Enc ω) (libs : Libs PKH PK Sig)

/-- The check of the client that both handlers make if there are authorized keys. -/
def authenticated (r : HttpRequest) (signRequest : SignRequest PKH) : Except Error (SignRequest PKH) :=
  match srv.auth with
  | none => .ok signRequest
  | some auth => authenticateSignRequest libs.auth auth r.authentication signRequest

/-- The part of `signHandler` before the call of `Sign`. -/
def signRequest (r : HttpRequest) (key : String) : Except Error (SignRequest PKH) := do
  let pkh ← (libs.ParsePublicKeyHash key).mapError (Wrap · 400)
  let version := ParseVersionString r.version
  let (source, _) ← libs.SplitHostPort r.remoteAddr
  let body ← r.body
  let req ← (libs.Unmarshal body).mapError (Wrap · 400)
  let message ← (libs.DecodeString req).mapError (Wrap · 400)
  authenticated srv libs r ⟨none, pkh, ⟨version⟩, libs.ParseIP source, message⟩

/-- The part of `blsProveHandler` before the call of `ProvePossession`. -/
def proveRequest (r : HttpRequest) (key : String) : Except Error (SignRequest PKH) := do
  let pkh ← (libs.ParsePublicKeyHash key).mapError (Wrap · 400)
  let (source, _) ← libs.SplitHostPort r.remoteAddr
  authenticated srv libs r ⟨none, pkh, ⟨0⟩, libs.ParseIP source, []⟩

variable (i : ι) (c : Call Key Sig) (ctx : ContextUser)

def signHandler (key : String) : Handler g Key Enc ω Sig ι :=
  match signRequest srv libs c.request key with
  | .error e => pure (tezosJSONError e)
  | .ok req => callSigner i .signature (Concurrent.Sign srv.signer libs.hook ctx req c.answers)

def blsProveHandler (key : String) : Handler g Key Enc ω Sig ι :=
  match proveRequest srv libs c.request key with
  | .error e => pure (tezosJSONError e)
  | .ok req => callSigner i .blsProvePossession (Concurrent.ProvePossession srv.signer libs.hook ctx req c.answers)

def getKeyHandler (key : String) : Handler g Key Enc ω Sig ι :=
  match (libs.ParsePublicKeyHash key).mapError (Wrap · 400) with
  | .error e => pure (tezosJSONError e)
  | .ok pkh => callSigner i (fun k : PublicKey PKH Key => .publicKey (publicKey k.key))
      (Concurrent.onCache (Concurrent.GetPublicKey srv.signer.policy c.answers.vaults pkh))

def authorizedKeysHandler : Handler g Key Enc ω Sig ι :=
  match srv.auth with
  | none => pure ⟨200, .authorizedKeys none⟩
  | some auth =>
    match auth.ListPublicKeys with
    | .error e => pure (tezosJSONError e)
    | .ok hashes => pure ⟨200, .authorizedKeys (some hashes)⟩

/-- `LoginHandler`: the users are looked up, and then looked up again by `GenerateToken`. -/
def LoginHandler : Handler g Key Enc ω Sig ι :=
  .step id fun s =>
    match checkLogin s.users c.request.username c.request.password with
    | some text => pure ⟨401, .text text⟩
    | none =>
      .step (fun s => { s with
          users := (GenerateToken libs.jwt c.now s.users c.request.username c.request.password).2 })
        fun s =>
          match (GenerateToken libs.jwt c.now s.users c.request.username c.request.password).1 with
          | .error e => pure ⟨500, .text e.text⟩
          | .ok token => pure ⟨201, .text token⟩

/-- The type assertion on the claim `user` in `Authenticate` panics. -/
def claimPanics (users : Users) (token : String) : Bool :=
  match GetUserData users c.request.username with
  | none => false
  | some ud =>
    match parseToken libs.jwt c.now ud token with
    | .ok tok => tok.user = some .other
    | .error _ => false

/-- `AuthHandler` of the JWT middleware. -/
def AuthHandler (next : ContextUser → Handler g Key Enc ω Sig ι) : Handler g Key Enc ω Sig ι :=
  if c.request.path = "/login" then next .absent
  else if c.request.authorization = "" then pure ⟨401, .text "token required"⟩
  else
    let token := trim "Bearer " c.request.authorization
    .step id fun s =>
      if claimPanics libs c s.users token then throw .panic
      else
        match Authenticate libs.jwt c.now s.users c.request.username token with
        | .error e => pure ⟨401, .text e.text⟩
        | .ok u => next (.name u)

/-- The handler of a route. -/
def handler : Route → Handler g Key Enc ω Sig ι
  | .login => LoginHandler libs c
  | .sign key => signHandler srv libs i c ctx key
  | .getKey key => getKeyHandler srv libs i c key
  | .blsProve key => blsProveHandler srv libs i c ctx key
  | .authorizedKeys => authorizedKeysHandler srv

/-- What `Handler` answers to a request. -/
def serve : Handler g Key Enc ω Sig ι :=
  let r := c.request
  if libs.cleanPath r.path ≠ r.path then pure ⟨301, .location (libs.cleanPath r.path)⟩
  else
    match route srv.midWare r.method r.path with
    | .error 404 => pure ⟨404, .text "404 page not found\n"⟩
    | .error status => pure ⟨status, .empty⟩
    | .ok route =>
      if srv.midWare then AuthHandler libs c fun ctx => handler srv libs i c ctx route
      else handler srv libs i c .absent route

/-- `SetNewCred`, which a timer calls when the old credentials expire. -/
def rotate (user : String) : Handler g Key Enc ω Sig ι :=
  .step (fun s => { s with users := (SetNewCred s.users user).2 }) fun _ => throw .notARequest

end

/-! ## What a request has passed -/

section Passed

variable {PKH PK Enc ω Sig : Type} [DecidableEq Enc] {srv : ServerFields PKH PK Enc ω} {libs : Libs PKH PK Sig}
  {r : HttpRequest} {req req₀ : SignRequest PKH} {key : String}

/-- The signature of the request was verified with an authorized key, whose hash is entered as the client. -/
def ClientChecked (libs : Libs PKH PK Sig) (auth : AuthorizedKeysStorage PKH PK) (v : String) (req : SignRequest PKH) :
    Prop :=
  ∃ hashes pkh pub authBytes sig, auth.ListPublicKeys = .ok hashes ∧ pkh ∈ hashes ∧
    req.clientPublicKeyHash = some pkh ∧ auth.GetPublicKey pkh = .ok pub ∧ libs.auth.ParseSignature v = .ok sig ∧
    AuthenticatedBytesToSign libs.auth req = .ok authBytes ∧ libs.auth.Verify sig pub authBytes = true

lemma authenticated_ok (h : authenticated srv libs r req₀ = .ok req) :
    (∀ auth, srv.auth = some auth → ClientChecked libs auth r.authentication req) ∧
      ∃ client, req = { req₀ with clientPublicKeyHash := client } := by
  unfold authenticated at h
  cases hauth : srv.auth with
  | none =>
    rw [hauth] at h
    obtain rfl := Except.ok.inj h
    exact ⟨by rintro auth ⟨⟩, req₀.clientPublicKeyHash, rfl⟩
  | some auth =>
    rw [hauth] at h
    obtain ⟨authBytes, sig, hashes, hbytes, hsig, hlist, htry⟩ := authenticateSignRequest_ok h
    obtain ⟨pkh, hmem, pub, hpub, hverify, rfl⟩ := tryKeys_ok htry
    refine ⟨?_, some pkh, rfl⟩
    rintro _ ⟨⟩
    exact ⟨hashes, pkh, pub, authBytes, sig, hlist, hmem, rfl, hpub, hsig, hbytes, hverify⟩

/-- What a request has passed before `Sign` is called. -/
lemma signRequest_ok (h : signRequest srv libs r key = .ok req) :
    libs.ParsePublicKeyHash key = .ok req.publicKeyHash ∧
      (∃ body text, r.body = .ok body ∧ libs.Unmarshal body = .ok text ∧ libs.DecodeString text = .ok req.message) ∧
      req.signOptions = ⟨ParseVersionString r.version⟩ ∧
      ∀ auth, srv.auth = some auth → ClientChecked libs auth r.authentication req := by
  simp only [signRequest, ok_bind_iff, ok_mapError_iff] at h
  obtain ⟨pkh, hpkh, source, -, body, hbody, text, htext, message, hmessage, h⟩ := h
  obtain ⟨hclient, client, rfl⟩ := authenticated_ok h
  exact ⟨hpkh, ⟨body, text, hbody, htext, hmessage⟩, rfl, hclient⟩

lemma proveRequest_ok (h : proveRequest srv libs r key = .ok req) :
    libs.ParsePublicKeyHash key = .ok req.publicKeyHash ∧
      ∀ auth, srv.auth = some auth → ClientChecked libs auth r.authentication req := by
  simp only [proveRequest, ok_bind_iff, ok_mapError_iff] at h
  obtain ⟨pkh, hpkh, source, -, h⟩ := h
  obtain ⟨hclient, client, rfl⟩ := authenticated_ok h
  exact ⟨hpkh, hclient⟩

end Passed

end Signatory.Server

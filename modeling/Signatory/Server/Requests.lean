import Signatory.Server.Handlers
import Signatory.Signer.SignsOnce

/-!
# Requests side by side

The server runs a thread for each request, and one for each rotation of credentials that is scheduled; a schedule is any
order of their steps.

* `keys_used_as_permitted` — a key is used only by the request that asked for it, after every check has passed, and
  directly after the watermark backend has admitted the message for this request;
* `response_tells_calls` — a response tells what was called for its request;
* `consistent_scheduled`, `asked_scheduled` — the calls of the watermark backend are a run of it, and what a key signs
  was admitted in this run.
-/

namespace Signatory.Server

open Hashmap Signer Auth Middlewares Lib.Command Lib.Threads Lib.Machine
open Signer.Concurrent (Effect Guarantee Calls ProofCalls Outcome ProofOutcome Passed ProofPassed)

/-- A thread of the server. -/
inductive Thread (Key Sig : Type) where
  | request (c : Call Key Sig)
  | rotation (user : String)

section

variable {PKH PK Key Enc ω Sig ι : Type} {g : Gotez PKH PK} [KeyReference Key PK] [DecidableEq Enc]
  [ToComparable PKH Enc] [DecidableEq ι]

/-! ## Calls of a request -/

section Calls

variable {log : List (ι × Event PKH Key)} {i j : ι}

omit [KeyReference Key PK]

lemma callsOf_append (i : ι) (log new : List (ι × Event PKH Key)) :
    callsOf i (log ++ new) = callsOf i log ++ callsOf i new := by
  simp [callsOf]

lemma callsOf_map_self (i : ι) (es : List (Event PKH Key)) : callsOf i (es.map (i, ·)) = es := by
  simp [callsOf, List.filter_map, Function.comp_def]

lemma callsOf_map_of_ne (h : i ≠ j) (es : List (Event PKH Key)) : callsOf j (es.map (i, ·)) = [] := by
  simp [callsOf, List.filter_map, Function.comp_def, h]

omit [DecidableEq ι] in
lemma map_snd_own (i : ι) (es : List (Event PKH Key)) : (es.map (i, ·)).map Prod.snd = es := by
  simp [Function.comp_def]

lemma mem_callsOf {e : Event PKH Key} : e ∈ callsOf i log ↔ (i, e) ∈ log := by
  simp only [callsOf, List.mem_map, List.mem_filter, decide_eq_true_eq]
  constructor
  · rintro ⟨⟨j, e'⟩, ⟨hmem, rfl⟩, rfl⟩
    exact hmem
  · intro hmem
    exact ⟨(i, e), ⟨hmem, rfl⟩, rfl⟩

end Calls

variable (srv : ServerFields PKH PK Enc ω) (libs : Libs PKH PK Sig)

/-- **What a turn of the thread `i` does**, apart from changes of users and cache. -/
inductive Turn (i : ι) (s s' : Shared g Key Enc ω ι) : Prop
  | silent (hwatermark : s'.watermark = s.watermark) (hlog : s'.log = s.log)
  | asked (call : Watermark.Call PKH) (hwatermark : s'.watermark = (srv.signer.watermark s.watermark call).2)
      (hlog : s'.log = s.log ++ [(i, .isSafeToSign call (srv.signer.watermark s.watermark call).1)])
  | used (e : Event PKH Key) (hasked : e.asked = none) (hwatermark : s'.watermark = s.watermark)
      (hlog : s'.log = s.log ++ [(i, e)])

omit [DecidableEq ι] in
/-- What is new in the log belongs to the thread, and is a run of the backend. -/
lemma Turn.run {srv : ServerFields PKH PK Enc ω} {i : ι} {s s' : Shared g Key Enc ω ι} (h : Turn srv i s s') :
    ∃ (es : List (Event PKH Key)) (calls : List (Watermark.Call PKH)), s'.log = s.log ++ es.map (i, ·) ∧
      es.filterMap Event.asked = events srv.signer.watermark s.watermark calls ∧
      s'.watermark = final srv.signer.watermark s.watermark calls := by
  cases h with
  | silent hwatermark hlog => exact ⟨[], [], by simpa using hlog, rfl, hwatermark⟩
  | asked call hwatermark hlog => exact ⟨[_], [call], hlog, rfl, hwatermark⟩
  | used e hasked hwatermark hlog => exact ⟨[e], [], hlog, by simp [hasked, events], hwatermark⟩

lemma Turn.of_effect {srv : ServerFields PKH PK Enc ω} {i : ι} {s : Shared g Key Enc ω ι} {w : World g Key Enc ω}
    (h : Effect srv.signer (s.view i) w) : Turn srv i s (s.put i w) ∧ (s.put i w).view i = w := by
  have hnew : ∀ es, w.log = (s.view i).log ++ es →
      (s.put i w).log = s.log ++ es.map (i, ·) ∧ (s.put i w).view i = w := by
    intro es hlog
    have hput : (s.put i w).log = s.log ++ es.map (i, ·) := by
      simp [Shared.put, hlog, Shared.view]
    refine ⟨hput, ?_⟩
    have hcalls : callsOf i (s.put i w).log = w.log := by
      rw [hput, callsOf_append, callsOf_map_self, hlog]
      rfl
    rw [Shared.view, hcalls]
    rfl
  cases h with
  | silent hwatermark hlog =>
    obtain ⟨hput, hview⟩ := hnew [] (by rw [hlog, List.append_nil])
    exact ⟨.silent hwatermark (by simpa using hput), hview⟩
  | asked call hwatermark hlog =>
    obtain ⟨hput, hview⟩ := hnew _ hlog
    exact ⟨.asked call hwatermark hput, hview⟩
  | used e hasked hwatermark hlog =>
    obtain ⟨hput, hview⟩ := hnew _ hlog
    exact ⟨.used e hasked hwatermark hput, hview⟩

/-! ## What a thread relies on, guarantees and achieves -/

variable (Seen : Users → Prop)

/-- The user in the context of a request: there is none without the middleware, and with it the token of the request was
accepted, for users that were seen. -/
def UserChecked (c : Call Key Sig) (ctx : ContextUser) : Prop :=
  (srv.midWare = false ∧ ctx = .absent) ∨
    ∃ users user, Seen users ∧ ctx = .name user ∧
      Authenticate libs.jwt c.now users c.request.username (trim "Bearer " c.request.authorization) = .ok user

variable (g) in
/-- **The calls made for a request.** -/
inductive KeyUse (c : Call Key Sig) : List (Event PKH Key) → Prop
  | sign {key : String} {ctx : ContextUser} {req : SignRequest PKH} {calls : List (Event PKH Key)}
      (hroute : route srv.midWare c.request.method c.request.path = .ok (.sign key))
      (huser : UserChecked srv libs Seen c ctx) (hreq : signRequest srv libs c.request key = .ok req)
      (hcalls : Calls g srv.signer libs.hook ctx req c.answers calls) : KeyUse c calls
  | provePossession {key : String} {ctx : ContextUser} {req : SignRequest PKH} {calls : List (Event PKH Key)}
      (hroute : route srv.midWare c.request.method c.request.path = .ok (.blsProve key))
      (huser : UserChecked srv libs Seen c ctx) (hreq : proveRequest srv libs c.request key = .ok req)
      (hcalls : ProofCalls g srv.signer libs.hook ctx req c.answers calls) : KeyUse c calls

/-- The body is neither a signature nor a proof. -/
def Body.plain : Body PKH PK Sig → Bool
  | .signature _ | .blsProvePossession _ => false
  | _ => true

/-- **How a request is answered**, with the calls that were made for it. -/
inductive Answered (c : Call Key Sig) : Except NoResponse (HttpResponse PKH PK Sig) → List (Event PKH Key) → Prop
  | plain {resp : HttpResponse PKH PK Sig} (h : resp.body.plain = true) : Answered c (.ok resp) []
  | none (r : NoResponse) : Answered c (.error r) []
  | conflict (call : Watermark.Call PKH) (e : Error) :
      Answered c (.ok (tezosJSONError (Wrap e 409))) [.isSafeToSign call (.error e)]
  | signed (call : Watermark.Call PKH) (key : Key) (message : Bytes) (opts : SignOptions) :
      Answered c (respond .signature (Signer.pass c.answers.sign)) [.isSafeToSign call (.ok ()), .sign key message opts]
  | proved (key : Key) :
      Answered c (respond .blsProvePossession (Signer.pass c.answers.provePossession)) [.provePossession key]

variable (g) in
/-- What the threads agree upon: nobody makes calls for another one. -/
def agreement (threads : ι → Thread Key Sig) :
    Agreement (Shared g Key Enc ω ι) NoResponse (HttpResponse PKH PK Sig) ι where
  R i s s' := callsOf i s'.log = callsOf i s.log
  G i s s' := Turn srv i s s' ∧ (callsOf i s'.log ≠ callsOf i s.log →
    ∃ c, threads i = .request c ∧ KeyUse g srv libs Seen c (callsOf i s'.log))
  Q i r s := ∀ c, threads i = .request c → Answered c r (callsOf i s.log)
  refl _ _ := rfl
  trans _ {_ _ _} h h' := h'.trans h
  still _ _ := ⟨.silent rfl rfl, fun h => absurd rfl h⟩
  others i j hij s s' h := by
    obtain ⟨es, -, hlog, -⟩ := h.1.run
    rw [hlog, callsOf_append, callsOf_map_of_ne hij, List.append_nil]

/-! ## The handlers keep to it -/

section Handlers

variable {srv libs Seen} {threads : ι → Thread Key Sig} {V : Shared g Key Enc ω ι → Prop} {s : Shared g Key Enc ω ι}
  {i : ι} {c : Call Key Sig}

/-- The program of the thread `i` is as agreed from the state `s` on. -/
abbrev Keeps (srv : ServerFields PKH PK Enc ω) (libs : Libs PKH PK Sig) (Seen : Users → Prop)
    (threads : ι → Thread Key Sig) (V : Shared g Key Enc ω ι → Prop) (i : ι) (p : Handler g Key Enc ω Sig ι)
    (s : Shared g Key Enc ω ι) : Prop :=
  let A := agreement g srv libs Seen threads
  p.Sat V (A.R i) (A.G i) (A.Q i) s

lemma keeps_pure (hlog : callsOf i s.log = []) {resp : HttpResponse PKH PK Sig} (h : resp.body.plain = true) :
    Keeps srv libs Seen threads V i (pure resp) s := by
  intro s' _ hR c _
  rw [show callsOf i s'.log = [] from hR.trans hlog]
  exact .plain h

lemma keeps_throw (hlog : callsOf i s.log = []) (r : NoResponse) :
    Keeps srv libs Seen threads V i (throw r) s := by
  intro s' _ hR c _
  rw [show callsOf i s'.log = [] from hR.trans hlog]
  exact .none r

/-- A method of the signer, from what it does on the signatory. -/
lemma keeps_callSigner {α : Type} {body : α → Body PKH PK Sig} {p : Prog (World g Key Enc ω) Stop α}
    {C : List (Event PKH Key) → Prop} {Q : Except Stop α → List (Event PKH Key) → Prop} (hi : threads i = .request c)
    (h : p.Sat (fun _ => True) Concurrent.SameCalls (Guarantee srv.signer C) (fun r w => Q r w.log) (s.view i))
    (hC : ∀ calls, C calls → KeyUse g srv libs Seen c calls)
    (hQ : ∀ r calls, Q r calls → Answered c (respond body r) calls) :
    Keeps srv libs Seen threads V i (callSigner i body p) s := by
  apply Prog.Sat.mapResult
  refine Prog.Sat.within (fun _ _ => trivial) (fun s s' hR => ?_) ?_ ?_ ?_ h
  · exact hR
  · intro s w hG
    obtain ⟨hturn, hview⟩ := Turn.of_effect hG.effect
    refine ⟨hturn, fun hne => ⟨c, hi, ?_⟩⟩
    have hcalls : callsOf i (s.put i w).log = w.log := congrArg World.log hview
    rw [hcalls] at hne ⊢
    exact hC _ (hG.calls hne)
  · intro s w hG
    exact (Turn.of_effect hG.effect).2
  · intro r s hr c' hc'
    obtain rfl := Thread.request.inj (hi.symm.trans hc')
    exact hQ r _ hr

lemma plain_tezosJSONError (e : Error) : (tezosJSONError e : HttpResponse PKH PK Sig).body.plain = true := rfl

lemma keeps_signHandler (hi : threads i = .request c) (hlog : callsOf i s.log = []) {ctx : ContextUser} {key : String}
    (hroute : route srv.midWare c.request.method c.request.path = .ok (.sign key))
    (huser : UserChecked srv libs Seen c ctx) :
    Keeps srv libs Seen threads V i (signHandler srv libs i c ctx key) s := by
  unfold signHandler
  cases hreq : signRequest srv libs c.request key with
  | error e => exact keeps_pure hlog (plain_tezosJSONError e)
  | ok req =>
    refine keeps_callSigner hi (Concurrent.sat_sign srv.signer libs.hook ctx req c.answers trivial hlog)
      (fun calls hcalls => .sign hroute huser hreq hcalls) fun r calls hr => ?_
    cases hr with
    | refused e =>
      cases e with
      | error e => exact .plain rfl
      | panic => exact .none .panic
    | conflict msg e => exact .conflict _ e
    | signed msg key => exact .signed _ key _ _

lemma keeps_blsProveHandler (hi : threads i = .request c) (hlog : callsOf i s.log = []) {ctx : ContextUser}
    {key : String} (hroute : route srv.midWare c.request.method c.request.path = .ok (.blsProve key))
    (huser : UserChecked srv libs Seen c ctx) :
    Keeps srv libs Seen threads V i (blsProveHandler srv libs i c ctx key) s := by
  unfold blsProveHandler
  cases hreq : proveRequest srv libs c.request key with
  | error e => exact keeps_pure hlog (plain_tezosJSONError e)
  | ok req =>
    refine keeps_callSigner hi (Concurrent.sat_provePossession srv.signer libs.hook ctx req c.answers trivial hlog)
      (fun calls hcalls => .provePossession hroute huser hreq hcalls) fun r calls hr => ?_
    cases hr with
    | refused e =>
      cases e with
      | error e => exact .plain rfl
      | panic => exact .none .panic
    | proved key => exact .proved key

lemma keeps_getKeyHandler (hi : threads i = .request c) (hlog : callsOf i s.log = []) (key : String) :
    Keeps srv libs Seen threads V i (getKeyHandler srv libs i c key) s := by
  unfold getKeyHandler
  cases (libs.ParsePublicKeyHash key).mapError (Wrap · 400) with
  | error e => exact keeps_pure hlog (plain_tezosJSONError e)
  | ok pkh =>
    -- only the cache is used
    have hcache : (Concurrent.onCache (Concurrent.GetPublicKey srv.signer.policy c.answers.vaults pkh)).Sat
        (fun _ => True) Concurrent.SameCalls (Guarantee srv.signer fun _ => False)
        (fun r w => (∃ r' : Except Error (PublicKey PKH Key), r = r'.mapError .error ∧ True) ∧ w.log = []) (s.view i) :=
      Concurrent.sat_onCache (fun k => .trivial _ k) hlog _
    refine keeps_callSigner (Q := fun r calls => r ≠ .error .panic ∧ calls = []) hi
      (hcache.mono (fun _ _ hG => hG) ?_) (fun _ hfalse => hfalse.elim) ?_
    · rintro _ w - ⟨⟨r, rfl, -⟩, hcalls⟩
      refine ⟨?_, hcalls⟩
      cases r <;> simp [Except.mapError]
    · rintro r _ ⟨hr, rfl⟩
      rcases r with (e | _) | k
      · exact .plain rfl
      · exact absurd rfl hr
      · exact .plain rfl

lemma keeps_step {f : Shared g Key Enc ω ι → Shared g Key Enc ω ι}
    {k : Shared g Key Enc ω ι → Handler g Key Enc ω Sig ι}
    (hlog : callsOf i s.log = []) (hf : ∀ s, (f s).log = s.log ∧ (f s).watermark = s.watermark)
    (hk : ∀ s', V s' → callsOf i s'.log = [] → Keeps srv libs Seen threads V i (k s') (f s')) :
    Keeps srv libs Seen threads V i (.step f k) s := by
  intro s' hV hR
  refine ⟨⟨.silent (hf s').2 (hf s').1, fun hne => absurd (by rw [(hf s').1]) hne⟩, fun _ => hk s' hV (hR.trans hlog)⟩

lemma keeps_LoginHandler (hlog : callsOf i s.log = []) :
    Keeps srv libs Seen threads V i (LoginHandler libs c) s := by
  refine keeps_step hlog (fun _ => ⟨rfl, rfl⟩) fun s₁ _ hlog₁ => ?_
  cases checkLogin s₁.users c.request.username c.request.password with
  | some text => exact keeps_pure hlog₁ rfl
  | none =>
    refine keeps_step hlog₁ (fun _ => ⟨rfl, rfl⟩) fun s₂ _ hlog₂ => ?_
    cases (GenerateToken libs.jwt c.now s₂.users c.request.username c.request.password).1 with
    | error e => exact keeps_pure hlog₂ rfl
    | ok token => exact keeps_pure hlog₂ rfl

lemma keeps_authorizedKeysHandler (hlog : callsOf i s.log = []) :
    Keeps srv libs Seen threads V i (authorizedKeysHandler srv) s := by
  unfold authorizedKeysHandler
  cases srv.auth with
  | none => exact keeps_pure hlog rfl
  | some auth =>
    dsimp only
    cases auth.ListPublicKeys with
    | error e => exact keeps_pure hlog rfl
    | ok hashes => exact keeps_pure hlog rfl

lemma keeps_handler (hi : threads i = .request c) (hlog : callsOf i s.log = []) {ctx : ContextUser} {r : Route}
    (hroute : route srv.midWare c.request.method c.request.path = .ok r)
    (huser : r ≠ .login → UserChecked srv libs Seen c ctx) :
    Keeps srv libs Seen threads V i (handler srv libs i c ctx r) s := by
  cases r with
  | login => exact keeps_LoginHandler hlog
  | sign key => exact keeps_signHandler hi hlog hroute (huser (by rintro ⟨⟩))
  | getKey key => exact keeps_getKeyHandler hi hlog key
  | blsProve key => exact keeps_blsProveHandler hi hlog hroute (huser (by rintro ⟨⟩))
  | authorizedKeys => exact keeps_authorizedKeysHandler hlog

lemma route_login {midWare : Bool} {method : String} {r : Route} (h : route midWare method "/login" = .ok r) :
    r = .login := by
  cases midWare with
  | false => cases h
  | true =>
    have hmatching : matching true "/login" = [("POST", .login)] := rfl
    simp only [route, hmatching, List.lookup_cons, List.lookup_nil] at h
    cases hpost : method == "POST" with
    | false => rw [hpost] at h; cases h
    | true => rw [hpost] at h; cases h; rfl

/-- A request that the middleware lets through has a path of its own, or a token that was accepted. -/
lemma keeps_AuthHandler (hSeen : ∀ s, V s → Seen s.users) (hlog : callsOf i s.log = [])
    {next : ContextUser → Handler g Key Enc ω Sig ι}
    (hlogin : c.request.path = "/login" → Keeps srv libs Seen threads V i (next .absent) s)
    (hnext : ∀ s' ctx, callsOf i s'.log = [] → UserChecked srv libs Seen c ctx →
      Keeps srv libs Seen threads V i (next ctx) s') :
    Keeps srv libs Seen threads V i (AuthHandler libs c next) s := by
  unfold AuthHandler
  split
  case isTrue hpath => exact hlogin hpath
  case isFalse =>
    split
    case isTrue => exact keeps_pure hlog rfl
    case isFalse =>
      refine keeps_step hlog (fun _ => ⟨rfl, rfl⟩) fun s' hV hlog' => ?_
      split
      case isTrue => exact keeps_throw hlog' _
      case isFalse =>
        split
        case h_1 => exact keeps_pure hlog' rfl
        case h_2 u hu => exact hnext s' _ hlog' (Or.inr ⟨s'.users, u, hSeen s' hV, rfl, hu⟩)

lemma keeps_serve (hSeen : ∀ s, V s → Seen s.users) (hi : threads i = .request c) (hlog : callsOf i s.log = []) :
    Keeps srv libs Seen threads V i (serve srv libs i c) s := by
  unfold serve
  dsimp only
  split
  case isTrue => exact keeps_pure hlog rfl
  case isFalse =>
    split
    case h_1 => exact keeps_pure hlog rfl
    case h_2 => exact keeps_pure hlog rfl
    case h_3 r hroute =>
      split
      case isTrue =>
        refine keeps_AuthHandler hSeen hlog (fun hpath => ?_) fun s' ctx hlog' huser =>
          keeps_handler hi hlog' hroute fun _ => huser
        exact keeps_handler hi hlog hroute fun hne => absurd (route_login (hpath ▸ hroute)) hne
      case isFalse hmid => exact keeps_handler hi hlog hroute fun _ => Or.inl ⟨by simpa using hmid, rfl⟩

lemma keeps_rotate (hlog : callsOf i s.log = []) (user : String) :
    Keeps srv libs Seen threads V i (rotate user) s :=
  keeps_step hlog (fun _ => ⟨rfl, rfl⟩) fun _ _ hlog' => keeps_throw hlog' _

end Handlers

/-! ## Schedules -/

def Thread.program (i : ι) : Thread Key Sig → Handler g Key Enc ω Sig ι
  | .request c => serve srv libs i c
  | .rotation user => rotate user

/-- The server with its threads, before they run. -/
def pool (threads : ι → Thread Key Sig) (s : Shared g Key Enc ω ι) :
    Pool (Shared g Key Enc ω ι) NoResponse (HttpResponse PKH PK Sig) ι :=
  ⟨fun i => (threads i).program srv libs i, s⟩

/-- The users at some moment of a schedule. -/
def UsersIn (threads : ι → Thread Key Sig) (s : Shared g Key Enc ω ι) (sched : List ι) (users : Users) : Prop :=
  ∃ s', Visited (pool srv libs threads s) sched s' ∧ s'.users = users

omit [DecidableEq Enc] [KeyReference Key PK] in
/-- If nobody makes calls for another one, the calls of a thread are what its own guarantee says of them. -/
lemma calls_scheduled {σ ε α : Type} {A : Agreement σ ε α ι} {V : σ → Prop} {P : Pool σ ε α ι} (h : A.Holds V P)
    {sched : List ι} (hV : ∀ pre, pre <+: sched → V (final Pool.step P pre).state) (log : σ → List (ι × Event PKH Key))
    {C : ι → List (Event PKH Key) → Prop}
    (hown : ∀ i s s', A.G i s s' → callsOf i (log s') ≠ callsOf i (log s) → C i (callsOf i (log s')))
    (hothers : ∀ i s s', A.R i s s' → callsOf i (log s') = callsOf i (log s)) {i : ι}
    (hstart : callsOf i (log P.state) = []) :
    callsOf i (log (final Pool.step P sched).state) = [] ∨ C i (callsOf i (log (final Pool.step P sched).state)) := by
  refine inv_schedule h hV (I := fun s => callsOf i (log s) = [] ∨ C i (callsOf i (log s))) (Or.inl hstart) ?_
  intro j s₁ s₂ hG hI
  by_cases hsame : callsOf i (log s₂) = callsOf i (log s₁)
  · rwa [hsame]
  · by_cases hji : j = i
    · subst hji
      exact Or.inr (hown j s₁ s₂ hG hsame)
    · exact absurd (hothers i s₁ s₂ (A.others j i hji s₁ s₂ hG)) hsame

section Schedules

variable {srv libs} {threads : ι → Thread Key Sig} {s : Shared g Key Enc ω ι} (hstart : s.log = []) (sched : List ι)

include hstart

lemma holds_pool : (agreement g srv libs (UsersIn srv libs threads s sched) threads).Holds
    (Visited (pool srv libs threads s) sched) (pool srv libs threads s) := by
  intro i
  have hlog : callsOf i s.log = [] := by
    rw [hstart]
    rfl
  have hkeeps : ∀ t, threads i = t → Keeps srv libs (UsersIn srv libs threads s sched) threads
      (Visited (pool srv libs threads s) sched) i (t.program srv libs i) s := by
    intro t hi
    cases t with
    | request c => exact keeps_serve (fun s' hV => ⟨s', hV, rfl⟩) hi hlog
    | rotation user => exact keeps_rotate hlog user
  exact hkeeps (threads i) rfl

lemma keyUse_scheduled (i : ι) :
    let calls := callsOf i (final Pool.step (pool srv libs threads s) sched).state.log
    calls = [] ∨ ∃ c, threads i = .request c ∧ KeyUse g srv libs (UsersIn srv libs threads s sched) c calls := by
  have hnone : callsOf i s.log = [] := by
    rw [hstart]
    rfl
  exact calls_scheduled (holds_pool hstart sched) (fun pre hpre => ⟨pre, hpre, rfl⟩) Shared.log
    (C := fun i calls => ∃ c, threads i = .request c ∧ KeyUse g srv libs (UsersIn srv libs threads s sched) c calls)
    (fun _ _ _ h => h.2) (fun _ _ _ h => h) hnone

end Schedules

/-! ## Uses of keys -/

variable (g) in
/-- **What is true of a request when a key is used for it**, whether it asks for a signature or for a proof. -/
structure Permitted (c : Call Key Sig) (r : String → Route) (key : Key) (ctx : ContextUser) (req : SignRequest PKH)
    (policy : PublicKeyPolicy PKH) : Prop where
  /-- The path names the key. -/
  routed : ∃ k, route srv.midWare c.request.method c.request.path = .ok (r k) ∧
    libs.ParsePublicKeyHash k = .ok req.publicKeyHash
  owned : g.hash (publicKey key) = req.publicKeyHash
  client : ∀ auth, srv.auth = some auth → ClientChecked libs auth c.request.authentication req
  /-- The token was accepted at some moment before. -/
  user : UserChecked srv libs Seen c ctx
  listed : PolicyFor srv.signer.policy req.publicKeyHash policy
  userAuthorized : srv.midWare = true → UserAuthorized policy ctx
  hook : callPolicyHook g libs.hook srv.signer.policyHook c.answers.hook req = .ok ()

variable (g) in
/-- What is true in addition when the key signs. -/
structure SignPermitted (c : Call Key Sig) (req : SignRequest PKH) (policy : PublicKeyPolicy PKH)
    (msg : Request.SignRequest) : Prop where
  body : ∃ body text, c.request.body = .ok body ∧ libs.Unmarshal body = .ok text ∧
    libs.DecodeString text = .ok req.message
  version : req.signOptions = ⟨ParseVersionString c.request.version⟩
  clientAuthorized : ClientAuthorized policy req
  decoded : Decodes g req.signOptions req.message msg
  filter : matchFilter g policy req msg = .ok ()

section Uses

variable {srv libs Seen} {c : Call Key Sig} {req : SignRequest PKH} {key : String}

omit [KeyReference Key PK] [ToComparable PKH Enc] in
/-- With the middleware, the user of the context has passed `jwtVerifyUser`. -/
lemma userAuthorized_of_checked {ctx : ContextUser} {policy : PublicKeyPolicy PKH}
    (huser : UserChecked srv libs Seen c ctx)
    (h : ctx ≠ .other ∧ ∀ user, ctx = .name user → jwtVerifyUser g user policy req = .ok ())
    (hmid : srv.midWare = true) : UserAuthorized policy ctx := by
  rcases huser with ⟨hno, -⟩ | ⟨users, user, -, rfl, -⟩
  · cases hno.symm.trans hmid
  · exact userAuthorized_of_present (by rintro ⟨⟩) h

lemma KeyUse.signed (hmap : Function.Injective (toComparable : PKH → Enc)) {calls : List (Event PKH Key)}
    (h : KeyUse g srv libs Seen c calls) {k : Key} {message : Bytes} {opts : SignOptions}
    (hsign : .sign k message opts ∈ calls) :
    ∃ ctx req policy msg, Permitted g srv libs Seen c .sign k ctx req policy ∧
      SignPermitted g libs c req policy msg ∧
      calls = [.isSafeToSign (watermarkCall g req msg) (.ok ()), .sign k message opts] ∧
      req.message = message ∧ req.signOptions = opts := by
  cases h with
  | provePossession _ _ _ hcalls => cases hcalls <;> simp at hsign
  | @sign key ctx req _ hroute huser hreq hcalls =>
    cases hcalls with
    | none => simp at hsign
    | asked _ _ => simp at hsign
    | @signed policy msg p hpassed =>
      obtain ⟨rfl, rfl, rfl⟩ : k = p.key ∧ message = req.message ∧ opts = req.signOptions := by simpa using hsign
      obtain ⟨hpkh, hbody, hversion, hclient⟩ := signRequest_ok hreq
      exact ⟨ctx, req, policy, msg,
        ⟨⟨key, hroute, hpkh⟩, p.hash_key.trans (hmap hpassed.found), hclient, huser, hpassed.listed,
          userAuthorized_of_checked huser hpassed.user, hpassed.hook⟩,
        ⟨hbody, hversion, clientAuthorized_of_matchFilter hmap hpassed.filter, hpassed.decoded, hpassed.filter⟩,
        rfl, rfl, rfl⟩

lemma KeyUse.asked (hmap : Function.Injective (toComparable : PKH → Enc)) {calls : List (Event PKH Key)}
    (h : KeyUse g srv libs Seen c calls) {k : Key} {message : Bytes} {opts : SignOptions} {msg : Request.SignRequest}
    (hsign : .sign k message opts ∈ calls) (hmsg : Decodes g opts message msg) :
    .isSafeToSign ⟨g.hash (publicKey k), msg, g.digest message⟩ (.ok ()) ∈ calls := by
  obtain ⟨ctx, req, policy, msg', hpermitted, hsigned, hown, rfl, rfl⟩ := h.signed hmap hsign
  obtain rfl := hsigned.decoded.unique hmsg
  rw [hown, hpermitted.owned]
  exact List.mem_cons_self

lemma KeyUse.proved (hmap : Function.Injective (toComparable : PKH → Enc)) {calls : List (Event PKH Key)}
    (h : KeyUse g srv libs Seen c calls) {k : Key} (hproof : .provePossession k ∈ calls) :
    ∃ ctx req policy, Permitted g srv libs Seen c .blsProve k ctx req policy ∧
      policy.allowProofOfPossession = true ∧ calls = [.provePossession k] := by
  cases h with
  | sign _ _ _ hcalls => cases hcalls <;> simp at hproof
  | @provePossession key ctx req _ hroute huser hreq hcalls =>
    cases hcalls with
    | none => simp at hproof
    | @proved policy p hpassed =>
      obtain rfl : k = p.key := by simpa using hproof
      obtain ⟨hpkh, hclient⟩ := proveRequest_ok hreq
      exact ⟨ctx, req, policy,
        ⟨⟨key, hroute, hpkh⟩, p.hash_key.trans (hmap hpassed.found), hclient, huser, hpassed.listed,
          userAuthorized_of_checked huser hpassed.user, hpassed.hook⟩, hpassed.allowed, rfl⟩

end Uses

variable {srv libs} {threads : ι → Thread Key Sig} {s : Shared g Key Enc ω ι}

/-- What a response tells about the calls that were made for its request. -/
structure Tells (c : Call Key Sig) (r : Except NoResponse (HttpResponse PKH PK Sig)) (calls : List (Event PKH Key)) :
    Prop where
  signature : ∀ sig, r = .ok ⟨200, .signature sig⟩ ↔ c.answers.sign = .ok sig ∧
    ∃ call key message opts, calls = [.isSafeToSign call (.ok ()), .sign key message opts]
  proof : ∀ sig, r = .ok ⟨200, .blsProvePossession sig⟩ ↔ c.answers.provePossession = .ok sig ∧
    ∃ key, calls = [.provePossession key]
  /-- A refusal by the watermark backend is answered with its error, and 409 if it has no status of its own. -/
  conflict : ∀ call e, calls = [.isSafeToSign call (.error e)] → r = .ok (tezosJSONError (Wrap e 409))
  /-- An error of the key is answered as it is. -/
  failed : ∀ call key message opts e, calls = [.isSafeToSign call (.ok ()), .sign key message opts] →
    c.answers.sign = .error e → r = .ok (tezosJSONError e)
  /-- There is always a response after a call. -/
  answered : calls ≠ [] → ∃ resp, r = .ok resp

omit [KeyReference Key PK] in
lemma Answered.tells {c : Call Key Sig} {r : Except NoResponse (HttpResponse PKH PK Sig)}
    {calls : List (Event PKH Key)} (h : Answered c r calls) : Tells c r calls := by
  cases h with
  | @plain resp hplain =>
    obtain ⟨status, body⟩ := resp
    have hsig : ∀ sig, body ≠ .signature sig := by rintro sig rfl; cases hplain
    have hproof : ∀ sig, body ≠ .blsProvePossession sig := by rintro sig rfl; cases hplain
    constructor <;> simp [hsig, hproof]
  | none r => constructor <;> simp
  | conflict call e => constructor <;> simp [tezosJSONError]
  | signed call key message opts =>
    cases hsign : c.answers.sign with
    | ok sig => constructor <;> simp [Signer.pass, respond, Except.mapError, hsign]
    | error e =>
      constructor <;> simp [Signer.pass, respond, Except.mapError, hsign, tezosJSONError]
      rintro _ _ _ _ _ rfl rfl rfl rfl rfl
      exact ⟨rfl, rfl⟩
  | proved key =>
    cases hproof : c.answers.provePossession with
    | ok sig => constructor <;> simp [Signer.pass, respond, Except.mapError, hproof]
    | error e => constructor <;> simp [Signer.pass, respond, Except.mapError, hproof, tezosJSONError]

/-- The calls of the watermark backend in the log are a run of the backend. -/
lemma consistent_scheduled (hstart : s.log = []) (sched : List ι) :
    let s' := (final Pool.step (pool srv libs threads s) sched).state
    ∃ calls, (s'.log.map Prod.snd).filterMap Event.asked = events srv.signer.watermark s.watermark calls ∧
      s'.watermark = final srv.signer.watermark s.watermark calls := by
  refine inv_schedule (holds_pool hstart sched) (fun pre hpre => ⟨pre, hpre, rfl⟩)
    (I := fun s' => ∃ calls, (s'.log.map Prod.snd).filterMap Event.asked =
        events srv.signer.watermark s.watermark calls ∧ s'.watermark = final srv.signer.watermark s.watermark calls)
    ⟨[], by simp [pool, hstart], rfl⟩ ?_
  rintro i s₁ s₂ ⟨hturn, -⟩ ⟨calls, hlog, hstate⟩
  obtain ⟨es, new, hnew, hasked, hwatermark⟩ := hturn.run
  rw [hstate] at hasked hwatermark
  refine ⟨calls ++ new, ?_, by rw [hwatermark, final_append]⟩
  rw [hnew, List.map_append, map_snd_own, List.filterMap_append, hlog, hasked, events_append]

lemma asked_scheduled (hmap : Function.Injective (toComparable : PKH → Enc)) (hstart : s.log = []) (sched : List ι)
    {key : Key} {message : Bytes} {opts : SignOptions} {msg : Request.SignRequest}
    (hsign : .sign key message opts ∈ (final Pool.step (pool srv libs threads s) sched).state.log.map Prod.snd)
    (hmsg : Decodes g opts message msg) :
    (⟨g.hash (publicKey key), msg, g.digest message⟩, .ok ()) ∈
      ((final Pool.step (pool srv libs threads s) sched).state.log.map Prod.snd).filterMap Event.asked := by
  obtain ⟨⟨i, e⟩, hmem, rfl⟩ := List.mem_map.1 hsign
  have huse : callsOf i (final Pool.step (pool srv libs threads s) sched).state.log = [] ∨ ∃ c, threads i = .request c ∧
      KeyUse g srv libs (UsersIn srv libs threads s sched) c _ := keyUse_scheduled hstart sched i
  rcases huse with hnone | ⟨c, -, huse⟩
  · rw [← mem_callsOf, hnone] at hmem
    cases hmem
  · have hadmitted := huse.asked hmap (mem_callsOf.2 hmem) hmsg
    exact List.mem_filterMap.2 ⟨_, List.mem_map.2 ⟨_, mem_callsOf.1 hadmitted, rfl⟩, rfl⟩

end

/-! ### A server for one user and one client -/

/-- A token is the name of its user, and a signature is verified by the key `1`. -/
def aliceLibs : Libs EncodedPublicKeyHash EncodedPublicKeyHash Unit where
  jwt := ⟨fun user _ _ => .ok user, fun _ _ token => .ok ⟨some (.string token), true⟩⟩
  auth := ⟨fun _ => .ok [], fun _ => .ok (), fun _ pk _ => pk == 1⟩
  hook := sampleCodec
  ParsePublicKeyHash _ := .ok 0
  SplitHostPort addr := .ok (addr, "")
  ParseIP _ := []
  Unmarshal _ := .ok "11"
  DecodeString _ := .ok [17]
  cleanPath := id

def aliceServer : ServerFields EncodedPublicKeyHash EncodedPublicKeyHash EncodedPublicKeyHash
    (Watermark.InMemory EncodedPublicKeyHash) where
  auth := some (StaticAuthorizedKeys id [1])
  midWare := true
  signer := sampleConfig (some restrictedPolicy)

/-- A block is to be signed. -/
def aliceCall : Call SampleKey Unit where
  request := ⟨"POST", "/keys/tz1", "Bearer alice", "alice", "", "", "sig", "", .ok []⟩
  answers := sampleAnswers
  now := 0

/-- Two requests while the credentials of the user are rotated. -/
def aliceThreads : Fin 3 → Thread SampleKey Unit
  | 0 => .request aliceCall
  | 1 => .rotation "alice"
  | 2 => .request aliceCall

def aliceStart : Shared sampleGotez SampleKey EncodedPublicKeyHash (Watermark.InMemory EncodedPublicKeyHash) (Fin 3)
    where
  users := AList.singleton "alice" ⟨"", 0, "", "", none⟩
  cache := ⟨none⟩
  watermark := ⟨none⟩
  log := []

/-- The two requests take turns. -/
def aliceSchedule : List (Fin 3) := [0, 2, 1, 0, 2, 0, 2, 0, 2, 0, 2]

lemma alice_log : (final Pool.step (pool aliceServer aliceLibs aliceThreads aliceStart) aliceSchedule).state.log =
    [(0, .isSafeToSign ⟨0, .latest (.withWatermark ⟨"block", 0, 1, 0⟩), 1⟩ (.ok ())),
      (2, .isSafeToSign ⟨0, .latest (.withWatermark ⟨"block", 0, 1, 0⟩), 1⟩ (.ok ())),
      (0, .sign ⟨0⟩ [17] ⟨2⟩), (2, .sign ⟨0⟩ [17] ⟨2⟩)] := rfl

end Signatory.Server

import Signatory.Vault.Rpc.Client

/-!
# Connections of the client: initialized, closed, and used for at most two attempts

What a call can write to the log is said once (`Attempted`, `Unconnected`, `Dispatched`, `Called`); everything else
follows from it.  After each call the current connection is one on which `Initialize` succeeded and that is not closed,
and every other connection that was dialled is closed (`Inv`).
-/

namespace Signatory.Vault.Rpc

open Lib.Command Lib.Machine

variable {C : Type}

/-! ## What is logged -/

/-- One round trip with its error, if it has one. -/
inductive Attempted (i : ℕ) (req : Request C) : Option Err → List (Event C) → Prop
  | done : Attempted i req none [.wrote i req, .done i req]
  | unsent (e : Err) : Attempted i req (some e) [.failed i req e]
  | failed (e : Err) : Attempted i req (some e) [.wrote i req, .failed i req e]

/-- A successful dial and handshake. -/
def handshake (init : Request C) (n : ℕ) : List (Event C) := [.dialled n, .wrote n init, .done n init]

/-- A failed dial or handshake, where `n` was the number of the next connection and `n'` is now. -/
inductive Unconnected (init : Request C) (n : ℕ) : ℕ → List (Event C) → Prop
  | undialled : Unconnected init n n []
  | refused (e : Err) (att : List (Event C)) : Attempted n init (some e) att →
      Unconnected init n (n + 1) (.dialled n :: att ++ [.closed n])

/-- A call from its first attempt on, which is made on the connection `i`. -/
inductive Dispatched (init req : Request C) (env : RpcEnv) (i n : ℕ) : Option ℕ → ℕ → List (Event C) → Prop
  | ended (out : Option Err) (att : List (Event C)) : Attempted i req out att →
      Dispatched init req env i n (some i) n att
  | dropped (e : Err) (att : List (Event C)) : Attempted i req (some e) att →
      Dispatched init req env i n none n (att ++ [.closed i])
  | lost (e : Err) (att : List (Event C)) (n' : ℕ) (new : List (Event C)) : Attempted i req (some e) att →
      isConnError e = true → env.ctxErr = false → Unconnected init n n' new →
      Dispatched init req env i n none n' (att ++ [.closed i] ++ new)
  | retried (e : Err) (att : List (Event C)) (out : Option Err) (att' : List (Event C)) :
      Attempted i req (some e) att → isConnError e = true → env.ctxErr = false → Attempted n req out att' →
      Dispatched init req env i n (some n) (n + 1) (att ++ [.closed i] ++ handshake init n ++ att')

/-- A call, from the connection that the client has. -/
inductive Called (init req : Request C) (env : RpcEnv) (n : ℕ) : Option ℕ → Option ℕ → ℕ → List (Event C) → Prop
  | unconnected (n' : ℕ) (new : List (Event C)) : Unconnected init n n' new → Called init req env n none none n' new
  | connected (conn : Option ℕ) (n' : ℕ) (new : List (Event C)) : Dispatched init req env n (n + 1) conn n' new →
      Called init req env n none conn n' (handshake init n ++ new)
  | current (i : ℕ) (conn : Option ℕ) (n' : ℕ) (new : List (Event C)) : Dispatched init req env i n conn n' new →
      Called init req env n (some i) conn n' new

/-- From `w` to `w'` the log grows by `new`, and `conn` and `n` are the current connection and the next number. -/
structure Moves (w : World C) (conn : Option ℕ) (n : ℕ) (new : List (Event C)) (w' : World C) : Prop where
  conn : w'.conn = conn
  dialled : w'.dialled = n
  log : w'.log = w.log ++ new

lemma Moves.trans {w w' w'' : World C} {conn conn' : Option ℕ} {n n' : ℕ} {new new' : List (Event C)}
    (h : Moves w conn n new w') (h' : Moves w' conn' n' new' w'') : Moves w conn' n' (new ++ new') w'' :=
  ⟨h'.conn, h'.dialled, by rw [h'.log, h.log, List.append_assoc]⟩

section Log

variable {st : Setting C} {w : World C}

lemma roundTripOk_log {r : Reply} {t : Trip} {i : ℕ} {req : Request C} :
    wp (roundTripOk st r t i req) (fun _ w' => ∃ new, Attempted i req none new ∧ Moves w w.conn w.dialled new w')
      (fun e w' => ∃ new, Attempted i req (some e) new ∧ Moves w w.conn w.dialled new w') w := by
  have hsent : ∀ (w' : World C) e, w'.conn = w.conn → w'.dialled = w.dialled → w'.log = w.log ++ [.wrote i req] →
      ∃ new, Attempted i req (some e) new ∧
        Moves w w.conn w.dialled new { w' with log := w'.log ++ [.failed i req e] } :=
    fun w' e hconn hn hlog => ⟨_, .failed e, hconn, hn, by simp [hlog]⟩
  simp only [roundTripOk, RoundTripRaw, note, World.exchange, wp_tryCatch, wp_bind, wp_mapError, wp_modify,
    wp_modifyGet, wp_throw]
  refine ⟨?_, fun e _ => ⟨_, .unsent (.io e), rfl, rfl, rfl⟩⟩
  intro reqBuf _
  split
  · exact hsent _ _ rfl rfl rfl
  · split
    · exact hsent _ _ rfl rfl rfl
    · simp only [wp_mapError]
      refine ⟨?_, fun e _ => hsent _ _ rfl rfl rfl⟩
      intro res _
      split
      · exact hsent _ _ rfl rfl rfl
      · simp only [wp_bind, wp_modify, wp_pure]
        exact ⟨_, .done, rfl, rfl, by simp⟩

/-- Closing the current connection. -/
def closing : Option ℕ → List (Event C)
  | none => []
  | some i => [.closed i]

lemma dropConn_log : wp dropConn (fun _ w' => Moves w none w.dialled (closing w.conn) w') (fun _ _ => False) w := by
  simp only [dropConn, closeConn, setConn, note, wp_bind, wp_get]
  cases hc : w.conn with
  | none => exact ⟨hc, rfl, (List.append_nil _).symm⟩
  | some i => exact ⟨rfl, rfl, rfl⟩

lemma connectLocked_log (env : Reconnect) :
    wp (connectLocked st env)
      (fun _ w' => Moves w (some w.dialled) (w.dialled + 1) (closing w.conn ++ handshake (initRequest st) w.dialled) w')
      (fun _ w' => ∃ n new, Unconnected (initRequest st) w.dialled n new ∧ Moves w none n (closing w.conn ++ new) w')
      w := by
  rw [connectLocked, wp_bind]
  refine wp_mono dropConn_log ?_ fun _ _ hfalse => hfalse.elim
  intro _ w₁ h₁
  simp only [dialer, note, InitializeConn, wp_bind, wp_mapError, wp_modifyGet, wp_modify, wp_pure, wp_tryCatch]
  refine ⟨?_, fun e _ => ⟨_, _, .undialled, by simpa using h₁⟩⟩
  rintro - -
  refine wp_mono roundTripOk_log ?_ ?_
  · rintro _ w₂ ⟨new, hatt, h₂⟩
    cases hatt
    simp only [setConn, wp_pure, wp_modify]
    refine ⟨by rw [h₁.dialled], by rw [h₂.dialled, h₁.dialled], ?_⟩
    rw [h₂.log, h₁.log]
    simp [handshake, h₁.dialled]
  · rintro e w₂ ⟨new, hatt, h₂⟩
    simp only [closeConn, note, wp_bind, wp_modify, wp_throw]
    rw [h₁.dialled] at hatt
    refine ⟨_, _, .refused e new hatt, h₂.conn.trans h₁.conn, by rw [h₂.dialled, h₁.dialled], ?_⟩
    rw [h₂.log, h₁.log]
    simp [h₁.dialled]

section Call

variable {c : Call} {env : RpcEnv}

lemma dispatch_log {i : ℕ} (hi : w.conn = some i) (t : Trip) :
    wp (dispatch (fun t i => roundTripOk st c.reply t i c.request) t)
      (fun _ w' => ∃ new, Attempted i c.request none new ∧ Moves w (some i) w.dialled new w')
      (fun e w' => ∃ new, Attempted i c.request (some e) new ∧ Moves w (some i) w.dialled new w') w := by
  simp only [dispatch, wp_bind, wp_get, hi]
  refine wp_mono roundTripOk_log ?_ ?_ <;> simp [hi]

/-- The call is dispatched on `i` in `w`, and ends in `w'`. -/
def Dispatches (st : Setting C) (c : Call) (env : RpcEnv) (i : ℕ) (w w' : World C) : Prop :=
  ∃ conn n new, Dispatched (initRequest st) c.request env i w.dialled conn n new ∧ Moves w conn n new w'

lemma retry_log {i : ℕ} {e : Err} {w' : World C} {att : List (Event C)} (hatt : Attempted i c.request (some e) att)
    (hw : Moves w (some i) w.dialled att w') (hconn : isConnError e = true) (hctx : env.ctxErr = false) :
    wp (retry st env (fun t i => roundTripOk st c.reply t i c.request) e) (fun _ => Dispatches st c env i w)
      (fun _ => Dispatches st c env i w) w' := by
  simp only [retry, wp_bind, wp_within, id_eq]
  refine wp_mono (connectLocked_log env.reconnect) ?_ ?_
  · intro _ w₁ h₁
    rw [hw.conn, hw.dialled] at h₁
    have hfinal : ∀ out w₂, (∃ att', Attempted w.dialled c.request out att' ∧
        Moves w₁ (some w.dialled) w₁.dialled att' w₂) → Dispatches st c env i w w₂ := by
      rintro out w₂ ⟨att', hatt', h₂⟩
      rw [h₁.dialled] at h₂
      refine ⟨_, _, _, .retried e att out att' hatt hconn hctx hatt', ?_⟩
      simpa [closing] using (hw.trans h₁).trans h₂
    exact wp_mono (dispatch_log h₁.conn env.second) (fun _ w₂ h => hfinal none w₂ h) fun e' w₂ h => hfinal _ w₂ h
  · rintro _ w₁ ⟨n, new, hun, h₁⟩
    rw [hw.conn, hw.dialled] at *
    refine ⟨_, _, _, .lost e att n new hatt hconn hctx hun, ?_⟩
    simpa [closing] using hw.trans h₁

lemma dispatched_log (pkg : Package) {i : ℕ} (hi : w.conn = some i) :
    wp (tryCatch (dispatch (fun t i => roundTripOk st c.reply t i c.request) env.first) fun err =>
        recover st env (fun t i => roundTripOk st c.reply t i c.request) err pkg)
      (fun _ => Dispatches st c env i w) (fun _ => Dispatches st c env i w) w := by
  have hended : ∀ out w', (∃ new, Attempted i c.request out new ∧ Moves w (some i) w.dialled new w') →
      Dispatches st c env i w w' := by
    rintro out w' ⟨new, hatt, hw⟩
    exact ⟨_, _, _, .ended out new hatt, hw⟩
  rw [wp_tryCatch]
  refine wp_mono (dispatch_log hi env.first) (fun _ w' h => hended none w' h) ?_
  rintro e w' ⟨att, hatt, hw⟩
  unfold recover
  cases pkg with
  | nitro =>
    dsimp only
    split
    · exact hended _ w' ⟨att, hatt, hw⟩
    case isFalse hretry =>
      obtain ⟨hconn, hctx⟩ : isConnError e = true ∧ env.ctxErr = false := by simpa using hretry
      exact retry_log hatt hw hconn hctx
  | confidentialSpace =>
    dsimp only
    split
    · rw [wp_bind]
      refine wp_mono dropConn_log ?_ fun _ _ hfalse => hfalse.elim
      intro _ w'' hdrop
      rw [hw.conn, hw.dialled] at hdrop
      exact ⟨_, _, _, .dropped e att hatt, hw.trans hdrop⟩
    case isFalse hctx =>
      split
      · exact hended _ w' ⟨att, hatt, hw⟩
      case isFalse hconn => exact retry_log hatt hw (by simpa using hconn) (by simpa using hctx)

/-- The call is made in `w`, and ends in `w'`. -/
def Calls (st : Setting C) (c : Call) (env : RpcEnv) (w w' : World C) : Prop :=
  ∃ conn n new, Called (initRequest st) c.request env w.dialled w.conn conn n new ∧ Moves w conn n new w'

/-- **What a call can do.** -/
theorem call_log (pkg : Package) :
    wp (call st pkg env c) (fun _ => Calls st c env w) (fun _ => Calls st c env w) w := by
  rw [call, doRPC, wp_bind]
  simp only [ensureConn, wp_bind, wp_get]
  cases hconn : w.conn with
  | some i =>
    have hcall : ∀ w', Dispatches st c env i w w' → Calls st c env w w' := by
      rintro w' ⟨conn, n, new, hd, hw⟩
      exact ⟨conn, n, new, by rw [hconn]; exact .current i conn n new hd, hw⟩
    rw [wp_pure]
    exact wp_mono (dispatched_log pkg hconn) (fun _ => hcall) fun _ => hcall
  | none =>
    simp only [wp_within, id_eq]
    refine wp_mono (connectLocked_log env.connect) ?_ ?_
    · intro _ w₁ h₁
      rw [hconn] at h₁
      have hcall : ∀ w', Dispatches st c env w.dialled w₁ w' → Calls st c env w w' := by
        rintro w' ⟨conn, n, new, hd, hw⟩
        rw [h₁.dialled] at hd
        exact ⟨conn, n, _, by rw [hconn]; exact .connected conn n new hd, h₁.trans hw⟩
      exact wp_mono (dispatched_log pkg h₁.conn) (fun _ => hcall) fun _ => hcall
    · rintro _ w₁ ⟨n, new, hun, h₁⟩
      rw [hconn] at h₁
      exact ⟨none, n, new, by rw [hconn]; exact .unconnected n new hun, h₁⟩

end Call

end Log

/-! ## What holds after every call -/

/-- What may be logged after `past`: requests on connections that are initialized and not closed. -/
def Allowed (init : Request C) (past : List (Event C)) : Event C → Prop
  | .wrote i req => req.Initialize = none → .done i init ∈ past ∧ .closed i ∉ past
  | .nilConn => False
  | .dialled _ | .done .. | .failed .. | .closed _ => True

def Proper (init : Request C) : List (Event C) → List (Event C) → Prop
  | _, [] => True
  | past, e :: rest => Allowed init past e ∧ Proper init (past ++ [e]) rest

lemma proper_append {init : Request C} {past a b : List (Event C)} :
    Proper init past (a ++ b) ↔ Proper init past a ∧ Proper init (past ++ a) b := by
  induction a generalizing past with
  | nil => simp [Proper]
  | cons e a ih => simp [Proper, ih, and_assoc]

/-- With `conn` the current connection, `n` the next number and `log` the log. -/
structure Inv (init : Request C) (conn : Option ℕ) (n : ℕ) (log : List (Event C)) : Prop where
  proper : Proper init [] log
  /-- Numbers in the log are numbers of connections. -/
  numbered : ∀ i, .dialled i ∈ log ∨ .closed i ∈ log → i < n
  current : ∀ i, conn = some i → i < n ∧ .done i init ∈ log ∧ .closed i ∉ log
  accounted : ∀ i, i < n → conn = some i ∨ .closed i ∈ log

section Inv

variable {init req : Request C} {env : RpcEnv} {conn conn' : Option ℕ} {i n n' : ℕ} {log new : List (Event C)}

lemma inv_new : Inv init none 0 [] := ⟨trivial, by simp, by simp, by simp⟩

lemma Inv.attempted (h : Inv init (some i) n log) {out : Option Err}
    (hatt : Attempted i req out new) : Inv init (some i) n (log ++ new) := by
  obtain ⟨hlt, hdone, hopen⟩ := h.current i rfl
  have hproper : Proper init log new := by
    cases hatt <;> simp [Proper, Allowed, hdone, hopen]
  have hnone : ∀ j, .dialled j ∉ new ∧ .closed j ∉ new := by
    intro j
    cases hatt <;> simp
  refine ⟨proper_append.2 ⟨h.proper, by simpa using hproper⟩, ?_, ?_, ?_⟩
  · intro j hj
    exact h.numbered j (by simpa [hnone j] using hj)
  · rintro j ⟨⟩
    exact ⟨hlt, List.mem_append_left _ hdone, by simp [hopen, hnone i]⟩
  · intro j hj
    exact (h.accounted j hj).imp_right (List.mem_append_left _)

lemma Inv.closed (h : Inv init (some i) n log) : Inv init none n (log ++ [.closed i]) := by
  obtain ⟨hlt, -, -⟩ := h.current i rfl
  refine ⟨proper_append.2 ⟨h.proper, by simp [Proper, Allowed]⟩, ?_, by simp, ?_⟩
  · intro j hj
    have hj' : (.dialled j ∈ log ∨ .closed j ∈ log) ∨ j = i := by
      simpa [or_assoc] using hj
    rcases hj' with hj' | rfl
    · exact h.numbered j hj'
    · exact hlt
  · intro j hj
    rcases h.accounted j hj with hc | hc
    · exact Or.inr (by simp [Option.some.inj hc])
    · exact Or.inr (List.mem_append_left _ hc)

lemma Inv.handshake (h : Inv init none n log) (hinit : init.Initialize ≠ none) :
    Inv init (some n) (n + 1) (log ++ handshake init n) := by
  refine ⟨proper_append.2 ⟨h.proper, by simp [Rpc.handshake, Proper, Allowed, hinit]⟩, ?_, ?_, ?_⟩
  · intro j hj
    by_cases hjn : j = n
    · omega
    · have hold : .dialled j ∉ Rpc.handshake init n ∧ .closed j ∉ Rpc.handshake init n := by
        simp [Rpc.handshake, hjn]
      rw [List.mem_append, List.mem_append] at hj
      have := h.numbered j (by tauto)
      omega
  · rintro j ⟨⟩
    refine ⟨by omega, by simp [Rpc.handshake], ?_⟩
    -- the number is new, so it is not in the old log
    intro hclosed
    have := h.numbered n (Or.inr (by simpa [Rpc.handshake] using hclosed))
    omega
  · intro j hj
    rcases Nat.lt_succ_iff_lt_or_eq.1 hj with hj' | rfl
    · rcases h.accounted j hj' with hc | hc
      · cases hc
      · exact Or.inr (List.mem_append_left _ hc)
    · exact Or.inl rfl

lemma Inv.unconnected (h : Inv init none n log) (hinit : init.Initialize ≠ none)
    (hun : Unconnected init n n' new) : Inv init none n' (log ++ new) := by
  cases hun with
  | undialled => simpa using h
  | refused e att hatt =>
    have hproper : Proper init log (.dialled n :: att ++ [.closed n]) := by
      cases hatt <;> simp [Proper, Allowed, hinit]
    have hnew : ∀ j, .dialled j ∈ .dialled n :: att ++ [.closed n] ∨ .closed j ∈ .dialled n :: att ++ [.closed n] →
        j = n := by
      intro j
      cases hatt <;> simp
    refine ⟨proper_append.2 ⟨h.proper, hproper⟩, ?_, by simp, ?_⟩
    · intro j hj
      by_cases hjn : j = n
      · omega
      · have hold : .dialled j ∈ log ∨ .closed j ∈ log :=
          hj.imp (fun hj => (List.mem_append.1 hj).resolve_right fun h' => hjn (hnew j (Or.inl h')))
            fun hj => (List.mem_append.1 hj).resolve_right fun h' => hjn (hnew j (Or.inr h'))
        have := h.numbered j hold
        omega
    · intro j hj
      rcases Nat.lt_succ_iff_lt_or_eq.1 hj with hj' | rfl
      · rcases h.accounted j hj' with hc | hc
        · cases hc
        · exact Or.inr (List.mem_append_left _ hc)
      · exact Or.inr (by simp)

lemma Inv.dispatched (h : Inv init (some i) n log) (hinit : init.Initialize ≠ none)
    (hd : Dispatched init req env i n conn' n' new) : Inv init conn' n' (log ++ new) := by
  cases hd with
  | ended out att hatt => exact h.attempted hatt
  | dropped e att hatt =>
    rw [← List.append_assoc]
    exact (h.attempted hatt).closed
  | lost e att n' new hatt hconn hctx hun =>
    rw [← List.append_assoc, ← List.append_assoc]
    exact (h.attempted hatt).closed.unconnected hinit hun
  | retried e att out att' hatt hconn hctx hatt' =>
    rw [← List.append_assoc, ← List.append_assoc, ← List.append_assoc]
    exact ((h.attempted hatt).closed.handshake hinit).attempted hatt'

lemma Inv.called (h : Inv init conn n log) (hinit : init.Initialize ≠ none)
    (hc : Called init req env n conn conn' n' new) : Inv init conn' n' (log ++ new) := by
  cases hc with
  | unconnected n' new hun => exact h.unconnected hinit hun
  | connected conn n' new hd =>
    rw [← List.append_assoc]
    exact (h.handshake hinit).dispatched hinit hd
  | current i conn n' new hd => exact h.dispatched hinit hd

lemma Inv.closing (h : Inv init conn n log) : Inv init none n (log ++ closing conn) := by
  cases conn with
  | none => simpa [Rpc.closing] using h
  | some i => exact h.closed

end Inv

/-- The invariant of a client. -/
def World.Inv (st : Setting C) (w : World C) : Prop := Rpc.Inv (initRequest st) w.conn w.dialled w.log

theorem World.Inv.step {st : Setting C} {w : World C} (h : w.Inv st) (pkg : Package) (op : Op) :
    (step st pkg w op).2.Inv st := by
  have hinit : (initRequest st).Initialize ≠ none := by simp [initRequest]
  have hmoves : ∀ {w' : World C} {conn n new}, Moves w conn n new w' →
      Rpc.Inv (initRequest st) conn n (w.log ++ new) → w'.Inv st := by
    rintro w' conn n new ⟨hconn, hn, hlog⟩ hinv
    unfold World.Inv
    rwa [hconn, hn, hlog]
  cases op with
  | connect env =>
    refine (wp_state (connectLocked st env) (World.Inv st)).1 (wp_mono (connectLocked_log env) ?_ ?_)
    · intro _ w' hw
      refine hmoves hw ?_
      rw [← List.append_assoc]
      exact (Inv.closing h).handshake hinit
    · rintro _ w' ⟨n, new, hun, hw⟩
      refine hmoves hw ?_
      rw [← List.append_assoc]
      exact (Inv.closing h).unconnected hinit hun
  | close =>
    refine (wp_state dropConn (World.Inv st)).1 (wp_mono dropConn_log ?_ fun _ _ hfalse => hfalse.elim)
    intro _ w' hw
    exact hmoves hw (Inv.closing h)
  | rpc c env =>
    have hcall : ∀ w', Calls st c env w w' → w'.Inv st := by
      rintro w' ⟨conn, n, new, hc, hw⟩
      exact hmoves hw (Inv.called h hinit hc)
    exact (wp_state (call st pkg env c) (World.Inv st)).1
      (wp_mono (call_log pkg) (fun _ => hcall) fun _ => hcall)

theorem inv_run (st : Setting C) (pkg : Package) (ops : List Op) : (final (step st pkg) {} ops).Inv st :=
  inv_final (I := World.Inv st) (show World.Inv st {} from inv_new) (fun _ op h => h.step pkg op) ops

lemma allowed_of_proper {init : Request C} {pre post : List (Event C)} {e : Event C}
    (h : Proper init [] (pre ++ e :: post)) : Allowed init pre e := by
  have := (proper_append.1 h).2.1
  simpa using this

/-! ## What one call does -/

/-- The connections that requests other than `Initialize` are written to, in order. -/
def requestWrites : List (Event C) → List ℕ
  | [] => []
  | .wrote i req :: rest => if req.Initialize.isNone then i :: requestWrites rest else requestWrites rest
  | _ :: rest => requestWrites rest

/-- After an error of the signer nothing more is written. -/
def FinalErrors : List (Event C) → Prop
  | [] => True
  | .failed _ _ (.rpc _) :: rest => (∀ j req, .wrote j req ∉ rest) ∧ FinalErrors rest
  | _ :: rest => FinalErrors rest

lemma requestWrites_append (a b : List (Event C)) : requestWrites (a ++ b) = requestWrites a ++ requestWrites b := by
  induction a with
  | nil => rfl
  | cons e a ih =>
    cases e with
    | wrote i req =>
      simp only [List.cons_append, requestWrites, ih]
      split <;> rfl
    | dialled | done | failed | closed | nilConn => exact ih

lemma finalErrors_append {a b : List (Event C)} (ha : ∀ i req e, .failed i req (.rpc e) ∉ a) (hb : FinalErrors b) :
    FinalErrors (a ++ b) := by
  induction a with
  | nil => exact hb
  | cons x a ih =>
    have hrest := ih fun i req e h => ha i req e (List.mem_cons_of_mem _ h)
    cases x with
    | failed i req e =>
      cases e with
      | rpc e => exact absurd List.mem_cons_self (ha i req e)
      | io | context | reconnect | nilConn => exact hrest
    | dialled | wrote | done | closed | nilConn => exact hrest

lemma finalErrors_split {pre post : List (Event C)} {i : ℕ} {req : Request C} {e : RPCError}
    (h : FinalErrors (pre ++ .failed i req (.rpc e) :: post)) : ∀ j req', .wrote j req' ∉ post := by
  induction pre with
  | nil => exact h.1
  | cons x pre ih =>
    cases x with
    | failed j req' e' =>
      cases e' with
      | rpc e' => exact ih h.2
      | io | context | reconnect | nilConn => exact ih h
    | dialled | wrote | done | closed | nilConn => exact ih h

section OneCall

variable {init req : Request C} {env : RpcEnv} {conn conn' : Option ℕ} {i n n' : ℕ} {new att : List (Event C)}

/-- An attempt that ends in an error ends with it; nothing follows but the closing of the connection. -/
lemma Attempted.finalErrors {out : Option Err} (h : Attempted i req out att) (rest : List (Event C))
    (hrest : ∀ j req', .wrote j req' ∉ rest) (hfinal : FinalErrors rest) : FinalErrors (att ++ rest) := by
  have hfailed : ∀ e, FinalErrors (.failed i req e :: rest) := by
    intro e
    cases e with
    | rpc e => exact ⟨hrest, hfinal⟩
    | io | context | reconnect | nilConn => exact hfinal
  cases h with
  | done => exact hfinal
  | unsent e => exact hfailed e
  | failed e => exact hfailed e

lemma Attempted.not_rpc {e : Err} (h : Attempted i req (some e) att) (he : isConnError e = true) (j : ℕ)
    (req' : Request C) (e' : RPCError) : .failed j req' (.rpc e') ∉ att := by
  cases h <;> cases e <;> simp_all [isConnError]

lemma Unconnected.finalErrors (h : Unconnected init n n' new) : FinalErrors new := by
  cases h with
  | undialled => trivial
  | refused e att hatt => exact hatt.finalErrors [.closed n] (by simp) trivial

lemma Dispatched.finalErrors (h : Dispatched init req env i n conn' n' new) : FinalErrors new := by
  cases h with
  | ended out att hatt => simpa using hatt.finalErrors [] (by simp) trivial
  | dropped e att hatt => exact hatt.finalErrors [.closed i] (by simp) trivial
  | lost e att n' new hatt hconn hctx hun =>
    refine finalErrors_append ?_ hun.finalErrors
    simpa using hatt.not_rpc hconn
  | retried e att out att' hatt hconn hctx hatt' =>
    refine finalErrors_append ?_ (by simpa using hatt'.finalErrors [] (by simp) trivial)
    simpa [handshake] using hatt.not_rpc hconn

lemma Called.finalErrors (h : Called init req env n conn conn' n' new) : FinalErrors new := by
  cases h with
  | unconnected n' new hun => exact hun.finalErrors
  | connected conn n' new hd => exact finalErrors_append (by simp [handshake]) hd.finalErrors
  | current i conn n' new hd => exact hd.finalErrors

/-- Requests are written at most twice; the second time on a connection that was dialled after the first attempt failed
with a connection-level error, and with the context not cancelled. -/
def AtMostTwice (req : Request C) (env : RpcEnv) (new : List (Event C)) : Prop :=
  (requestWrites new).length ≤ 2 ∧ ∀ i j, requestWrites new = [i, j] → env.ctxErr = false ∧
    ∃ a e b d f, isConnError e = true ∧
      new = a ++ .wrote i req :: .failed i req e :: b ++ .dialled j :: d ++ .wrote j req :: f

lemma Unconnected.requestWrites (h : Unconnected init n n' new) (hinit : init.Initialize ≠ none) :
    requestWrites new = [] := by
  cases h with
  | undialled => rfl
  | refused e att hatt => cases hatt <;> simp [Rpc.requestWrites, hinit]

lemma Attempted.requestWrites_cases {out : Option Err} (h : Attempted i req out att) (hreq : req.Initialize = none) :
    requestWrites att = [] ∨ requestWrites att = [i] ∧
      ∃ rest, att = .wrote i req :: rest ∧ ∀ e, out = some e → rest = [.failed i req e] := by
  cases h with
  | done => exact Or.inr ⟨by simp [requestWrites, hreq], _, rfl, by simp⟩
  | unsent e => exact Or.inl rfl
  | failed e => exact Or.inr ⟨by simp [requestWrites, hreq], _, rfl, by simp⟩

lemma atMostTwice_of_le (h : (requestWrites new).length ≤ 1) : AtMostTwice req env new := by
  refine ⟨by omega, ?_⟩
  intro i j e
  rw [e] at h
  simp at h

lemma AtMostTwice.append (h : AtMostTwice req env new) {pre : List (Event C)} (hpre : requestWrites pre = []) :
    AtMostTwice req env (pre ++ new) := by
  have hsame : requestWrites (pre ++ new) = requestWrites new := by rw [requestWrites_append, hpre, List.nil_append]
  obtain ⟨hle, hsecond⟩ := h
  refine ⟨by rwa [hsame], ?_⟩
  intro i j hij
  obtain ⟨hctx, a, e, b, d, f, he, rfl⟩ := hsecond i j (hsame ▸ hij)
  exact ⟨hctx, pre ++ a, e, b, d, f, he, by simp⟩

lemma Dispatched.atMostTwice (h : Dispatched init req env i n conn' n' new) (hinit : init.Initialize ≠ none)
    (hreq : req.Initialize = none) : AtMostTwice req env new := by
  have hone : ∀ {i out att}, Attempted i req out att → (requestWrites att).length ≤ 1 := by
    intro i out att hatt
    rcases hatt.requestWrites_cases hreq with e | ⟨e, -⟩ <;> simp [e]
  cases h with
  | ended out att hatt => exact atMostTwice_of_le (hone hatt)
  | dropped e att hatt => exact atMostTwice_of_le (by simpa [requestWrites_append, requestWrites] using hone hatt)
  | lost e att n' new hatt hconn hctx hun =>
    refine atMostTwice_of_le ?_
    simpa [requestWrites_append, requestWrites, hun.requestWrites hinit] using hone hatt
  | retried e att out att' hatt hconn hctx hatt' =>
    have hwrites : requestWrites (att ++ [.closed i] ++ handshake init n ++ att') =
        requestWrites att ++ requestWrites att' := by
      simp [requestWrites_append, requestWrites, handshake, hinit]
    have h1 := hone hatt
    have h2 := hone hatt'
    refine ⟨by rw [hwrites, List.length_append]; omega, ?_⟩
    intro i' j' hij
    rw [hwrites] at hij
    rcases hatt.requestWrites_cases hreq with e₁ | ⟨e₁, rest, rfl, hrest⟩
    · rw [e₁, List.nil_append] at hij
      rw [hij] at h2
      simp at h2
    · rcases hatt'.requestWrites_cases hreq with e₂ | ⟨e₂, rest', rfl, -⟩
      · simp [e₁, e₂] at hij
      · obtain ⟨rfl, rfl⟩ : i = i' ∧ n = j' := by simpa [e₁, e₂] using hij
        obtain rfl := hrest e rfl
        exact ⟨hctx, [], e, [.closed i], [.wrote n init, .done n init], rest', hconn, by simp [handshake]⟩

lemma Called.atMostTwice (h : Called init req env n conn conn' n' new) (hinit : init.Initialize ≠ none)
    (hreq : req.Initialize = none) : AtMostTwice req env new := by
  cases h with
  | unconnected n' new hun => exact atMostTwice_of_le (by simp [hun.requestWrites hinit])
  | connected conn n' new hd =>
    exact (hd.atMostTwice hinit hreq).append (by simp [handshake, requestWrites, hinit])
  | current i conn n' new hd => exact hd.atMostTwice hinit hreq

section Wrote

variable {j : ℕ} {req' : Request C}

lemma Attempted.wrote {out : Option Err} (h : Attempted i req out att) (hj : .wrote j req' ∈ att) : req' = req := by
  cases h <;> simp_all

lemma wrote_handshake (hj : .wrote j req' ∈ handshake init n) : req' = init := by
  simp only [handshake, List.mem_cons, List.not_mem_nil, or_false, reduceCtorEq, false_or, Event.wrote.injEq] at hj
  exact hj.2

lemma Unconnected.wrote (h : Unconnected init n n' new) (hj : .wrote j req' ∈ new) : req' = init := by
  cases h with
  | undialled => cases hj
  | refused e att hatt => exact hatt.wrote (by simpa using hj)

lemma Dispatched.wrote (h : Dispatched init req env i n conn' n' new) (hj : .wrote j req' ∈ new) :
    req' = req ∨ req' = init := by
  cases h with
  | ended out att hatt => exact Or.inl (hatt.wrote hj)
  | dropped e att hatt => exact Or.inl (hatt.wrote (by simpa using hj))
  | lost e att n' new hatt hconn hctx hun =>
    rcases List.mem_append.1 hj with hj | hj
    · exact Or.inl (hatt.wrote (by simpa using hj))
    · exact Or.inr (hun.wrote hj)
  | retried e att out att' hatt hconn hctx hatt' =>
    rcases List.mem_append.1 hj with hj | hj
    · rcases List.mem_append.1 hj with hj | hj
      · exact Or.inl (hatt.wrote (by simpa using hj))
      · exact Or.inr (wrote_handshake hj)
    · exact Or.inl (hatt'.wrote hj)

lemma Called.wrote (h : Called init req env n conn conn' n' new) (hj : .wrote j req' ∈ new) :
    req' = req ∨ req' = init := by
  cases h with
  | unconnected n' new hun => exact Or.inr (hun.wrote hj)
  | connected conn n' new hd =>
    rcases List.mem_append.1 hj with hj | hj
    · exact Or.inr (wrote_handshake hj)
    · exact hd.wrote hj
  | current i conn n' new hd => exact hd.wrote hj

end Wrote

end OneCall

lemma request_ne_init (c : Call) : (c.request : Request C).Initialize = none := by cases c <;> rfl

/-- **Connections are initialized and retries are bounded**, in every run of either package.

A request is only written to a connection on which `Initialize` has succeeded and that is not closed, and never to a nil
connection; every connection that was dialled is the current one or closed.  A call writes its request at most twice,
the second time only on a connection dialled after the first attempt failed with a connection-level error while the
context was not cancelled; and after an error of the signer it writes nothing more. -/
theorem connections_initialized_retries_bounded (st : Setting C) (pkg : Package) (ops : List Op) :
    let w := final (step st pkg) {} ops
    (∀ pre i req post, w.log = pre ++ .wrote i req :: post → req.Initialize = none →
      .done i (initRequest st) ∈ pre ∧ .closed i ∉ pre) ∧
    .nilConn ∉ w.log ∧
    (∀ i, .dialled i ∈ w.log → w.conn = some i ∨ .closed i ∈ w.log) ∧
    ∀ c env, ∃ new, (step st pkg w (.rpc c env)).2.log = w.log ++ new ∧
      (∀ i req, .wrote i req ∈ new → req = c.request ∨ req = initRequest st) ∧
      AtMostTwice c.request env new ∧
      ∀ pre i req e post, new = pre ++ .failed i req (.rpc e) :: post → ∀ j req', .wrote j req' ∉ post := by
  intro w
  have hinv : w.Inv st := inv_run st pkg ops
  refine ⟨?_, ?_, ?_, ?_⟩
  · intro pre i req post hlog
    have hproper := Inv.proper hinv
    rw [hlog] at hproper
    exact allowed_of_proper hproper
  · intro hnil
    obtain ⟨pre, post, hlog⟩ := List.append_of_mem hnil
    have hproper := Inv.proper hinv
    rw [hlog] at hproper
    exact allowed_of_proper hproper
  · intro i hi
    exact Inv.accounted hinv i (Inv.numbered hinv i (Or.inl hi))
  · intro c env
    have hcall : Calls st c env w (step st pkg w (.rpc c env)).2 :=
      (wp_state (call st pkg env c) (Calls st c env w)).1 (call_log pkg)
    obtain ⟨conn, n, new, hc, hmoves⟩ := hcall
    refine ⟨new, hmoves.log, fun i req => hc.wrote, ?_, ?_⟩
    · exact hc.atMostTwice (by simp [initRequest]) (request_ne_init c)
    · rintro pre i req e post rfl
      exact finalErrors_split hc.finalErrors

end Signatory.Vault.Rpc

import Signatory.Vault.Rpc.Client

/-!
# Responses and the requests they answer

A connection is in step (`InStep`) when whole frames have been sent on it and all their answers have been read.  A round
trip on such a connection that returns something returns the answer to its own frame.  It leaves the connection in step
or failed, unless the context was cancelled after the first byte was out and before the answer was in: then the rest of
the frame is missing, or its answer is still to come, and the connection looks like any other.

Every call of the Nitro client must not be cancelled there.  The Confidential Space client closes the connection in this
case, but not after the second attempt.
-/

namespace Signatory.Vault.Rpc

open Lib.Command Lib.Framing Lib.Machine
open Signer (Bytes)

/-! ## Connections in step -/

section Conn

variable {respond : List Bytes → Body} {t : Trip} {reqBuf : Bytes} {c : Conn}

structure InStep (respond : List Bytes → Body) (c : Conn) : Prop where
  whole : ∃ bodies : List Bytes, (∀ b ∈ bodies, b.length < 2 ^ 32) ∧ c.sent = (bodies.map frame).flatten
  read : c.read = (stream respond c.sent).length

/-- The connection is of no more use, or in step. -/
def Clean (respond : List Bytes → Body) (c : Conn) : Prop := c.failed = true ∨ InStep respond c

/-- The context is not cancelled between the first byte of the request and the last one of the answer. -/
def Trip.Whole (t : Trip) : Prop :=
  t.interrupted = true → t.accepts = some 0 ∨ t.accepts = none ∧ t.arrives = none

lemma whole_of_not_interrupted (h : t.interrupted = false) : t.Whole := fun hi => by simp [h] at hi

lemma inStep_new : InStep respond {} := ⟨⟨[], by simp, rfl⟩, rfl⟩

lemma InStep.frames_sent (h : InStep respond c) (hshort : reqBuf.length < 2 ^ 32) :
    frames (c.sent ++ frame reqBuf) = frames c.sent ++ [reqBuf] := by
  obtain ⟨bodies, hbodies, hsent⟩ := h.whole
  have hall : ∀ b ∈ bodies ++ [reqBuf], b.length < 2 ^ 32 := by
    intro b hb
    rcases List.mem_append.1 hb with hb | hb
    · exact hbodies b hb
    · rwa [List.mem_singleton.1 hb]
  have hsnoc : c.sent ++ frame reqBuf = ((bodies ++ [reqBuf]).map frame).flatten := by simp [hsent]
  rw [hsnoc, frames_flatten hall, hsent, frames_flatten hbodies]

lemma InStep.stream_sent (h : InStep respond c) (hshort : reqBuf.length < 2 ^ 32) :
    stream respond (c.sent ++ frame reqBuf) =
      stream respond c.sent ++ frame (respond (frames (c.sent ++ frame reqBuf))).1 := by
  unfold stream
  rw [h.frames_sent hshort, answers_snoc]

lemma InStep.ready (h : InStep respond c) (hshort : reqBuf.length < 2 ^ 32) :
    (stream respond (c.sent ++ frame reqBuf)).drop c.read =
      frame (respond (frames (c.sent ++ frame reqBuf))).1 := by
  rw [h.stream_sent hshort, h.read, List.drop_left]

lemma InStep.sent (h : InStep respond c) (hshort : reqBuf.length < 2 ^ 32) {failed : Bool} :
    InStep respond ⟨c.sent ++ frame reqBuf,
      c.read + (4 + (respond (frames (c.sent ++ frame reqBuf))).1.length), failed⟩ := by
  obtain ⟨bodies, hbodies, hsent⟩ := h.whole
  refine ⟨⟨bodies ++ [reqBuf], ?_, by simp [hsent]⟩, ?_⟩
  · intro b hb
    rcases List.mem_append.1 hb with hb | hb
    · exact hbodies b hb
    · rwa [List.mem_singleton.1 hb]
  · change _ = (stream respond (c.sent ++ frame reqBuf)).length
    rw [h.stream_sent hshort, List.length_append, length_frame, h.read]

/-- What arrives of the answer is all of it, or no frame. -/
lemma InStep.unframe_ready (h : InStep respond c) (hshort : reqBuf.length < 2 ^ 32) (arrives : Option ℕ)
    {body rest : Bytes}
    (hu : unframe (match arrives with
      | none => (stream respond (c.sent ++ frame reqBuf)).drop c.read
      | some n => ((stream respond (c.sent ++ frame reqBuf)).drop c.read).take n) = some (body, rest)) :
    body = (respond (frames (c.sent ++ frame reqBuf))).1 := by
  rw [h.ready hshort] at hu
  cases arrives with
  | none =>
    simp only at hu
    rw [← List.append_nil (frame _), unframe_frame_append (respond _).2] at hu
    exact (congrArg Prod.fst (Option.some.inj hu)).symm
  | some n => exact unframe_take_frame (respond _).2 hu

/-- **A round trip on a connection in step**: it ends with the answer to its own frame and in step; or it fails, with
the connection failed or as it was, unless the context was cancelled in the middle. -/
lemma InStep.exchange (h : InStep respond c) (hf : c.failed = false) (hshort : reqBuf.length < 2 ^ 32) (t : Trip) :
    (c.exchange respond t reqBuf = (some (respond (frames (c.sent ++ frame reqBuf))).1,
        ⟨c.sent ++ frame reqBuf, c.read + (4 + (respond (frames (c.sent ++ frame reqBuf))).1.length), false⟩)) ∨
      (c.exchange respond t reqBuf).1 = none ∧ c.sent <+: (c.exchange respond t reqBuf).2.sent ∧
        (t.Whole → Clean respond (c.exchange respond t reqBuf).2) := by
  unfold Conn.exchange
  simp only [hf, Bool.false_eq_true, if_false]
  cases ha : t.accepts with
  | some n =>
    refine Or.inr ⟨rfl, List.prefix_append _ _, ?_⟩
    intro hwhole
    cases hi : t.interrupted with
    | false => exact Or.inl rfl
    | true =>
      obtain rfl : n = 0 := by simpa [ha] using hwhole hi
      refine Or.inr ⟨?_, ?_⟩
      · simpa using h.whole
      · simpa using h.read
  | none =>
    simp only
    split
    case h_1 body rest hu =>
      obtain rfl := h.unframe_ready hshort t.arrives hu
      exact Or.inl rfl
    case h_2 hu =>
      refine Or.inr ⟨rfl, List.prefix_append _ _, ?_⟩
      intro hwhole
      cases hi : t.interrupted with
      | false => exact Or.inl rfl
      | true =>
        -- nothing keeps the answer back, so it would have been read
        have harr : t.arrives = none := by simpa [ha] using hwhole hi
        rw [harr] at hu
        simp only [h.ready hshort] at hu
        rw [← List.append_nil (frame _), unframe_frame_append (respond _).2] at hu
        cases hu

lemma Clean.exchange (h : Clean respond c) (hshort : reqBuf.length < 2 ^ 32) (t : Trip) :
    c.sent <+: (c.exchange respond t reqBuf).2.sent ∧
      (t.Whole → Clean respond (c.exchange respond t reqBuf).2) ∧
      ∀ body, (c.exchange respond t reqBuf).1 = some body →
        Clean respond (c.exchange respond t reqBuf).2 ∧
        (c.exchange respond t reqBuf).2.sent = c.sent ++ frame reqBuf ∧
        frames (c.sent ++ frame reqBuf) = frames c.sent ++ [reqBuf] ∧
        body = (respond (frames (c.sent ++ frame reqBuf))).1 := by
  cases hf : c.failed with
  | true =>
    have hsame : c.exchange respond t reqBuf = (none, c) := by simp [Conn.exchange, hf]
    rw [hsame]
    exact ⟨List.prefix_rfl, fun _ => h, fun _ hb => by cases hb⟩
  | false =>
    have hstep : InStep respond c := h.resolve_left (by simp [hf])
    rcases hstep.exchange hf hshort t with e | ⟨hnone, hgrown, hclean⟩
    · rw [e]
      refine ⟨List.prefix_append _ _, fun _ => Or.inr (hstep.sent hshort), ?_⟩
      rintro body hb
      exact ⟨Or.inr (hstep.sent hshort), rfl, hstep.frames_sent hshort, (Option.some.inj hb).symm⟩
    · exact ⟨hgrown, hclean, fun body hb => by simp [hnone] at hb⟩

end Conn

/-! ## Calls -/

section Call

variable {C : Type} {st : Setting C} {w w' w'' : World C}

/-- Between `w` and `w'`, a frame with the request was sent whole, after all that had been sent before, and `res` is
what the signer responded to this frame. -/
def Paired (st : Setting C) (w w' : World C) (r : Reply) (req : Request C) (res : Result r.Value) : Prop :=
  ∃ i reqBuf pre, st.codec.Marshal req = .ok reqBuf ∧ (w.conns i).sent <+: pre ∧
    (w'.conns i).sent = pre ++ frame reqBuf ∧ frames (pre ++ frame reqBuf) = frames pre ++ [reqBuf] ∧
    st.codec.Unmarshal r (st.respond i (frames (pre ++ frame reqBuf))).1 = .ok res

/-- The outcome of a call, if it is one that the signer decides, is what it responded to the call. -/
def Returned (st : Setting C) (w w' : World C) (r : Reply) (req : Request C) : Except Err (Option r.Value) → Prop
  | .ok v => ∃ res, Paired st w w' r req res ∧ res.err = none ∧ res.ok = v
  | .error (.rpc e) => ∃ res, Paired st w w' r req res ∧ res.err = some e
  | .error _ => True

/-- The length of the encoded request fits into four bytes. -/
def Setting.Short (st : Setting C) (req : Request C) : Prop :=
  ∀ reqBuf, st.codec.Marshal req = .ok reqBuf → reqBuf.length < 2 ^ 32

def Grows (w w' : World C) : Prop := ∀ i, (w.conns i).sent <+: (w'.conns i).sent

lemma Grows.refl (w : World C) : Grows w w := fun _ => List.prefix_rfl

lemma Grows.trans (h : Grows w w') (h' : Grows w' w'') : Grows w w'' := fun i => (h i).trans (h' i)

lemma Returned.of_grows {r : Reply} {req : Request C} (h : Grows w w') {out : Except Err (Option r.Value)}
    (hr : Returned st w' w'' r req out) : Returned st w w'' r req out := by
  have hpaired : ∀ {res}, Paired st w' w'' r req res → Paired st w w'' r req res := by
    rintro res ⟨i, reqBuf, pre, hm, hpre, hrest⟩
    exact ⟨i, reqBuf, pre, hm, (h i).trans hpre, hrest⟩
  cases out with
  | ok v =>
    obtain ⟨res, hres, hv⟩ := hr
    exact ⟨res, hpaired hres, hv⟩
  | error e =>
    cases e with
    | rpc e =>
      obtain ⟨res, hres, he⟩ := hr
      exact ⟨res, hpaired hres, he⟩
    | io | context | reconnect | nilConn => trivial

/-- The connections that are not dialled yet are as new. -/
def Unused (w : World C) : Prop := ∀ i, w.dialled ≤ i → w.conns i = {}

/-- And the current connection is clean. -/
structure Tidy (st : Setting C) (w : World C) : Prop where
  unused : Unused w
  clean : ∀ i, w.conn = some i → i < w.dialled ∧ Clean (st.respond i) (w.conns i)

/-- The world after something was done on the connection `i` only. -/
def World.touched (w : World C) (i : ℕ) (c : Conn) (log : List (Event C)) : World C :=
  { w with conns := Function.update w.conns i c, log := log }

lemma grows_update {i : ℕ} {c : Conn} (hconns : w'.conns = Function.update w.conns i c)
    (h : (w.conns i).sent <+: c.sent) : Grows w w' := by
  intro j
  rw [hconns]
  by_cases hj : j = i
  · subst hj
    simpa using h
  · rw [Function.update_of_ne hj]

lemma Unused.touched (h : Unused w) {i : ℕ} (hi : i < w.dialled) (c : Conn) (log : List (Event C)) :
    Unused (w.touched i c log) := by
  intro j hj
  have hj' : w.dialled ≤ j := hj
  have hne : j ≠ i := by omega
  simpa [World.touched, Function.update_of_ne hne] using h j hj'

lemma Tidy.touched (h : Tidy st w) {i : ℕ} {c : Conn} {log : List (Event C)} (hi : w.conn = some i)
    (hc : Clean (st.respond i) c) : Tidy st (w.touched i c log) := by
  obtain ⟨hlt, -⟩ := h.clean i hi
  refine ⟨h.unused.touched hlt c log, ?_⟩
  intro j hj
  obtain rfl : i = j := Option.some.inj (hi.symm.trans hj)
  exact ⟨hlt, by simpa [World.touched] using hc⟩

/-- **One round trip** on a clean connection. -/
lemma roundTripOk_spec {r : Reply} {t : Trip} {i : ℕ} {req : Request C} (hshort : st.Short req)
    (hclean : Clean (st.respond i) (w.conns i)) :
    wp (roundTripOk st r t i req)
      (fun v w' => ∃ c log, w' = w.touched i c log ∧ (w.conns i).sent <+: c.sent ∧ Clean (st.respond i) c ∧
        Returned st w w' r req (.ok v))
      (fun e w' => ∃ c log, w' = w.touched i c log ∧ (w.conns i).sent <+: c.sent ∧
        (t.Whole → Clean (st.respond i) c) ∧ Returned st w w' r req (.error e)) w := by
  have hsame : ∀ log, { w with log := log } = w.touched i (w.conns i) log := by
    intro log
    simp [World.touched]
  simp only [roundTripOk, RoundTripRaw, note, wp_bind, wp_tryCatch, wp_mapError, wp_modify, wp_modifyGet]
  refine ⟨?_, fun e _ => ⟨w.conns i, _, hsame _, List.prefix_rfl, fun _ => hclean, trivial⟩⟩
  intro reqBuf hm
  obtain ⟨hgrown, hwhole, hown⟩ := hclean.exchange (hshort reqBuf hm) t
  simp only [World.exchange]
  generalize (w.conns i).exchange (st.respond i) t reqBuf = out at hgrown hwhole hown ⊢
  obtain ⟨body, c⟩ := out
  cases hi : t.interrupted with
  | true =>
    simp only [if_true, wp_throw, wp_bind, wp_modify]
    exact ⟨c, _, rfl, hgrown, hwhole, trivial⟩
  | false =>
    cases body with
    | none =>
      simp only [Bool.false_eq_true, if_false, wp_throw, wp_bind, wp_modify]
      exact ⟨c, _, rfl, hgrown, hwhole, trivial⟩
    | some rBuf =>
      obtain ⟨hc, hsent, hframes, rfl⟩ := hown rBuf rfl
      simp only [Bool.false_eq_true, if_false, wp_mapError]
      refine ⟨?_, fun e _ => ⟨c, _, rfl, hgrown, hwhole, trivial⟩⟩
      intro res hres
      have hpaired : ∀ log, Paired st w (w.touched i c log) r req res := fun log =>
        ⟨i, reqBuf, (w.conns i).sent, hm, List.prefix_rfl, by simpa [World.touched] using hsent, hframes, hres⟩
      cases he : res.err with
      | none =>
        simp only [Result.Error, he, Option.map_none, wp_bind, wp_modify, wp_pure]
        exact ⟨c, _, rfl, hgrown, hc, res, hpaired _, he, rfl⟩
      | some e =>
        simp only [Result.Error, he, Option.map_some, wp_bind, wp_modify, wp_throw]
        exact ⟨c, _, rfl, hgrown, hwhole, res, hpaired _, he⟩

lemma Unused.dropped (h : Unused w) (log : List (Event C)) : Tidy st { w with conn := none, log := log } :=
  ⟨h, fun _ hi => by simp at hi⟩

lemma Unused.dialled (h : Unused w) {c : Conn} (hconns : w'.conns = Function.update w.conns w.dialled c)
    (hd : w'.dialled = w.dialled + 1)
    (hconn : ∀ i, w'.conn = some i → i = w.dialled ∧ Clean (st.respond i) c) : Tidy st w' := by
  refine ⟨?_, ?_⟩
  · intro i hi
    rw [hconns, Function.update_of_ne (by omega)]
    exact h i (by omega)
  · intro i hi
    obtain ⟨rfl, hc⟩ := hconn i hi
    exact ⟨by omega, by simpa [hconns] using hc⟩

lemma dropConn_spec (w : World C) :
    wp dropConn (fun _ w' => ∃ log, w' = { w with conn := none, log := log }) (fun _ _ => False) w := by
  simp only [dropConn, closeConn, setConn, note, wp_bind, wp_get]
  cases hc : w.conn with
  | none => exact ⟨w.log, by rw [← hc]⟩
  | some i => exact ⟨_, rfl⟩

lemma connectLocked_spec (hinit : st.Short (initRequest st)) (h : Unused w) (env : Reconnect) :
    wp (connectLocked st env) (fun _ w' => Grows w w' ∧ Tidy st w') (fun _ w' => Grows w w' ∧ Tidy st w') w := by
  simp only [connectLocked, wp_bind]
  refine wp_mono (dropConn_spec w) ?_ (fun _ _ hfalse => hfalse.elim)
  rintro _ _ ⟨log, rfl⟩
  simp only [dialer, note, wp_bind, wp_mapError, wp_modifyGet, wp_modify, wp_pure, wp_tryCatch]
  refine ⟨?_, fun e _ => ⟨Grows.refl w, h.dropped log⟩⟩
  rintro - -
  -- the new connection is one that nothing has been sent on
  have hnew : w.conns w.dialled = {} := h _ le_rfl
  simp only [InitializeConn, wp_bind]
  refine wp_mono (roundTripOk_spec hinit ?_) ?_ ?_
  · exact Or.inr (hnew ▸ inStep_new)
  · rintro _ _ ⟨c, log', rfl, hgrown, hclean, -⟩
    simp only [setConn, wp_pure, wp_modify]
    refine ⟨grows_update rfl hgrown, h.dialled (c := c) rfl rfl ?_⟩
    rintro i ⟨⟩
    exact ⟨rfl, hclean⟩
  · rintro _ _ ⟨c, log', rfl, hgrown, -⟩
    simp only [closeConn, note, wp_bind, wp_modify, wp_throw]
    exact ⟨grows_update rfl hgrown, h.dialled (c := c) rfl rfl (fun i hi => by simp [World.touched] at hi)⟩

/-- A call makes its first attempt: there is a connection, or one is made. -/
def Tried (st : Setting C) (w : World C) (env : RpcEnv) : Prop :=
  ∃ w₁, exec (ensureConn st env.connect) w = (.ok (), w₁)

/-- A call makes a second attempt: the connection fails in the first one, the context is live after it, and another
connection is made. -/
def Retried (st : Setting C) (w : World C) (c : Call) (env : RpcEnv) : Prop :=
  ∃ w₁ err w₂ w₃, exec (ensureConn st env.connect) w = (.ok (), w₁) ∧
    exec (dispatch (fun t i => roundTripOk st c.reply t i c.request) env.first) w₁ = (.error err, w₂) ∧
    isConnError err = true ∧ env.ctxErr = false ∧ exec (connectLocked st env.reconnect) w₂ = (.ok (), w₃)

/-- The environment does nothing to a call that leaves the connection of the client out of step. -/
def RpcEnv.Whole (st : Setting C) (w : World C) (c : Call) (env : RpcEnv) : Package → Prop
  | .nitro => (Tried st w env → env.first.Whole) ∧ (Retried st w c env → env.second.Whole)
  | .confidentialSpace => Retried st w c env → env.second.Whole

section doRPC

variable {c : Call} {env : RpcEnv}

lemma dispatch_spec (hshort : st.Short c.request) (h : Tidy st w) (t : Trip) :
    wp (dispatch (fun t i => roundTripOk st c.reply t i c.request) t)
      (fun v w' => Tidy st w' ∧ Returned st w w' c.reply c.request (.ok v))
      (fun e w' => Grows w w' ∧ Unused w' ∧ (t.Whole → Tidy st w') ∧
        Returned st w w' c.reply c.request (.error e)) w := by
  simp only [dispatch, wp_bind, wp_get]
  cases hc : w.conn with
  | none =>
    simp only [note, wp_bind, wp_modify, wp_throw]
    have htidy : Tidy st { w with log := w.log ++ [.nilConn] } := ⟨h.unused, h.clean⟩
    exact ⟨Grows.refl w, h.unused, fun _ => htidy, trivial⟩
  | some i =>
    obtain ⟨hlt, hclean⟩ := h.clean i hc
    refine wp_mono (roundTripOk_spec hshort hclean) ?_ ?_
    · rintro v _ ⟨c, log, rfl, -, hc', hr⟩
      exact ⟨h.touched hc hc', hr⟩
    · rintro e _ ⟨c, log, rfl, hgrown, hwhole, hr⟩
      exact ⟨grows_update rfl hgrown, h.unused.touched hlt c log, fun ht => h.touched hc (hwhole ht), hr⟩

lemma ensureConn_spec (hinit : st.Short (initRequest st)) (h : Tidy st w) (env : Reconnect) :
    wp (ensureConn st env) (fun _ w' => Grows w w' ∧ Tidy st w')
      (fun e w' => Tidy st w' ∧ Returned st w w' c.reply c.request (.error e)) w := by
  simp only [ensureConn, wp_bind, wp_get]
  cases hc : w.conn with
  | some i => exact ⟨Grows.refl w, h⟩
  | none =>
    simp only [wp_within]
    exact wp_mono (connectLocked_spec hinit h.unused env) (fun _ _ h' => h') fun _ _ h' => ⟨h'.2, trivial⟩

lemma retry_spec (hinit : st.Short (initRequest st)) (hshort : st.Short c.request) (h : Unused w)
    (hwhole : ∀ w₁, exec (connectLocked st env.reconnect) w = (.ok (), w₁) → env.second.Whole) (err : Err) :
    wp (retry st env (fun t i => roundTripOk st c.reply t i c.request) err)
      (fun v w' => Tidy st w' ∧ Returned st w w' c.reply c.request (.ok v))
      (fun e w' => Tidy st w' ∧ Returned st w w' c.reply c.request (.error e)) w := by
  simp only [retry, wp_bind, wp_within]
  refine wp_mono_exec (connectLocked_spec hinit h env.reconnect) ?_ fun _ _ _ h' => ⟨h'.2, trivial⟩
  rintro _ w₁ hw₁ ⟨hgrows, htidy⟩
  refine wp_mono (dispatch_spec hshort htidy env.second) ?_ ?_
  · rintro v w₂ ⟨htidy₂, hr⟩
    exact ⟨htidy₂, hr.of_grows hgrows⟩
  · rintro e w₂ ⟨-, -, htidy₂, hr⟩
    exact ⟨htidy₂ (hwhole w₁ hw₁), hr.of_grows hgrows⟩

lemma retry_returned (hinit : st.Short (initRequest st)) (hshort : st.Short c.request) (h : Unused w')
    (hwhole : ∀ w₁, exec (connectLocked st env.reconnect) w' = (.ok (), w₁) → env.second.Whole) (hgrows : Grows w w')
    (err : Err) :
    wp (retry st env (fun t i => roundTripOk st c.reply t i c.request) err)
      (fun v w'' => Tidy st w'' ∧ Returned st w w'' c.reply c.request (.ok v))
      (fun e w'' => Tidy st w'' ∧ Returned st w w'' c.reply c.request (.error e)) w' :=
  wp_mono (retry_spec hinit hshort h hwhole err) (fun _ _ h' => ⟨h'.1, h'.2.of_grows hgrows⟩)
    fun _ _ h' => ⟨h'.1, h'.2.of_grows hgrows⟩

/-- After a first attempt that failed with `err` between `w` and `w'`. -/
lemma recover_spec (pkg : Package) (hinit : st.Short (initRequest st)) (hshort : st.Short c.request) {err : Err}
    (hfirst : pkg = .nitro → env.first.Whole)
    (hsecond : isConnError err = true → env.ctxErr = false →
      ∀ w₁, exec (connectLocked st env.reconnect) w' = (.ok (), w₁) → env.second.Whole)
    (hunused : Unused w') (htidy : env.first.Whole → Tidy st w') (hgrows : Grows w w')
    (hr : Returned st w w' c.reply c.request (.error err)) :
    wp (recover st env (fun t i => roundTripOk st c.reply t i c.request) err pkg)
      (fun v w'' => Tidy st w'' ∧ Returned st w w'' c.reply c.request (.ok v))
      (fun e w'' => Tidy st w'' ∧ Returned st w w'' c.reply c.request (.error e)) w' := by
  unfold recover
  cases pkg with
  | nitro =>
    dsimp only
    split
    · exact ⟨htidy (hfirst rfl), hr⟩
    case isFalse hgo =>
      simp only [Bool.or_eq_true, Bool.not_eq_true', not_or, Bool.not_eq_false, Bool.not_eq_true] at hgo
      exact retry_returned hinit hshort hunused (hsecond hgo.1 hgo.2) hgrows err
  | confidentialSpace =>
    dsimp only
    split
    · -- the connection may be out of step, but it is dropped
      rw [wp_bind]
      refine wp_mono (dropConn_spec w') ?_ (fun _ _ hfalse => hfalse.elim)
      rintro _ _ ⟨log, rfl⟩
      exact ⟨hunused.dropped log, hr⟩
    case isFalse hctx =>
      split
      · have hnot : env.first.interrupted = false := by
          simp only [RpcEnv.ctxErr, Bool.or_eq_true, not_or, Bool.not_eq_true] at hctx
          exact hctx.1
        exact ⟨htidy (whole_of_not_interrupted hnot), hr⟩
      case isFalse hconn =>
        have hwhole := hsecond (by simpa using hconn) (by simpa using hctx)
        exact retry_returned hinit hshort hunused hwhole hgrows err

/-- **A call from a tidy world** returns what the signer responded to it, and leaves the world tidy. -/
theorem call_spec (pkg : Package) (hinit : st.Short (initRequest st)) (hshort : st.Short c.request) (h : Tidy st w)
    (hwhole : env.Whole st w c pkg) :
    wp (call st pkg env c) (fun v w' => Tidy st w' ∧ Returned st w w' c.reply c.request (.ok v))
      (fun e w' => Tidy st w' ∧ Returned st w w' c.reply c.request (.error e)) w := by
  have hfirst : Tried st w env → pkg = .nitro → env.first.Whole := by
    rintro htried rfl
    exact hwhole.1 htried
  have hsecond : Retried st w c env → env.second.Whole := by
    cases pkg with
    | nitro => exact hwhole.2
    | confidentialSpace => exact hwhole
  rw [call, doRPC, wp_bind]
  refine wp_mono_exec (ensureConn_spec hinit h env.connect) ?_ fun _ _ _ h' => h'
  rintro _ w₁ hw₁ ⟨hgrows, htidy⟩
  rw [wp_tryCatch]
  refine wp_mono_exec (dispatch_spec hshort htidy env.first) ?_ ?_
  · rintro v w₂ - ⟨htidy₂, hr⟩
    exact ⟨htidy₂, hr.of_grows hgrows⟩
  · rintro err w₂ hw₂ ⟨hgrows₂, hunused, htidy₂, hr⟩
    refine recover_spec pkg hinit hshort (hfirst ⟨w₁, hw₁⟩) (fun hconn hlive w₃ hw₃ => ?_) hunused htidy₂
      (hgrows.trans hgrows₂) (hr.of_grows hgrows)
    exact hsecond ⟨w₁, err, w₂, w₃, hw₁, hw₂, hconn, hlive, hw₃⟩

end doRPC

/-! ## Runs -/

/-- The requests fit into frames, and no call is cancelled where it matters. -/
def Op.Whole (st : Setting C) (pkg : Package) (w : World C) : Op → Prop
  | .rpc c env => st.Short c.request ∧ env.Whole st w c pkg
  | .connect _ | .close => True

theorem Tidy.step {pkg : Package} (hinit : st.Short (initRequest st)) (h : Tidy st w) {op : Op}
    (hop : op.Whole st pkg w) : Tidy st (step st pkg w op).2 := by
  cases op with
  | connect env =>
    refine (wp_state (connectLocked st env) (Tidy st)).1 ?_
    exact wp_mono (connectLocked_spec hinit h.unused env) (fun _ _ h' => h'.2) fun _ _ h' => h'.2
  | close =>
    refine (wp_state dropConn (Tidy st)).1 ?_
    refine wp_mono (dropConn_spec w) ?_ fun _ _ hfalse => hfalse.elim
    rintro _ _ ⟨log, rfl⟩
    exact h.unused.dropped log
  | rpc c env =>
    refine (wp_state (call st pkg env c) (Tidy st)).1 ?_
    exact wp_mono (call_spec pkg hinit hop.1 h hop.2) (fun _ _ h' => h'.1) fun _ _ h' => h'.1

lemma tidy_new : Tidy st {} := ⟨fun _ _ => rfl, fun _ hi => by simp at hi⟩

lemma tidy_final {pkg : Package} (hinit : st.Short (initRequest st)) {ops : List Op}
    (hops : Along (step st pkg) (Op.Whole st pkg) {} ops) : Tidy st (final (step st pkg) {} ops) :=
  inv_events (I := fun _ w => Tidy st w) tidy_new (fun _ _ _ h hop => h.step hinit hop) hops

lemma returned_final {pkg : Package} (hinit : st.Short (initRequest st)) {ops pre post : List Op} {c : Call}
    {env : RpcEnv} (hops : Along (step st pkg) (Op.Whole st pkg) {} ops) (hsplit : ops = pre ++ .rpc c env :: post) :
    Returned st (final (step st pkg) {} pre) (exec (call st pkg env c) (final (step st pkg) {} pre)).2
      c.reply c.request (exec (call st pkg env c) (final (step st pkg) {} pre)).1 := by
  subst hsplit
  obtain ⟨hpre, ⟨hshort, hwhole⟩, -⟩ := along_append.1 hops
  have htidy := tidy_final hinit hpre
  rcases wp_cases (call_spec pkg hinit hshort htidy hwhole) with ⟨v, hv, -, hr⟩ | ⟨e, he, -, hr⟩
  · rw [hv]
    exact hr
  · rw [he]
    exact hr

end Call

/-! ## The two clients -/

section Clients

variable {C : Type}

/-- A signer that puts its signatures on requests by sending them back, and an encoding to go with it. -/
def echoing : Setting Unit where
  codec :=
    { Marshal := fun req => .ok (match req.Sign with
        | some s => 1 :: s.message
        | none => [0])
      Unmarshal := fun r body => match r with
        | .signature => .ok ⟨some { Ed25519 := some body }, none⟩
        | .unit => .ok ⟨some (), none⟩
        | .importResult | .generateResult | .generateAndImportResult | .publicKey => .ok ⟨none, none⟩ }
  creds := ()
  respond := fun _ requests => ⟨(requests.getLastD []).take 64, by
    have := List.length_take_le 64 (requests.getLastD [])
    omega⟩

/-- Nothing goes wrong. -/
def fine : Trip := ⟨none, none, .EOF, false⟩

/-- The connection breaks within the request. -/
def broken : Trip := ⟨some 2, none, .EPIPE, false⟩

/-- The context is cancelled when the request is out and nothing of the answer has arrived. -/
def cancelledWaiting : Trip := ⟨none, some 0, .EOF, true⟩

def connected : Reconnect := ⟨.ok (), fine⟩

/-- An echo that is returned by mistake is the last one on none of the connections. -/
lemma not_returned_echo {w w' : World Unit} {req : Request Unit} {sig : Signature}
    (h : ∀ i, (w'.conns i).sent = [] ∨
      some (((frames (w'.conns i).sent).getLastD []).take 64) ≠ sig.Ed25519) :
    ¬ Returned echoing w w' .signature req (.ok (some sig)) := by
  rintro ⟨res, ⟨i, reqBuf, pre, -, -, hsent, -, hres⟩, -, hok⟩
  rw [← hsent] at hres
  obtain rfl := Except.ok.inj hres
  rcases h i with he | hne
  · have hlen := congrArg List.length (he.symm.trans hsent)
    rw [List.length_append, length_frame] at hlen
    simp at hlen
    omega
  · obtain rfl := Option.some.inj hok
    exact hne rfl

/-- **Responses of the Nitro client are paired**, in every run in which no attempt is cancelled between the first byte
of its request and the last byte of the answer, and no request is too long for its length field. -/
theorem nitro_responses_paired (st : Setting C) (hinit : st.Short (initRequest st)) (ops : List Op)
    (hops : Along (step st .nitro) (Op.Whole st .nitro) {} ops) (pre post : List Op) (c : Call) (env : RpcEnv)
    (hsplit : ops = pre ++ .rpc c env :: post) :
    let w := final (step st .nitro) {} pre
    let out := exec (call st .nitro env c) w
    Returned st w out.2 c.reply c.request out.1 :=
  returned_final hinit hops hsplit

lemma short_echoing_init : echoing.Short (initRequest echoing) := by
  rintro _ ⟨⟩
  decide

lemma short_echoing_sign (message : Bytes) (h : message.length < 100) :
    echoing.Short (Call.request (.Sign 0 message 0)) := by
  rintro _ ⟨⟩
  change message.length + 1 < 2 ^ 32
  omega

/-- A request breaks off with its connection and is repeated on a new one. -/
theorem nitro_responses_paired_retry :
    let env : RpcEnv := ⟨connected, broken, false, connected, fine⟩
    let w := final (step echoing .nitro) {} [.connect connected]
    let out := exec (call echoing .nitro env (.Sign 0 [7] 0)) w
    out.1 = .ok (some { Ed25519 := some [1, 7] }) ∧
      Returned echoing w out.2 .signature (Call.request (.Sign 0 [7] 0)) out.1 :=
  ⟨rfl, nitro_responses_paired echoing short_echoing_init
    [.connect connected, .rpc (.Sign 0 [7] 0) ⟨connected, broken, false, connected, fine⟩]
    ⟨trivial, ⟨short_echoing_sign _ (by decide), fun _ => whole_of_not_interrupted rfl,
      fun _ => whole_of_not_interrupted rfl⟩, trivial⟩
    [.connect connected] [] (.Sign 0 [7] 0) _ rfl⟩

/-- A call is cancelled while it waits for its answer; the next one gets this answer. -/
theorem nitro_stale_response :
    let w := final (step echoing .nitro) {} [.connect connected,
      .rpc (.Sign 0 [7] 0) ⟨connected, cancelledWaiting, false, connected, fine⟩]
    let out := exec (call echoing .nitro ⟨connected, fine, false, connected, fine⟩ (.Sign 0 [8] 0)) w
    out.1 = .ok (some { Ed25519 := some [1, 7] }) ∧
      ¬ Returned echoing w out.2 .signature (Call.request (.Sign 0 [8] 0)) out.1 := by
  refine ⟨rfl, not_returned_echo ?_⟩
  intro i
  match i with
  | 0 => exact Or.inr (by decide)
  | i + 1 => exact Or.inl rfl

/-- **Responses of the Confidential Space client are paired**, in every run in which no second attempt is cancelled
there; a first attempt may be cancelled anywhere. -/
theorem confidentialSpace_responses_paired (st : Setting C) (hinit : st.Short (initRequest st)) (ops : List Op)
    (hops : Along (step st .confidentialSpace) (Op.Whole st .confidentialSpace) {} ops) (pre post : List Op) (c : Call)
    (env : RpcEnv) (hsplit : ops = pre ++ .rpc c env :: post) :
    let w := final (step st .confidentialSpace) {} pre
    let out := exec (call st .confidentialSpace env c) w
    Returned st w out.2 c.reply c.request out.1 :=
  returned_final hinit hops hsplit

/-- After a call that is cancelled while it waits, the next one gets its own answer. -/
theorem confidentialSpace_responses_paired_cancelled :
    let env : RpcEnv := ⟨connected, fine, false, connected, fine⟩
    let w := final (step echoing .confidentialSpace) {} [.connect connected,
      .rpc (.Sign 0 [7] 0) ⟨connected, cancelledWaiting, false, connected, fine⟩]
    let out := exec (call echoing .confidentialSpace env (.Sign 0 [8] 0)) w
    out.1 = .ok (some { Ed25519 := some [1, 8] }) ∧
      Returned echoing w out.2 .signature (Call.request (.Sign 0 [8] 0)) out.1 :=
  ⟨rfl, confidentialSpace_responses_paired echoing short_echoing_init
    [.connect connected, .rpc (.Sign 0 [7] 0) ⟨connected, cancelledWaiting, false, connected, fine⟩,
      .rpc (.Sign 0 [8] 0) ⟨connected, fine, false, connected, fine⟩]
    ⟨trivial, ⟨short_echoing_sign _ (by decide), fun _ => whole_of_not_interrupted rfl⟩,
      ⟨short_echoing_sign _ (by decide), fun _ => whole_of_not_interrupted rfl⟩, trivial⟩
    [.connect connected, .rpc (.Sign 0 [7] 0) ⟨connected, cancelledWaiting, false, connected, fine⟩] []
    (.Sign 0 [8] 0) _ rfl⟩

/-- The connection breaks, and the repeated request is cancelled while it waits for its answer; the next call gets this
answer. -/
theorem confidentialSpace_stale_response :
    let w := final (step echoing .confidentialSpace) {} [.connect connected,
      .rpc (.Sign 0 [7] 0) ⟨connected, broken, false, connected, cancelledWaiting⟩]
    let out := exec (call echoing .confidentialSpace ⟨connected, fine, false, connected, fine⟩ (.Sign 0 [8] 0)) w
    out.1 = .ok (some { Ed25519 := some [1, 7] }) ∧
      ¬ Returned echoing w out.2 .signature (Call.request (.Sign 0 [8] 0)) out.1 := by
  refine ⟨rfl, not_returned_echo ?_⟩
  intro i
  match i with
  | 0 => exact Or.inr (by decide)
  | 1 => exact Or.inr (by decide)
  | i + 2 => exact Or.inl rfl

end Clients

end Signatory.Vault.Rpc

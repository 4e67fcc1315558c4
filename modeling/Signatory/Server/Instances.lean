import Signatory.Server.Requests
import Signatory.Watermark.Linearize

/-!
# Instances that share a watermark backend

Any number of servers run side by side, each with its own configuration, users, key cache and requests; only the
watermark backend is shared.  A server that is started again is one more instance.  A schedule is any order of the steps
of all threads of all instances.

* `signsOnce_dynamoDB_shared` — the instances share a table in DynamoDB, and requests and replies of it may be lost;
* `signsOnce_firestore_shared` — they share documents in Firestore, whose calls are not atomic: their reads and writes
  interleave, are lost or come late.
-/

namespace Signatory.Server

open Hashmap Signer Lib.Threads Lib.Machine
open Middlewares (Users)

variable {PKH PK Key Enc ω Sig κ ι : Type} {g : Gotez PKH PK} [KeyReference Key PK] [DecidableEq Enc]
  [ToComparable PKH Enc] [DecidableEq κ] [DecidableEq ι]

/-! ## The shared state -/

/-- The state of all instances.  An entry of the log carries the instance and the request. -/
structure Instances (g : Gotez PKH PK) (Key Enc ω κ ι : Type) [KeyReference Key PK] [DecidableEq Enc]
    [ToComparable PKH Enc] where
  users : κ → Users
  cache : κ → KeyCache g Key Enc
  watermark : ω
  log : List ((κ × ι) × Event PKH Key)

namespace Instances

/-- The part of the log that belongs to the instance `k`. -/
def logOf (k : κ) (log : List ((κ × ι) × Event PKH Key)) : List (ι × Event PKH Key) :=
  (log.filter (·.1.1 = k)).map fun e => (e.1.2, e.2)

/-- The state as the instance `k` sees it. -/
def view (k : κ) (f : Instances g Key Enc ω κ ι) : Shared g Key Enc ω ι :=
  ⟨f.users k, f.cache k, f.watermark, logOf k f.log⟩

/-- What the instance `k` has changed. -/
def put (k : κ) (s : Shared g Key Enc ω ι) (f : Instances g Key Enc ω κ ι) : Instances g Key Enc ω κ ι where
  users := Function.update f.users k s.users
  cache := Function.update f.cache k s.cache
  watermark := s.watermark
  log := f.log ++ (s.log.drop (logOf k f.log).length).map fun e => ((k, e.1), e.2)

omit [DecidableEq ι] [KeyReference Key PK] in
lemma logOf_append_own (k : κ) (log : List ((κ × ι) × Event PKH Key)) (new : List (ι × Event PKH Key)) :
    logOf k (log ++ new.map fun e => ((k, e.1), e.2)) = logOf k log ++ new := by
  simp [logOf, List.filter_map, Function.comp_def]

omit [KeyReference Key PK] in
lemma callsOf_logOf (k : κ) (i : ι) (log : List ((κ × ι) × Event PKH Key)) :
    callsOf i (logOf k log) = callsOf (k, i) log := by
  have hfilter : (logOf k log).filter (·.1 = i) = (log.filter (·.1 = (k, i))).map fun e => (e.1.2, e.2) := by
    rw [logOf, List.filter_map, List.filter_filter]
    congr 1
    refine List.filter_congr fun e _ => ?_
    simp [Prod.ext_iff, Bool.and_comm]
  rw [callsOf, hfilter, callsOf, List.map_map]
  rfl

variable {f : Instances g Key Enc ω κ ι} {k : κ} {s : Shared g Key Enc ω ι} {new : List (ι × Event PKH Key)}

omit [DecidableEq ι] in
lemma put_log (h : s.log = (f.view k).log ++ new) : (f.put k s).log = f.log ++ new.map fun e => ((k, e.1), e.2) := by
  rw [put, h]
  exact congrArg (f.log ++ List.map _ ·) (List.drop_left' rfl)

omit [DecidableEq ι] in
lemma view_put (h : s.log = (f.view k).log ++ new) : (f.put k s).view k = s := by
  have hlog : logOf k (f.put k s).log = s.log := by
    rw [put_log h, logOf_append_own, h]
    rfl
  rw [view, hlog]
  simp [put]

omit [DecidableEq ι] in
lemma put_view (f : Instances g Key Enc ω κ ι) (k : κ) : f.put k (f.view k) = f := by
  simp [put, view]

end Instances

/-! ## Turns -/

variable (srv : κ → ServerFields PKH PK Enc ω) (libs : κ → Libs PKH PK Sig) (threads : κ × ι → Thread Key Sig)

/-- The turn of a thread is one of its instance. -/
def InstanceTurn (i : κ × ι) (f f' : Instances g Key Enc ω κ ι) : Prop :=
  ∃ s, f' = f.put i.1 s ∧ Turn (srv i.1) i.2 (f.view i.1) s

variable {srv} in
omit [DecidableEq ι] in
/-- What is new in the log belongs to the thread, and is a run of the backend. -/
lemma InstanceTurn.run {i : κ × ι} {f f' : Instances g Key Enc ω κ ι} (h : InstanceTurn srv i f f') :
    ∃ (es : List (Event PKH Key)) (calls : List (Watermark.Call PKH)), f'.log = f.log ++ es.map (i, ·) ∧
      es.filterMap Event.asked = events (srv i.1).signer.watermark f.watermark calls ∧
      f'.watermark = final (srv i.1).signer.watermark f.watermark calls := by
  obtain ⟨s, rfl, hturn⟩ := h
  obtain ⟨es, calls, hlog, hasked, hwatermark⟩ := hturn.run
  refine ⟨es, calls, ?_, hasked, hwatermark⟩
  rw [Instances.put_log hlog, List.map_map]
  rfl

/-- What the threads of all instances agree upon. -/
def sharedAgreement : Agreement (Instances g Key Enc ω κ ι) NoResponse (HttpResponse PKH PK Sig) (κ × ι) where
  R i f f' := callsOf i f'.log = callsOf i f.log
  G i f f' := InstanceTurn srv i f f' ∧ (callsOf i f'.log ≠ callsOf i f.log →
    ∃ c, KeyUse g (srv i.1) (libs i.1) (fun _ => True) c (callsOf i f'.log))
  Q _ _ _ := True
  refl _ _ := rfl
  trans _ {_ _ _} h h' := h'.trans h
  still i f := ⟨⟨f.view i.1, (f.put_view i.1).symm, .silent rfl rfl⟩, fun h => absurd rfl h⟩
  others i j hij f f' h := by
    obtain ⟨es, -, hlog, -⟩ := h.1.run
    rw [hlog, callsOf_append, callsOf_map_of_ne hij, List.append_nil]

/-- The instances with their threads, before they run. -/
def instances (f : Instances g Key Enc ω κ ι) :
    Pool (Instances g Key Enc ω κ ι) NoResponse (HttpResponse PKH PK Sig) (κ × ι) :=
  ⟨fun i => ((threads i).program (srv i.1) (libs i.1) i.2).within (Instances.view i.1) (Instances.put i.1), f⟩

section Runs

variable {srv libs threads} {f : Instances g Key Enc ω κ ι} (hstart : f.log = [])

include hstart

/-- The others are for an instance what other threads of its own are. -/
lemma holds_instances : (sharedAgreement srv libs).Holds (fun _ => True) (instances srv libs threads f) := by
  rintro ⟨k, i⟩
  have hcalls : callsOf i (f.view k).log = [] := by
    rw [Instances.view, hstart]
    rfl
  have hkeeps : ∀ t, threads (k, i) = t → Keeps (srv k) (libs k) (fun _ => True) (fun j => threads (k, j))
      (fun _ => True) i (t.program (srv k) (libs k) i) (f.view k) := by
    intro t ht
    cases t with
    | request c => exact keeps_serve (fun _ _ => trivial) ht hcalls
    | rotation user => exact keeps_rotate hcalls user
  refine Prog.Sat.within (fun _ _ => trivial) ?_ ?_ ?_ (fun _ _ _ => trivial) (hkeeps _ rfl)
  · intro f₁ f₂ hsame
    change callsOf i (Instances.logOf k f₂.log) = callsOf i (Instances.logOf k f₁.log)
    rw [Instances.callsOf_logOf, Instances.callsOf_logOf]
    exact hsame
  · rintro f₁ s ⟨hturn, huse⟩
    refine ⟨⟨s, rfl, hturn⟩, fun hne => ?_⟩
    obtain ⟨es, -, hlog, -⟩ := hturn.run
    have hown : callsOf (k, i) (f₁.put k s).log = callsOf i s.log := by
      rw [← Instances.callsOf_logOf]
      exact congrArg (callsOf i ·.log) (Instances.view_put hlog)
    rw [hown, ← Instances.callsOf_logOf] at hne
    obtain ⟨c, -, huse⟩ := huse hne
    exact ⟨c, hown ▸ huse⟩
  · rintro f₁ s ⟨hturn, -⟩
    obtain ⟨es, -, hlog, -⟩ := hturn.run
    exact Instances.view_put hlog

lemma consistent_instances {backend : ω → Watermark.Call PKH → Except Error Unit × ω}
    (hbackend : ∀ k, (srv k).signer.watermark = backend) (sched : List (κ × ι)) :
    ∃ calls, ((final Pool.step (instances srv libs threads f) sched).state.log.map Prod.snd).filterMap Event.asked =
      events backend f.watermark calls := by
  obtain ⟨calls, hcalls, -⟩ : ∃ calls,
      ((final Pool.step (instances srv libs threads f) sched).state.log.map Prod.snd).filterMap Event.asked =
          events backend f.watermark calls ∧
        (final Pool.step (instances srv libs threads f) sched).state.watermark = final backend f.watermark calls := by
    refine inv_schedule (holds_instances hstart) (fun _ _ => trivial)
      (I := fun f' : Instances g Key Enc ω κ ι => ∃ calls, (f'.log.map Prod.snd).filterMap Event.asked =
        events backend f.watermark calls ∧ f'.watermark = final backend f.watermark calls)
      ⟨[], by simp [instances, hstart], rfl⟩ ?_
    rintro i f₁ f₂ ⟨hturn, -⟩ ⟨calls, hlog, hstate⟩
    obtain ⟨es, new, hnew, hasked, hwatermark⟩ := hturn.run
    rw [hbackend, hstate] at hasked hwatermark
    refine ⟨calls ++ new, ?_, by rw [hwatermark, final_append]⟩
    rw [hnew, List.map_append, map_snd_own, List.filterMap_append, hlog, hasked, events_append]
  exact ⟨calls, hcalls⟩

lemma asked_instances (hmap : Function.Injective (toComparable : PKH → Enc)) (sched : List (κ × ι)) {key : Key}
    {message : Bytes} {opts : SignOptions} {msg : Request.SignRequest}
    (hsign : .sign key message opts ∈ (final Pool.step (instances srv libs threads f) sched).state.log.map Prod.snd)
    (hmsg : Decodes g opts message msg) :
    (⟨g.hash (publicKey key), msg, g.digest message⟩, .ok ()) ∈
      ((final Pool.step (instances srv libs threads f) sched).state.log.map Prod.snd).filterMap Event.asked := by
  obtain ⟨⟨i, e⟩, hmem, rfl⟩ := List.mem_map.1 hsign
  have hnone : callsOf i f.log = [] := by
    rw [hstart]
    rfl
  have hholds : (sharedAgreement srv libs).Holds (fun _ => True) (instances srv libs threads f) :=
    holds_instances hstart
  have huse : callsOf i (final Pool.step (instances srv libs threads f) sched).state.log = [] ∨
      ∃ c, KeyUse g (srv i.1) (libs i.1) (fun _ => True) c _ :=
    calls_scheduled hholds (fun _ _ => trivial) Instances.log
      (C := fun i calls => ∃ c, KeyUse g (srv i.1) (libs i.1) (fun _ => True) c calls) (fun _ _ _ h => h.2)
      (fun _ _ _ h => h) hnone
  rcases huse with hempty | ⟨c, huse⟩
  · rw [← mem_callsOf, hempty] at hmem
    cases hmem
  · have hadmitted := huse.asked hmap (mem_callsOf.2 hmem) hmsg
    exact List.mem_filterMap.2 ⟨_, List.mem_map.2 ⟨_, mem_callsOf.1 hadmitted, rfl⟩, rfl⟩

lemma signsOnce_instances (hmap : Function.Injective (toComparable : PKH → Enc))
    {backend : ω → Watermark.Call PKH → Except Error Unit × ω} (hbackend : ∀ k, (srv k).signer.watermark = backend)
    (hvotes : ∀ calls, Watermark.VotesOnce (· = ·) (events backend f.watermark calls)) (sched : List (κ × ι)) :
    SignsOnce g ((final Pool.step (instances srv libs threads f) sched).state.log.map Prod.snd) := by
  obtain ⟨calls, hcalls⟩ : ∃ calls, ((final Pool.step (instances srv libs threads f) sched).state.log.map
      Prod.snd).filterMap Event.asked = events backend f.watermark calls := consistent_instances hstart hbackend sched
  exact signsOnce_of_asked (fun key message opts msg hsign hmsg => asked_instances hstart hmap sched hsign hmsg)
    (hcalls ▸ hvotes calls)

end Runs

/-! ## A table in DynamoDB -/

/-- **No double signing by instances that share a table.**  Whatever each instance is configured for, whatever requests
they serve, in whatever order all their threads take their steps, and whatever requests and replies of the table are
lost: no key signs two messages with different digests for one chain, kind, level and round, be it for one instance or
for two. -/
theorem signsOnce_dynamoDB_shared (T : Watermark.Texts PKH)
    {srv : κ → ServerFields PKH PK Enc (Watermark.AWS.Table × List Watermark.AWS.Fault)} {libs : κ → Libs PKH PK Sig}
    {threads : κ × ι → Thread Key Sig}
    {f : Instances g Key Enc (Watermark.AWS.Table × List Watermark.AWS.Fault) κ ι}
    (hmap : Function.Injective (toComparable : PKH → Enc)) (hbackend : ∀ k, (srv k).signer.watermark = dynamoDB T)
    (hstart : f.log = []) (sched : List (κ × ι)) :
    SignsOnce g ((final Pool.step (instances srv libs threads f) sched).state.log.map Prod.snd) :=
  signsOnce_instances hstart hmap hbackend (votesOnce_events_dynamoDB T f.watermark) sched

/-- The server for one user with its watermarks in a table. -/
def tableServer : ServerFields EncodedPublicKeyHash EncodedPublicKeyHash EncodedPublicKeyHash
    (Watermark.AWS.Table × List Watermark.AWS.Fault) where
  auth := aliceServer.auth
  midWare := true
  signer := ⟨AList.singleton 0 (some restrictedPolicy), dynamoDB ⟨fun _ => "", fun _ => ""⟩, none⟩

/-- Two instances of the server for one user, with the same requests. -/
def twoInstances {ω : Type} (watermark : ω) :
    Instances sampleGotez SampleKey EncodedPublicKeyHash ω Bool (Fin 3) where
  users _ := aliceStart.users
  cache _ := ⟨none⟩
  watermark := watermark
  log := []

/-- First the one instance and then the other. -/
def twoSchedule : List (Bool × Fin 3) := aliceSchedule.map (false, ·) ++ aliceSchedule.map (true, ·)

/-- The block is signed for the first instance, and the table refuses it to the second. -/
theorem signsOnce_dynamoDB_shared_two :
    let log := (final Pool.step (instances (fun _ : Bool => tableServer) (fun _ => aliceLibs)
      (fun i => aliceThreads i.2) (twoInstances (fun _ => none, []))) twoSchedule).state.log.map Prod.snd
    .sign ⟨0⟩ [17] ⟨2⟩ ∈ log ∧ log.length = 5 ∧ SignsOnce sampleGotez log := by
  refine ⟨?_, rfl, signsOnce_dynamoDB_shared ⟨fun _ => "", fun _ => ""⟩ (fun _ _ h => h) (fun _ => rfl) rfl _⟩
  have hlog : ∃ e e' rest, (final Pool.step (instances (fun _ : Bool => tableServer) (fun _ => aliceLibs)
      (fun i => aliceThreads i.2) (twoInstances (fun _ => none, []))) twoSchedule).state.log.map Prod.snd =
        e :: e' :: .sign ⟨0⟩ [17] ⟨2⟩ :: rest := ⟨_, _, _, rfl⟩
  obtain ⟨e, e', rest, hlog⟩ := hlog
  rw [hlog]
  simp

/-! ## Documents in Firestore -/

/-- Firestore with the calls of all instances.  The calls of `checkAndSet` are numbered as they return; `meanwhile`
tells what happens until the next one returns, to this call and to others. -/
structure Firestore (PKH : Type) where
  state : Watermark.GCP.State ℕ
  next : ℕ
  meanwhile : List (List (Watermark.GCP.Action ℕ PKH))

def casError : Watermark.GCP.CasErr → Error
  | .ErrWatermark => ErrWatermark
  | .firestore _ | .decode => { text := "(GCPWatermark) IsSafeToSign" }
  | .exhausted _ => { text := "(GCPWatermark) IsSafeToSign: conditional write retries exhausted" }

variable (T : Watermark.Texts PKH)

/-- What the call with the number `n` has returned.  A request whose call does not return gets no further; here it gets
an error. -/
def Firestore.returned (s : Watermark.GCP.State ℕ) (n : ℕ) (call : Watermark.Call PKH) : Except Error Unit :=
  match Watermark.GCP.casInput T call with
  | none => .ok ()
  | some (ref, newWm) =>
    match s.calls n with
    | some ⟨ref', newWm', .returned r⟩ =>
      if ref' = ref ∧ newWm' = newWm then r.mapError casError else .error { text := "not returned" }
    | _ => .error { text := "not returned" }

/-- `watermark.GCP` as the backend. -/
def firestore (s : Firestore PKH) (call : Watermark.Call PKH) : Except Error Unit × Firestore PKH :=
  let state := (s.meanwhile.headD []).foldl (Watermark.GCP.step T) s.state
  (Firestore.returned T state s.next call, ⟨state, s.next + 1, s.meanwhile.tail⟩)

/-- Firestore with some documents, before the first call. -/
def Firestore.start (docs : Watermark.GCP.DocRef → Option (Lib.Versioned.Cell Watermark.GCPWatermark))
    (meanwhile : List (List (Watermark.GCP.Action ℕ PKH))) : Firestore PKH :=
  ⟨Watermark.GCP.run T docs ([] : List (Watermark.GCP.Action ℕ PKH)), 0, meanwhile⟩

section Firestore

open Watermark.GCP

variable {T} {docs : DocRef → Option (Lib.Versioned.Cell Watermark.GCPWatermark)}

lemma returned_ok {s : State ℕ} {n : ℕ} {call : Watermark.Call PKH} {ref : DocRef} {newWm : Watermark.GCPWatermark}
    (h : Firestore.returned T s n call = .ok ()) (hcall : casInput T call = some (ref, newWm)) :
    s.calls n = some ⟨ref, newWm, .returned (.ok ())⟩ := by
  simp only [Firestore.returned, hcall] at h
  split at h
  case h_1 ref' newWm' r hcalls =>
    split at h
    case isTrue hsame =>
      obtain ⟨rfl, rfl⟩ := hsame
      cases r with
      | ok _ => exact hcalls
      | error e => cases h
    case isFalse => cases h
  case h_2 => cases h

lemma calls_of_returned {s s' : State ℕ} {a : Action ℕ PKH} (m : Move T s a s') {n : ℕ} {ref : DocRef}
    {newWm : Watermark.GCPWatermark} {r : Except CasErr Unit} (h : s.calls n = some ⟨ref, newWm, .returned r⟩) :
    s'.calls n = s.calls n := by
  have hother : ∀ {i : ℕ} {cs : CallSt}, i ≠ n → Function.update s.calls i (some cs) n = s.calls n :=
    fun hne => Function.update_of_ne (Ne.symm hne) _ _
  cases m with
  | stay => rfl
  | call i c ref' newWm' hi hc => exact hother (by rintro rfl; cases h.symm.trans hi)
  | gotResult i reply ref' newWm' k r' hi hr => exact hother (by rintro rfl; cases h.symm.trans hi)
  | gotGuard i reply ref' newWm' k g' hi hg => exact hother (by rintro rfl; cases h.symm.trans hi)
  | apply m t w hw hg ht => rfl
  | wrote i ref' newWm' k g' e hi he hcaller => exact hother (by rintro rfl; cases h.symm.trans hi)
  | failed i code ref' newWm' k g' hi => exact hother (by rintro rfl; cases h.symm.trans hi)

lemma foldl_returned (acts : List (Action ℕ PKH)) {s : State ℕ} {n : ℕ} {ref : DocRef}
    {newWm : Watermark.GCPWatermark} {r : Except CasErr Unit} (h : s.calls n = some ⟨ref, newWm, .returned r⟩) :
    (acts.foldl (step T) s).calls n = some ⟨ref, newWm, .returned r⟩ := by
  induction acts generalizing s with
  | nil => exact h
  | cons a acts ih => exact ih ((calls_of_returned (move_step s a) h).trans h)

variable (T docs) in
/-- The state is that of a run, and the calls that were admitted have returned nil in it, each under its number. -/
structure Admitted (evs : List (Watermark.Call PKH × Except Error Unit)) (s : Firestore PKH) : Prop where
  next : s.next = evs.length
  run : ∃ acts : List (Action ℕ PKH), s.state = Watermark.GCP.run T docs acts
  returned : ∀ n c ref newWm, evs[n]? = some (c, .ok ()) → casInput T c = some (ref, newWm) →
    s.state.calls n = some ⟨ref, newWm, .returned (.ok ())⟩

lemma Admitted.step {evs : List (Watermark.Call PKH × Except Error Unit)} {s : Firestore PKH}
    (h : Admitted T docs evs s) (call : Watermark.Call PKH) :
    Admitted T docs (evs ++ [(call, (firestore T s call).1)]) (firestore T s call).2 := by
  obtain ⟨acts, hrun⟩ := h.run
  refine ⟨?_, ⟨acts ++ s.meanwhile.headD [], ?_⟩, fun n c ref newWm hn hc => ?_⟩
  · rw [List.length_append, ← h.next]
    rfl
  · rw [Watermark.GCP.run, List.foldl_append, ← Watermark.GCP.run, ← hrun]
    rfl
  · rcases lt_trichotomy n evs.length with hlt | rfl | hgt
    · rw [List.getElem?_append_left hlt] at hn
      exact foldl_returned _ (h.returned n c ref newWm hn hc)
    · rw [List.getElem?_concat_length] at hn
      obtain ⟨rfl, hok⟩ := Prod.mk.inj (Option.some.inj hn)
      rw [← h.next]
      exact returned_ok hok hc
    · rw [List.getElem?_eq_none (by simpa using hgt)] at hn
      cases hn

lemma admitted_run (meanwhile : List (List (Action ℕ PKH))) (calls : List (Watermark.Call PKH)) :
    Admitted T docs (events (firestore T) (.start T docs meanwhile) calls)
      (final (firestore T) (.start T docs meanwhile) calls) := by
  refine inv_events (G := fun _ _ => True) (I := Admitted T docs) ?_ (fun evs s call h _ => h.step call)
    (along_of_forall fun _ _ => trivial)
  exact ⟨rfl, ⟨[], rfl⟩, fun n c ref newWm hn => by cases hn⟩

/-- Firestore admits a position once: of two calls at one position, the write of the second one would have to be carried
out over a document that is not below it. -/
lemma votesOnce_firestore (meanwhile : List (List (Action ℕ PKH))) (calls : List (Watermark.Call PKH)) :
    Watermark.VotesOnce (· = ·) (events (firestore T) (.start T docs meanwhile) calls) := by
  intro c c' m m' hc hc' hm hm' hkind hchain hpkh hlevel hround
  have hadmitted : Admitted T docs _ _ := admitted_run meanwhile calls
  obtain ⟨acts, hrun⟩ := hadmitted.run
  obtain ⟨n, hn⟩ := List.mem_iff_getElem?.1 hc
  obtain ⟨n', hn'⟩ := List.mem_iff_getElem?.1 hc'
  have hinput : ∀ {c : Watermark.Call PKH} {m}, c.req.asWithWatermark = some m → casInput T c =
      some (⟨T.chain m.chainID, m.kind, T.pkh c.pkh⟩, ⟨m.kind, m.level, m.round, some c.digest⟩) := by
    intro c m hm
    simp [casInput, hm, Request.NewWatermark, Request.SignRequest.kind_of_asWithWatermark hm]
  have hreturned := hadmitted.returned n c _ _ hn (hinput hm)
  have hreturned' := hadmitted.returned n' c' _ _ hn' (hinput hm')
  by_cases hnn : n = n'
  · subst hnn
    cases hn.symm.trans hn'
    exact ⟨rfl, rfl⟩
  · have hinv : Inv (final (firestore T) (.start T docs meanwhile) calls).state := hrun ▸ inv_run docs acts
    rw [← hkind, ← hchain, ← hpkh, ← hlevel, ← hround] at hreturned'
    exact (hinv.distinct hnn hreturned hreturned' rfl).elim

end Firestore

/-- **No double signing by instances that share Firestore.**  No key signs two messages with different digests for one
chain, kind, level and round, while the reads and writes of `checkAndSet` of all instances interleave, and any of them
fails, is lost or is carried out late. -/
theorem signsOnce_firestore_shared {srv : κ → ServerFields PKH PK Enc (Firestore PKH)} {libs : κ → Libs PKH PK Sig}
    {threads : κ × ι → Thread Key Sig} {f : Instances g Key Enc (Firestore PKH) κ ι}
    (hmap : Function.Injective (toComparable : PKH → Enc)) (hbackend : ∀ k, (srv k).signer.watermark = firestore T)
    (docs : Watermark.GCP.DocRef → Option (Lib.Versioned.Cell Watermark.GCPWatermark))
    (meanwhile : List (List (Watermark.GCP.Action ℕ PKH))) (hdocs : f.watermark = .start T docs meanwhile)
    (hstart : f.log = []) (sched : List (κ × ι)) :
    SignsOnce g ((final Pool.step (instances srv libs threads f) sched).state.log.map Prod.snd) := by
  refine signsOnce_instances hstart hmap hbackend (fun calls => ?_) sched
  rw [hdocs]
  exact votesOnce_firestore meanwhile calls

def documentServer : ServerFields EncodedPublicKeyHash EncodedPublicKeyHash EncodedPublicKeyHash
    (Firestore EncodedPublicKeyHash) where
  auth := aliceServer.auth
  midWare := true
  signer := ⟨AList.singleton 0 (some restrictedPolicy), firestore ⟨fun _ => "", fun _ => ""⟩, none⟩

/-- Both instances read that there is no document, the first one creates it, and the second one has lost the race. -/
def lostRaces : List (List (Watermark.GCP.Action ℕ EncodedPublicKeyHash)) :=
  let block : Watermark.Call EncodedPublicKeyHash := ⟨0, .latest (.withWatermark ⟨"block", 0, 1, 0⟩), 1⟩
  [[.call 0 block, .call 1 block, .get 0 (.snapshot true), .get 1 (.snapshot true), .apply 1 1, .writeOk 0],
    [.writeErr 1 .AlreadyExists, .get 1 (.snapshot true)]]

/-- The requests of the two instances take turns. -/
def turnsSchedule : List (Bool × Fin 3) := aliceSchedule.flatMap fun i => [(false, i), (true, i)]

/-- The block is signed for the instance that has won. -/
theorem signsOnce_firestore_shared_race :
    let log := (final Pool.step (instances (fun _ : Bool => documentServer) (fun _ => aliceLibs)
      (fun i => aliceThreads i.2) (twoInstances (.start ⟨fun _ => "", fun _ => ""⟩ (fun _ => none) lostRaces)))
      turnsSchedule).state.log
    ((false, 0), .sign ⟨0⟩ [17] ⟨2⟩) ∈ log ∧ log.length = 5 ∧ SignsOnce sampleGotez (log.map Prod.snd) := by
  refine ⟨?_, rfl, signsOnce_firestore_shared ⟨fun _ => "", fun _ => ""⟩ (fun _ _ h => h) (fun _ => rfl) (fun _ => none)
    lostRaces rfl rfl _⟩
  have hlog : ∃ front, (final Pool.step (instances (fun _ : Bool => documentServer) (fun _ => aliceLibs)
      (fun i => aliceThreads i.2) (twoInstances (.start ⟨fun _ => "", fun _ => ""⟩ (fun _ => none) lostRaces)))
      turnsSchedule).state.log = front ++ [((false, 0), .sign ⟨0⟩ [17] ⟨2⟩)] := ⟨[_, _, _, _], rfl⟩
  obtain ⟨front, hlog⟩ := hlog
  rw [hlog]
  simp

end Signatory.Server

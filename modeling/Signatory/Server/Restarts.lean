import Signatory.Server.Requests
import Signatory.Watermark.Durable

/-!
# Servers, one after the other

A server with its watermarks in files is started, handles requests side by side, and is killed at any moment; then
another one is started on the disk that it leaves behind, perhaps with another configuration.  What the keys have signed
in all these lives together, they have signed once (`signsOnce_restarts`).
-/

namespace Signatory.Server

open Hashmap Signer Lib.Threads Lib.Machine
open Middlewares (Users)
open Watermark (Sys Outcome Disk StartEnv Input answers)

variable {PKH PK Key Enc C Sig ι : Type} [DecidableEq Enc] [ToComparable PKH Enc]

/-! ## The files as a backend -/

/-- The error of the store; the text of a failed read or write is not modelled. -/
def fileError : Watermark.Err → Error
  | .ErrWatermark => ErrWatermark
  | .storage => { text := "storage" }

/-- `watermark.File` as the backend, over the system and how the writes to come end.  The error after a kill is seen by
nobody. -/
def file (cx : Watermark.Codec Enc C) (s : Sys Enc C × List (Outcome C)) (call : Watermark.Call PKH) :
    Except Error Unit × (Sys Enc C × List (Outcome C)) :=
  let r := s.1.step cx (.call call (s.2.headD .ok))
  (r.1.elim (.error { text := "killed" }) (·.mapError fileError), (r.2, s.2.tail))

/-- The calls with the ends of their writes. -/
def inputsOf : List (Outcome C) → List (Watermark.Call PKH) → List (Input PKH C)
  | _, [] => []
  | outcomes, call :: calls => .call call (outcomes.headD .ok) :: inputsOf outcomes.tail calls

variable {cx : Watermark.Codec Enc C}

omit [DecidableEq Enc] [ToComparable PKH Enc] in
lemma call?_inputsOf (outcomes : List (Outcome C)) (calls : List (Watermark.Call PKH)) :
    (inputsOf outcomes calls).filterMap Input.call? = calls := by
  induction calls generalizing outcomes with
  | nil => rfl
  | cons call calls ih => simp [inputsOf, Input.call?, ih]

lemma final_file (s : Sys Enc C × List (Outcome C)) (calls : List (Watermark.Call PKH)) :
    (final (file cx) s calls).1 = final (Sys.step cx) s.1 (inputsOf s.2 calls) := by
  induction calls generalizing s with
  | nil => rfl
  | cons call calls ih => exact ih (file cx s call).2

lemma answers_file {s : Sys Enc C × List (Outcome C)} {calls : List (Watermark.Call PKH)} {c : Watermark.Call PKH}
    (h : (c, .ok ()) ∈ events (file cx) s calls) :
    (c, .ok ()) ∈ answers (events (Sys.step cx) s.1 (inputsOf s.2 calls)) := by
  induction calls generalizing s with
  | nil => cases h
  | cons call calls ih =>
    rw [inputsOf, events_cons, Watermark.answers]
    rcases List.mem_cons.1 h with h | h
    · obtain ⟨rfl, hok⟩ := Prod.mk.inj h
      refine List.mem_filterMap.2 ⟨_, List.mem_cons_self, ?_⟩
      have hanswer : (s.1.step cx (.call c (s.2.headD .ok))).1 = some (.ok ()) := by
        simp only [file] at hok
        cases hr : (s.1.step cx (.call c (s.2.headD .ok))).1 with
        | none => rw [hr] at hok; cases hok
        | some r =>
          rw [hr] at hok
          cases r with
          | error e => cases hok
          | ok _ => rfl
      rw [hanswer]
      rfl
    · obtain ⟨e, he, hanswer⟩ := List.mem_filterMap.1 (ih h)
      exact List.mem_filterMap.2 ⟨e, List.mem_cons_of_mem _ he, hanswer⟩

/-! ## A life -/

variable (g : Gotez PKH PK) [KeyReference Key PK] [DecidableEq ι]

/-- What a server meets from its start to its end: its configuration, the requests and rotations, the faults of its
start, how its writes end, and the turns of its threads.  The schedule may end at any point. -/
structure Life (cx : Watermark.Codec Enc C) (PKH PK Key Sig ι : Type) [ToComparable PKH Enc] where
  srv : ServerFields PKH PK Enc (Sys Enc C × List (Outcome C))
  backend : srv.signer.watermark = file cx
  libs : Libs PKH PK Sig
  threads : ι → Thread Key Sig
  users : Users
  env : StartEnv C
  outcomes : List (Outcome C)
  sched : List ι

namespace Life

variable (l : Life cx PKH PK Key Sig ι) (disk : Disk C)

/-- The process and the disk after `NewFileWatermark`. -/
def started : Sys Enc C := ((⟨disk, none⟩ : Sys Enc C).step cx (.start l.env : Input PKH C)).2

/-- The server at the beginning: the cache is empty, and nothing was called. -/
def shared : Shared g Key Enc (Sys Enc C × List (Outcome C)) ι := ⟨l.users, ⟨none⟩, (l.started disk, l.outcomes), []⟩

/-- The state at the end. -/
def ended : Shared g Key Enc (Sys Enc C × List (Outcome C)) ι :=
  (final Pool.step (pool l.srv l.libs l.threads (l.shared g disk)) l.sched).state

/-- **A life**: the calls, and the disk that is left behind.  There is no server if the watermarks cannot be loaded. -/
def step : List (Event PKH Key) × Disk C :=
  match (l.started disk).proc with
  | none => ([], (l.started disk).disk)
  | some _ => ((l.ended g disk).log.map Prod.snd, (l.ended g disk).watermark.1.disk)

end Life

/-- The calls in all lives. -/
def served (disk : Disk C) (lives : List (Life cx PKH PK Key Sig ι)) : List (Event PKH Key) :=
  (events (fun disk l => l.step g disk) disk lives).flatMap Prod.snd

/-! ## What the keys have signed -/

variable {g}

namespace Life

variable (l : Life cx PKH PK Key Sig ι) (disk : Disk C)

lemma answers_subset {pre mid post : List (Input PKH C × Option (Except Watermark.Err Unit))} :
    answers mid ⊆ answers (pre ++ mid ++ post) := by
  intro e he
  obtain ⟨e', hmem, hanswer⟩ := List.mem_filterMap.1 he
  exact List.mem_filterMap.2 ⟨e', by simp [hmem], hanswer⟩

/-- **A life is a run of the system**: a start, the calls of the backend in their order, and the end. -/
lemma run_inputs : ∃ is : List (Input PKH C),
    final (Sys.step cx) ⟨disk, none⟩ is = ⟨(l.step g disk).2, none⟩ ∧
      is.filterMap Input.call? = ((l.step g disk).1.filterMap Event.asked).map Prod.fst ∧
      ∀ c, (c, .ok ()) ∈ (l.step g disk).1.filterMap Event.asked →
        (c, .ok ()) ∈ answers (events (Sys.step cx) ⟨disk, none⟩ is) := by
  cases hproc : (l.started disk).proc with
  | none =>
    have hstep : l.step g disk = ([], (l.started disk).disk) := by rw [step, hproc]
    rw [hstep]
    refine ⟨[.start l.env], ?_, rfl, fun c hc => by cases hc⟩
    change l.started disk = _
    rw [← hproc]
  | some mem =>
    have hstep : l.step g disk = ((l.ended g disk).log.map Prod.snd, (l.ended g disk).watermark.1.disk) := by
      rw [step, hproc]
    obtain ⟨calls, hcalls, hfinal⟩ : ∃ calls, ((l.ended g disk).log.map Prod.snd).filterMap Event.asked =
        events l.srv.signer.watermark (l.shared g disk).watermark calls ∧
          (l.ended g disk).watermark = final l.srv.signer.watermark (l.shared g disk).watermark calls :=
      consistent_scheduled rfl l.sched
    rw [l.backend] at hcalls hfinal
    have hdisk : final (Sys.step cx) (l.started disk) (inputsOf l.outcomes calls) = (l.ended g disk).watermark.1 := by
      rw [hfinal, final_file]
      rfl
    rw [hstep]
    refine ⟨[.start l.env] ++ inputsOf l.outcomes calls ++ [.kill], ?_, ?_, fun c hc => ?_⟩
    · rw [final_snoc, final_append]
      change (⟨(final (Sys.step cx) (l.started disk) (inputsOf l.outcomes calls)).disk, none⟩ : Sys Enc C) = _
      rw [hdisk]
    · rw [hcalls, map_fst_events, List.filterMap_append, List.filterMap_append, call?_inputsOf]
      exact List.append_nil calls
    · rw [hcalls] at hc
      rw [events_append, events_append]
      exact answers_subset (answers_file hc)

lemma asked_of_signed (hmap : Function.Injective (toComparable : PKH → Enc)) {key : Key} {message : Bytes}
    {opts : SignOptions} {msg : Request.SignRequest} (hsign : .sign key message opts ∈ (l.step g disk).1)
    (hmsg : Decodes g opts message msg) :
    (⟨g.hash (publicKey key), msg, g.digest message⟩, .ok ()) ∈ (l.step g disk).1.filterMap Event.asked := by
  rw [step] at hsign ⊢
  cases hproc : (l.started disk).proc with
  | none =>
    rw [hproc] at hsign
    cases hsign
  | some mem =>
    rw [hproc] at hsign
    exact asked_scheduled hmap rfl l.sched hsign hmsg

end Life

lemma served_cons (disk : Disk C) (l : Life cx PKH PK Key Sig ι) (lives : List (Life cx PKH PK Key Sig ι)) :
    served g disk (l :: lives) = (l.step g disk).1 ++ served g (l.step g disk).2 lives := rfl

/-- The lives together are a run of the system. -/
lemma served_inputs (disk : Disk C) (lives : List (Life cx PKH PK Key Sig ι)) : ∃ is : List (Input PKH C),
    is.filterMap Input.call? = ((served g disk lives).filterMap Event.asked).map Prod.fst ∧
      ∀ c, (c, .ok ()) ∈ (served g disk lives).filterMap Event.asked →
        (c, .ok ()) ∈ answers (events (Sys.step cx) ⟨disk, none⟩ is) := by
  induction lives generalizing disk with
  | nil => exact ⟨[], rfl, fun c hc => by cases hc⟩
  | cons l lives ih =>
    obtain ⟨is, hfinal, hcalls, hanswers⟩ := l.run_inputs (g := g) disk
    obtain ⟨js, hcalls', hanswers'⟩ := ih (l.step g disk).2
    refine ⟨is ++ js, ?_, fun c hc => ?_⟩
    · rw [served_cons, List.filterMap_append, List.filterMap_append, List.map_append, hcalls, hcalls']
    · rw [served_cons, List.filterMap_append, List.mem_append] at hc
      rw [events_append, hfinal, Watermark.answers, List.filterMap_append, List.mem_append]
      exact hc.imp (hanswers c) (hanswers' c)

lemma asked_of_served (hmap : Function.Injective (toComparable : PKH → Enc)) (disk : Disk C)
    (lives : List (Life cx PKH PK Key Sig ι)) {key : Key} {message : Bytes} {opts : SignOptions}
    {msg : Request.SignRequest} (hsign : .sign key message opts ∈ served g disk lives)
    (hmsg : Decodes g opts message msg) :
    (⟨g.hash (publicKey key), msg, g.digest message⟩, .ok ()) ∈ (served g disk lives).filterMap Event.asked := by
  induction lives generalizing disk with
  | nil => cases hsign
  | cons l lives ih =>
    rw [served_cons, List.mem_append] at hsign
    rw [served_cons, List.filterMap_append, List.mem_append]
    exact hsign.imp (l.asked_of_signed disk hmap · hmsg) (ih _)

/-- **No double signing across restarts.**  Servers run one after the other on one directory of watermarks; each may be
killed at any moment, also in the middle of a write, and be started again with another configuration.  Whatever requests
they serve side by side, a key does not sign two messages with different digests for one chain, kind, level and
round. -/
theorem signsOnce_restarts (hcx : cx.Lawful) (hmap : Function.Injective (toComparable : PKH → Enc)) (disk : Disk C)
    (lives : List (Life cx PKH PK Key Sig ι))
    (hnonneg : ∀ call answer, .isSafeToSign call answer ∈ served g disk lives → call.Nonneg)
    (hdigest : Watermark.DigestDetermines (((served g disk lives).filterMap Event.asked).map Prod.fst)) :
    SignsOnce g (served g disk lives) := by
  obtain ⟨is, hcalls, hanswers⟩ := served_inputs (g := g) disk lives
  have hnn : ∀ c ∈ is.filterMap Input.call?, c.Nonneg := by
    rw [hcalls]
    intro c hc
    obtain ⟨⟨c', answer⟩, hasked, rfl⟩ := List.mem_map.1 hc
    exact hnonneg c' answer (mem_log_of_asked hasked)
  have hvotes := Watermark.votesOnce_file hcx disk is hnn (hcalls ▸ hdigest)
  refine signsOnce_of_asked (fun key message opts msg hsign hmsg => asked_of_served hmap disk lives hsign hmsg) ?_
  intro c c' m m' hc hc'
  exact hvotes c c' m m' (hanswers c hc) (hanswers c' hc')

/-- A life of the server for one user, with its watermarks in files. -/
def aliceLife (sched : List (Fin 3)) :
    Life (Watermark.Codec.unary EncodedPublicKeyHash) EncodedPublicKeyHash EncodedPublicKeyHash SampleKey Unit (Fin 3)
    where
  srv := ⟨aliceServer.auth, true, ⟨AList.singleton 0 (some restrictedPolicy), file _, none⟩⟩
  backend := rfl
  libs := aliceLibs
  threads := aliceThreads
  users := aliceStart.users
  env := Watermark.smoothStart
  outcomes := []
  sched := sched

/-- The server is killed when the watermark of the block is written, and the block is signed by the next one. -/
def aliceLives := [aliceLife (aliceSchedule.take 8), aliceLife aliceSchedule]

lemma aliceLives_served : served sampleGotez ⟨none, none, none⟩ aliceLives =
    [.isSafeToSign ⟨0, .latest (.withWatermark ⟨"block", 0, 1, 0⟩), 1⟩ (.ok ()),
      .isSafeToSign ⟨0, .latest (.withWatermark ⟨"block", 0, 1, 0⟩), 1⟩ (.ok ()),
      .isSafeToSign ⟨0, .latest (.withWatermark ⟨"block", 0, 1, 0⟩), 1⟩ (.ok ()),
      .sign ⟨0⟩ [17] ⟨2⟩, .sign ⟨0⟩ [17] ⟨2⟩] := rfl

theorem signsOnce_restarts_alice :
    .sign ⟨0⟩ [17] ⟨2⟩ ∈ served sampleGotez ⟨none, none, none⟩ aliceLives ∧
      SignsOnce sampleGotez (served sampleGotez ⟨none, none, none⟩ aliceLives) := by
  refine ⟨by rw [aliceLives_served]; simp, signsOnce_restarts (Watermark.Codec.unary_lawful _) (fun _ _ h => h)
    ⟨none, none, none⟩ aliceLives ?_ ?_⟩
  · intro call answer hmem m hm
    rw [aliceLives_served] at hmem
    obtain ⟨rfl, -⟩ : call = ⟨0, .latest (.withWatermark ⟨"block", 0, 1, 0⟩), 1⟩ ∧ answer = .ok () := by
      simpa using hmem
    cases hm
    decide
  · rw [aliceLives_served]
    unfold Watermark.DigestDetermines
    decide

end Signatory.Server

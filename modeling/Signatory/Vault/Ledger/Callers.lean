import Signatory.Vault.Ledger.Safety

/-!
# `pkg/vault/ledger`: the callers of the worker

`ledgerKey.Sign` and `getPublicKey` make two channels with room for one value each, send a request to the worker through
a channel with room for ten, and wait until one of their channels has a value or the context ends.  The send is not part
of the `select`, so a caller that finds no room cannot be cancelled.

A caller stands for one call.  The two channels of a call are one `inbox` here; that a send to it never has to wait is
part of what is proved (`calls_paired`).
-/

namespace Signatory.Vault.Ledger

open Lib.Command Lib.Machine
open Signer (Bytes Error)

/-- `getKeyReq` and `signReq`, without their channels. -/
inductive Request (KeyID : Type) where
  | getKey (key : KeyID)
  | sign (key : KeyID) (data : Bytes)

/-- What scanner and device answer during a turn. -/
structure DeviceAnswers (Dev PK Sig : Type) where
  opened : Bool → Except Error Dev
  pub : Except Error PK
  sig : Bool → Except Error Sig

/-- How far a call has come; at its end it has a value from its channels, or the error of its context. -/
inductive Phase (KeyID PK Sig : Type) where
  | absent
  | sending
  | waiting
  | returned (r : Reply KeyID PK Sig)
  | cancelled

/-- A turn of the worker for a request. -/
structure Turn (Dev KeyID PK Sig ι : Type) where
  caller : ι
  answers : DeviceAnswers Dev PK Sig
  events : List (Event Dev KeyID PK Sig)

/-- The worker, its callers and the channels between them, with the requests sent and the turns taken so far. -/
structure Calls (Dev KeyID PK Sig ι : Type) where
  worker : Worker Dev KeyID PK Sig := {}
  queue : List ι := []
  inbox : ι → List (Reply KeyID PK Sig) := fun _ => []
  phase : ι → Phase KeyID PK Sig := fun _ => .absent
  sent : List ι := []
  served : List (Turn Dev KeyID PK Sig ι) := []

inductive Action (Dev PK Sig ι : Type) where
  | start (i : ι)
  | send (i : ι)
  | receive (i : ι)
  | cancel (i : ι)
  | work (a : DeviceAnswers Dev PK Sig)
  | fire
  | tick (closed : Except Error Unit)

section

variable {Dev KeyID PK Sig ι : Type}

def Event.reply? : Event Dev KeyID PK Sig → Option (Reply KeyID PK Sig)
  | .reply r => some r
  | _ => none

/-- The values sent to the channels of a request. -/
def replies (es : List (Event Dev KeyID PK Sig)) : List (Reply KeyID PK Sig) := es.filterMap Event.reply?

/-- The turn of the worker for a request. -/
def Request.input (a : DeviceAnswers Dev PK Sig) : Request KeyID → Input Dev KeyID PK Sig
  | .getKey key => .getKey key (a.opened false) a.pub
  | .sign key data => .sign key data a.opened a.sig

/-- The capacity of the channel `req`. -/
def capacity : ℕ := 10

variable [DecidableEq ι] (request : ι → Request KeyID)

/-- One step of a caller or of the worker, with what the worker does in it. -/
def Calls.step (s : Calls Dev KeyID PK Sig ι) :
    Action Dev PK Sig ι → List (Event Dev KeyID PK Sig) × Calls Dev KeyID PK Sig ι
  | .start i =>
    match s.phase i with
    | .absent => ([], { s with phase := Function.update s.phase i .sending })
    | _ => ([], s)
  | .send i =>
    match s.phase i with
    | .sending =>
      if s.queue.length < capacity then
        ([], { s with
          queue := s.queue ++ [i]
          phase := Function.update s.phase i .waiting
          sent := s.sent ++ [i] })
      else ([], s)
    | _ => ([], s)
  | .receive i =>
    match s.phase i, s.inbox i with
    | .waiting, r :: rest => ([], { s with
        inbox := Function.update s.inbox i rest
        phase := Function.update s.phase i (.returned r) })
    | _, _ => ([], s)
  | .cancel i =>
    match s.phase i with
    | .waiting => ([], { s with phase := Function.update s.phase i .cancelled })
    | _ => ([], s)
  | .work a =>
    match s.worker.halted, s.queue with
    | none, i :: queue =>
      let (es, worker) := Ledger.step s.worker ((request i).input a)
      (es, { s with
        worker := worker
        queue := queue
        inbox := Function.update s.inbox i (s.inbox i ++ replies es)
        served := s.served ++ [⟨i, a, es⟩] })
    | _, _ => ([], s)
  | .fire =>
    let (es, worker) := Ledger.step s.worker .fire
    (es, { s with worker := worker })
  | .tick closed =>
    let (es, worker) := Ledger.step s.worker (.tick closed)
    (es, { s with worker := worker })

end

/-! ## What a turn replies -/

section Turn

variable {Dev KeyID PK Sig : Type}

/-- **The reply to a request**: the value that the device returned for this key and these data, or the error of an
attempt. -/
def OwnReply (a : DeviceAnswers Dev PK Sig) (es : List (Event Dev KeyID PK Sig)) (r : Reply KeyID PK Sig) :
    Request KeyID → Prop
  | .getKey key => (∃ pub d, r = .res ⟨key, pub⟩ ∧ .getPublicKey (some d) key ∈ es ∧ a.pub = .ok pub) ∨
      ∃ e, r = .err e ∧ (a.opened false = .error e ∨ a.pub = .error e)
  | .sign key data => (∃ retry sig d, r = .sig sig ∧ .sign (some d) key data ∈ es ∧ a.sig retry = .ok sig) ∨
      ∃ retry e, r = .err e ∧ (a.opened retry = .error e ∨ a.sig retry = .error e)

/-- What was added to the log, and what was replied in it. -/
def Adds (w w' : Worker Dev KeyID PK Sig) (P : List (Event Dev KeyID PK Sig) → Prop) : Prop :=
  w'.halted = w.halted ∧ ∃ es, w'.log = w.log ++ es ∧ P es

/-- Nothing was replied. -/
abbrev Quiet (w w' : Worker Dev KeyID PK Sig) : Prop := Adds w w' fun es => replies es = []

/-- The request has one reply, and it is its own. -/
abbrev Replied (a : DeviceAnswers Dev PK Sig) (req : Request KeyID) (w w' : Worker Dev KeyID PK Sig) : Prop :=
  Adds w w' fun es => ∃ r, replies es = [r] ∧ OwnReply a es r req

lemma replies_append {es new : List (Event Dev KeyID PK Sig)} {rs : List (Reply KeyID PK Sig)} (hes : replies es = [])
    (hnew : replies new = rs) : replies (es ++ new) = rs := by
  unfold replies at hes hnew ⊢
  rw [List.filterMap_append, hes, hnew, List.nil_append]

lemma Adds.logged {w w₁ : Worker Dev KeyID PK Sig} {P R : List (Event Dev KeyID PK Sig) → Prop}
    {new : List (Event Dev KeyID PK Sig)} (h : Adds w w₁ P) (hnew : ∀ es, P es → R (es ++ new)) :
    Adds w (w₁.logged new) R := by
  obtain ⟨hhalted, es, hlog, hes⟩ := h
  exact ⟨hhalted, es ++ new, by rw [Worker.logged, hlog, List.append_assoc], hnew es hes⟩

lemma Adds.trans {w w₁ w₂ : Worker Dev KeyID PK Sig} {P R S : List (Event Dev KeyID PK Sig) → Prop} (h : Adds w w₁ P)
    (h' : Adds w₁ w₂ R) (hPR : ∀ es es', P es → R es' → S (es ++ es')) : Adds w w₂ S := by
  obtain ⟨hhalted, es, hlog, hes⟩ := h
  obtain ⟨hhalted', es', hlog', hes'⟩ := h'
  exact ⟨hhalted'.trans hhalted, es ++ es', by rw [hlog', hlog, List.append_assoc], hPR es es' hes hes'⟩

lemma OpensDev.quiet {w : Worker Dev KeyID PK Sig} {retry : Bool} {answer : Except Error Dev}
    {out : Except Halt (Option Error) × Worker Dev KeyID PK Sig} (h : OpensDev w retry answer out) :
    Quiet w out.2 ∧ ∀ e, out.1 = .ok (some e) → answer = .error e := by
  have hclosing : replies (closing w.dev : List (Event Dev KeyID PK Sig)) = [] := by
    cases w.dev <;> rfl
  cases h with
  | held d _ hd => exact ⟨⟨rfl, [], by simp, rfl⟩, by rintro e ⟨⟩⟩
  | failed _ e _ =>
    refine ⟨⟨rfl, _, rfl, ?_⟩, ?_⟩
    · exact replies_append hclosing rfl
    · rintro _ ⟨⟩
      rfl
  | fresh _ d _ _ =>
    refine ⟨⟨rfl, _, rfl, ?_⟩, by rintro e ⟨⟩⟩
    exact replies_append hclosing rfl
  | wedged _ d t _ _ _ =>
    refine ⟨⟨rfl, _, rfl, ?_⟩, by rintro e ⟨⟩⟩
    exact replies_append hclosing rfl

lemma wp_getKeyReq (w : Worker Dev KeyID PK Sig) (a : DeviceAnswers Dev PK Sig) (key : KeyID) :
    wp (getKeyReq key (a.opened false) a.pub) (fun _ => Replied a (.getKey key) w) (fun _ => Quiet w) w := by
  unfold getKeyReq
  rw [wp_bind]
  have h := openDev_cases w false (a.opened false)
  refine wp_of_exec _ (fun r w₁ hr => ?_) fun e w₁ he => ?_
  · rw [hr] at h
    obtain ⟨hquiet, herror⟩ := h.quiet
    cases r with
    | some e =>
      refine (wp_emit _).2 (hquiet.logged fun es hes => ⟨.err e, ?_, Or.inr ⟨e, rfl, Or.inl (herror e rfl)⟩⟩)
      exact replies_append hes rfl
    | none =>
      obtain ⟨d, hd⟩ := h.dev_of_ok
      simp only [wp_bind, wp_invoke hd]
      cases hpub : a.pub with
      | error e =>
        rw [wp_emit, logged_logged]
        refine hquiet.logged fun es hes => ⟨.err e, ?_, Or.inr ⟨e, rfl, Or.inr hpub⟩⟩
        exact replies_append hes rfl
      | ok pub =>
        rw [wp_emit, logged_logged]
        refine hquiet.logged fun es hes => ⟨.res ⟨key, pub⟩, ?_, Or.inl ⟨pub, d, rfl, ?_, hpub⟩⟩
        · exact replies_append hes rfl
        · simp
  · rw [he] at h
    exact h.quiet.1

lemma wp_signAttempt (w : Worker Dev KeyID PK Sig) (a : DeviceAnswers Dev PK Sig) (key : KeyID) (data : Bytes)
    (retry : Bool) (again : Cmd (Worker Dev KeyID PK Sig) Halt Unit)
    (hagain : retry = false → ∀ w₁, Quiet w w₁ →
      wp again (fun _ => Replied a (.sign key data) w) (fun _ => Quiet w) w₁) :
    wp (signAttempt key data retry (a.opened retry) (a.sig retry) again)
      (fun _ => Replied a (.sign key data) w) (fun _ => Quiet w) w := by
  unfold signAttempt
  rw [wp_bind]
  have h := openDev_cases w retry (a.opened retry)
  refine wp_of_exec _ (fun r w₁ hr => ?_) fun e w₁ he => ?_
  · rw [hr] at h
    obtain ⟨hquiet, herror⟩ := h.quiet
    cases r with
    | some e =>
      refine (wp_emit _).2 (hquiet.logged fun es hes => ⟨.err e, ?_, Or.inr ⟨retry, e, rfl, Or.inl (herror e rfl)⟩⟩)
      exact replies_append hes rfl
    | none =>
      obtain ⟨d, hd⟩ := h.dev_of_ok
      simp only [wp_bind, wp_invoke hd]
      cases hsig : a.sig retry with
      | error e =>
        cases retry with
        | true =>
          refine (wp_emit _).2 ?_
          rw [logged_logged]
          refine hquiet.logged fun es hes => ⟨.err e, ?_, Or.inr ⟨true, e, rfl, Or.inr hsig⟩⟩
          exact replies_append hes rfl
        | false =>
          refine hagain rfl _ (hquiet.logged fun es hes => ?_)
          exact replies_append hes rfl
      | ok sig =>
        rw [wp_emit, logged_logged]
        refine hquiet.logged fun es hes => ⟨.sig sig, ?_, Or.inl ⟨retry, sig, d, rfl, ?_, hsig⟩⟩
        · exact replies_append hes rfl
        · simp
  · rw [he] at h
    exact h.quiet.1

lemma OwnReply.append {a : DeviceAnswers Dev PK Sig} {es es' : List (Event Dev KeyID PK Sig)} {r : Reply KeyID PK Sig}
    {req : Request KeyID} (h : OwnReply a es' r req) : OwnReply a (es ++ es') r req := by
  cases req with
  | getKey key =>
    refine h.imp_left ?_
    rintro ⟨pub, d, hr, hmem, hpub⟩
    exact ⟨pub, d, hr, List.mem_append_right _ hmem, hpub⟩
  | sign key data =>
    refine h.imp_left ?_
    rintro ⟨retry, sig, d, hr, hmem, hsig⟩
    exact ⟨retry, sig, d, hr, List.mem_append_right _ hmem, hsig⟩

lemma wp_turn (w : Worker Dev KeyID PK Sig) (a : DeviceAnswers Dev PK Sig) (req : Request KeyID) :
    wp (turn w (req.input a)) (fun _ => Replied a req w) (fun _ => Quiet w) w := by
  cases req with
  | getKey key => exact wp_getKeyReq w a key
  | sign key data =>
    refine wp_signAttempt w a key data false _ fun _ w₁ hquiet => ?_
    refine wp_mono (wp_signAttempt w₁ a key data true (pure ()) fun h => by cases h) (fun _ w₂ hreplied => ?_)
      fun _ w₂ hquiet' => hquiet.trans hquiet' fun _ _ hes hes' => replies_append hes hes'
    refine hquiet.trans hreplied fun es es' hes hes' => ?_
    obtain ⟨r, hr, hown⟩ := hes'
    exact ⟨r, replies_append hes hr, hown.append⟩

/-- **The replies of a turn**: one reply, to the request, or none if the worker is gone after the turn. -/
lemma step_replies {w : Worker Dev KeyID PK Sig} (hw : w.halted = none) (a : DeviceAnswers Dev PK Sig)
    (req : Request KeyID) :
    ((step w (req.input a)).2.halted = none ∧
        ∃ r, replies (step w (req.input a)).1 = [r] ∧ OwnReply a (step w (req.input a)).1 r req) ∨
      ((step w (req.input a)).2.halted ≠ none ∧ replies (step w (req.input a)).1 = []) := by
  rcases wp_cases (wp_turn w a req) with ⟨_, hok, hhalted, es, hlog, r, hr⟩ | ⟨e, herr, hhalted, es, hlog, hr⟩
  · rw [step_events hw _ es hlog, step_live hw]
    refine Or.inl ⟨?_, r, hr⟩
    rw [← Prod.eta (exec (turn w (req.input a)) w), hok]
    exact hhalted.trans hw
  · rw [step_events hw _ es hlog, step_live hw]
    refine Or.inr ⟨?_, hr⟩
    rw [← Prod.eta (exec (turn w (req.input a)) w), herr]
    exact Option.some_ne_none e

end Turn

/-! ## What a step can do -/

section Runs

variable {Dev KeyID PK Sig ι : Type} [DecidableEq ι] {request : ι → Request KeyID} {s s' : Calls Dev KeyID PK Sig ι}

variable (request) in
/-- The outcomes of a step. -/
inductive Moves (s : Calls Dev KeyID PK Sig ι) : Calls Dev KeyID PK Sig ι → Prop
  | still : Moves s s
  | started (i : ι) (h : s.phase i = .absent) : Moves s { s with phase := Function.update s.phase i .sending }
  | sent (i : ι) (h : s.phase i = .sending) (hroom : s.queue.length < capacity) : Moves s { s with
      queue := s.queue ++ [i]
      phase := Function.update s.phase i .waiting
      sent := s.sent ++ [i] }
  | received (i : ι) (r : Reply KeyID PK Sig) (rest : List (Reply KeyID PK Sig)) (h : s.phase i = .waiting)
      (hinbox : s.inbox i = r :: rest) : Moves s { s with
        inbox := Function.update s.inbox i rest
        phase := Function.update s.phase i (.returned r) }
  | cancelled (i : ι) (h : s.phase i = .waiting) : Moves s { s with phase := Function.update s.phase i .cancelled }
  | worked (i : ι) (queue : List ι) (a : DeviceAnswers Dev PK Sig) (hlive : s.worker.halted = none)
      (hqueue : s.queue = i :: queue) : Moves s { s with
        worker := (step s.worker ((request i).input a)).2
        queue := queue
        inbox := Function.update s.inbox i (s.inbox i ++ replies (step s.worker ((request i).input a)).1)
        served := s.served ++ [⟨i, a, (step s.worker ((request i).input a)).1⟩] }
  | idled (w : Worker Dev KeyID PK Sig) (hlive : w.halted = none → s.worker.halted = none) :
      Moves s { s with worker := w }

lemma live_of_step {w : Worker Dev KeyID PK Sig} {i : Input Dev KeyID PK Sig} (h : (step w i).2.halted = none) :
    w.halted = none := by
  cases hw : w.halted with
  | none => rfl
  | some reason =>
    rw [step_halted hw] at h
    cases hw.symm.trans h

lemma calls_step (s : Calls Dev KeyID PK Sig ι) (a : Action Dev PK Sig ι) : Moves request s (s.step request a).2 := by
  unfold Calls.step
  cases a with
  | start i =>
    dsimp only
    split
    · exact .started i ‹_›
    · exact .still
  | send i =>
    dsimp only
    split
    · split
      · exact .sent i ‹_› ‹_›
      · exact .still
    · exact .still
  | receive i =>
    dsimp only
    split
    · exact .received i _ _ ‹_› ‹_›
    · exact .still
  | cancel i =>
    dsimp only
    split
    · exact .cancelled i ‹_›
    · exact .still
  | work a =>
    dsimp only
    split
    · exact .worked _ _ a ‹_› ‹_›
    · exact .still
  | fire => exact .idled _ live_of_step
  | tick closed => exact .idled _ live_of_step

/-! ## Requests and replies -/

variable (request) in
/-- What has become of the reply of a turn: the worker is gone and there is none, it is in the inbox, or the caller has
it. -/
inductive Delivered (s : Calls Dev KeyID PK Sig ι) (t : Turn Dev KeyID PK Sig ι) : Prop
  | gone (hreplies : replies t.events = []) (hgone : s.worker.halted ≠ none) (hinbox : s.inbox t.caller = [])
      (hphase : ∀ r, s.phase t.caller ≠ .returned r)
  | arrived (r : Reply KeyID PK Sig) (hreplies : replies t.events = [r])
      (hown : OwnReply t.answers t.events r (request t.caller)) (hinbox : s.inbox t.caller = [r])
      (hphase : ∀ r, s.phase t.caller ≠ .returned r)
  | taken (r : Reply KeyID PK Sig) (hreplies : replies t.events = [r])
      (hown : OwnReply t.answers t.events r (request t.caller)) (hinbox : s.inbox t.caller = [])
      (hphase : s.phase t.caller = .returned r)

omit [DecidableEq ι] in
lemma Delivered.congr {t : Turn Dev KeyID PK Sig ι} (h : Delivered request s t)
    (hgone : s'.worker.halted = none → s.worker.halted = none) (hinbox : s'.inbox t.caller = s.inbox t.caller)
    (hphase : ∀ r, s'.phase t.caller = .returned r ↔ s.phase t.caller = .returned r) : Delivered request s' t := by
  cases h with
  | gone hreplies hg hi hp =>
    exact .gone hreplies (fun h => hg (hgone h)) (hinbox.trans hi) fun r hr => hp r ((hphase r).1 hr)
  | arrived r hreplies hown hi hp => exact .arrived r hreplies hown (hinbox.trans hi) fun r hr => hp r ((hphase r).1 hr)
  | taken r hreplies hown hi hp => exact .taken r hreplies hown (hinbox.trans hi) ((hphase r).2 hp)

variable (request) in
/-- The invariant of the callers. -/
structure Calls.Inv (s : Calls Dev KeyID PK Sig ι) : Prop where
  fifo : s.sent = s.served.map Turn.caller ++ s.queue
  nodup : s.sent.Nodup
  room : s.queue.length ≤ capacity
  begun : ∀ i, i ∈ s.sent ↔ s.phase i ≠ .absent ∧ s.phase i ≠ .sending
  unserved : ∀ i, i ∉ s.served.map Turn.caller → s.inbox i = [] ∧ ∀ r, s.phase i ≠ .returned r
  delivered : ∀ t ∈ s.served, Delivered request s t

omit [DecidableEq ι] in
/-- A caller that is about to send, or has not begun, is none of those that were served. -/
lemma Calls.Inv.ne_caller (h : s.Inv request) {i : ι} (hi : s.phase i = .absent ∨ s.phase i = .sending)
    {t : Turn Dev KeyID PK Sig ι} (ht : t ∈ s.served) : t.caller ≠ i := by
  rintro rfl
  have hsent : t.caller ∈ s.sent := by
    rw [h.fifo]
    exact List.mem_append_left _ (List.mem_map_of_mem ht)
  obtain ⟨habsent, hsending⟩ := (h.begun t.caller).1 hsent
  exact hi.elim habsent hsending

lemma Calls.Inv.setPhase (h : s.Inv request) {i : ι} {p : Phase KeyID PK Sig} (hp : ∀ r, p ≠ .returned r)
    (hi : ∀ r, s.phase i ≠ .returned r)
    (hbegun : (p = .absent ∨ p = .sending) ↔ (s.phase i = .absent ∨ s.phase i = .sending)) :
    Calls.Inv request { s with phase := Function.update s.phase i p } := by
  have hphase : ∀ j r, Function.update s.phase i p j = .returned r ↔ s.phase j = .returned r := by
    intro j r
    by_cases hj : j = i
    · subst hj
      simp [hp r, hi r]
    · rw [Function.update_of_ne hj]
  refine ⟨h.fifo, h.nodup, h.room, fun j => ?_, fun j hj => ?_, fun t ht => ?_⟩
  · refine (h.begun j).trans ?_
    by_cases hj : j = i
    · subst hj
      rw [← not_or, ← not_or, not_iff_not]
      simpa using hbegun.symm
    · simp only [Function.update_of_ne hj]
  · exact ⟨(h.unserved j hj).1, fun r hr => (h.unserved j hj).2 r ((hphase j r).1 hr)⟩
  · exact (h.delivered t ht).congr (fun hlive => hlive) rfl (hphase t.caller)

lemma Calls.Inv.sent (h : s.Inv request) {i : ι} (hi : s.phase i = .sending) (hroom : s.queue.length < capacity) :
    Calls.Inv request { s with
      queue := s.queue ++ [i]
      phase := Function.update s.phase i .waiting
      sent := s.sent ++ [i] } := by
  have hnew : i ∉ s.sent := fun hmem => ((h.begun i).1 hmem).2 hi
  refine ⟨?_, ?_, ?_, fun j => ?_, fun j hj => ?_, fun t ht => ?_⟩
  · rw [h.fifo, List.append_assoc]
  · exact List.nodup_append.2 ⟨h.nodup, List.nodup_singleton i, fun a ha b hb hab =>
      hnew (List.mem_singleton.1 hb ▸ hab ▸ ha)⟩
  · rw [List.length_append]
    exact hroom
  · by_cases hj : j = i
    · subst hj
      simp
    · simp [h.begun j, hj]
  · refine ⟨(h.unserved j hj).1, fun r hr => ?_⟩
    by_cases hji : j = i
    · subst hji
      simp at hr
    · simp only [Function.update_of_ne hji] at hr
      exact (h.unserved j hj).2 r hr
  · have hne := h.ne_caller (Or.inr hi) ht
    refine (h.delivered t ht).congr (fun hlive => hlive) rfl fun r => ?_
    simp only [Function.update_of_ne hne]

lemma Calls.Inv.received (h : s.Inv request) {i : ι} {r : Reply KeyID PK Sig} {rest : List (Reply KeyID PK Sig)}
    (hi : s.phase i = .waiting) (hinbox : s.inbox i = r :: rest) :
    Calls.Inv request { s with
      inbox := Function.update s.inbox i rest
      phase := Function.update s.phase i (.returned r) } := by
  -- the reply is the one of the turn for this caller
  have hturn : ∀ t ∈ s.served, t.caller = i → rest = [] ∧ replies t.events = [r] ∧
      OwnReply t.answers t.events r (request t.caller) := by
    rintro t ht rfl
    cases h.delivered t ht with
    | gone _ _ hempty _ => cases hinbox.symm.trans hempty
    | arrived r' hreplies hown hone _ =>
      cases hinbox.symm.trans hone
      exact ⟨rfl, hreplies, hown⟩
    | taken _ _ _ hempty _ => cases hinbox.symm.trans hempty
  refine ⟨h.fifo, h.nodup, h.room, fun j => ?_, fun j hj => ?_, fun t ht => ?_⟩
  · by_cases hj : j = i
    · subst hj
      simp [h.begun j, hi]
    · simp only [Function.update_of_ne hj]
      exact h.begun j
  · have hne : j ≠ i := by
      rintro rfl
      cases hinbox.symm.trans (h.unserved j hj).1
    simp only [Function.update_of_ne hne]
    exact h.unserved j hj
  · by_cases hj : t.caller = i
    · obtain ⟨rfl, hreplies, hown⟩ := hturn t ht hj
      exact .taken r hreplies hown (by simp [hj]) (by simp [hj])
    · exact (h.delivered t ht).congr (fun hlive => hlive) (by simp [hj]) fun r => by simp [hj]

lemma Calls.Inv.worked (h : s.Inv request) {i : ι} {queue : List ι} {a : DeviceAnswers Dev PK Sig}
    (hlive : s.worker.halted = none) (hqueue : s.queue = i :: queue) :
    Calls.Inv request { s with
      worker := (Ledger.step s.worker ((request i).input a)).2
      queue := queue
      inbox := Function.update s.inbox i (s.inbox i ++ replies (Ledger.step s.worker ((request i).input a)).1)
      served := s.served ++ [⟨i, a, (Ledger.step s.worker ((request i).input a)).1⟩] } := by
  have hfifo : s.sent = s.served.map Turn.caller ++ i :: queue := by rw [h.fifo, hqueue]
  -- the caller was not served before
  have hnew : i ∉ s.served.map Turn.caller := by
    intro hmem
    have hnodup := h.nodup
    rw [hfifo] at hnodup
    exact (List.nodup_append.1 hnodup).2.2 i hmem i List.mem_cons_self rfl
  obtain ⟨hempty, hphase⟩ := h.unserved i hnew
  refine ⟨?_, h.nodup, ?_, h.begun, fun j hj => ?_, fun t ht => ?_⟩
  · rw [hfifo]
    simp
  · have hroom := h.room
    rw [hqueue, List.length_cons] at hroom
    change queue.length ≤ capacity
    omega
  · simp only [List.map_append, List.mem_append, not_or, List.map_cons, List.map_nil, List.mem_singleton] at hj
    simp only [Function.update_of_ne hj.2]
    exact h.unserved j hj.1
  · rcases List.mem_append.1 ht with hbefore | hlast
    · have hne : t.caller ≠ i := by
        rintro rfl
        exact hnew (List.mem_map_of_mem hbefore)
      refine (h.delivered t hbefore).congr (fun _ => hlive) (by simp [hne]) fun r => Iff.rfl
    · obtain rfl := List.mem_singleton.1 hlast
      rcases step_replies hlive a (request i) with ⟨-, r, hreplies, hown⟩ | ⟨hgone, hreplies⟩
      · exact .arrived r hreplies hown (by simp [hempty, hreplies]) hphase
      · exact .gone hreplies hgone (by simp [hempty, hreplies]) hphase

theorem Calls.Inv.moved (h : s.Inv request) (hmoves : Moves request s s') : s'.Inv request := by
  cases hmoves with
  | still => exact h
  | started i hi => exact h.setPhase (by rintro r ⟨⟩) (by simp [hi]) (by simp [hi])
  | sent i hi hroom => exact h.sent hi hroom
  | received i r rest hi hinbox => exact h.received hi hinbox
  | cancelled i hi => exact h.setPhase (by rintro r ⟨⟩) (by simp [hi]) (by simp [hi])
  | worked i queue a hlive hqueue => exact h.worked hlive hqueue
  | idled w hlive =>
    exact ⟨h.fifo, h.nodup, h.room, h.begun, h.unserved, fun t ht =>
      (h.delivered t ht).congr hlive rfl fun _ => Iff.rfl⟩

omit [DecidableEq ι] in
lemma inv_noCalls : Calls.Inv request ({} : Calls Dev KeyID PK Sig ι) :=
  ⟨rfl, List.nodup_nil, Nat.zero_le _, by simp, by simp, by simp⟩

variable (request) in
/-- **What the callers can rely on.** -/
structure Paired (s : Calls Dev KeyID PK Sig ι) : Prop where
  /-- The worker takes the requests in the order in which they were sent, each one once; none is lost, whether its
  caller still waits or not. -/
  fifo : s.sent = s.served.map Turn.caller ++ s.queue
  nodup : s.sent.Nodup
  /-- The worker never has to wait when it sends a reply. -/
  room : s.queue.length ≤ capacity ∧ ∀ i, (s.inbox i).length ≤ 1
  /-- What a caller returns is the reply to its own request. -/
  own : ∀ i r, s.phase i = .returned r →
    ∃ t ∈ s.served, t.caller = i ∧ replies t.events = [r] ∧ OwnReply t.answers t.events r (request i)
  /-- As long as the worker is there, every request that it has taken is answered. -/
  answered : s.worker.halted = none → ∀ t ∈ s.served,
    ∃ r, replies t.events = [r] ∧ (s.inbox t.caller = [r] ∨ s.phase t.caller = .returned r)

/-- **Calls and replies are paired.**  For any calls of `Sign` and `getPublicKey`, started, cancelled and served in any
order, and whatever scanner, device and timer do: no request is lost, reordered or served twice, no reply goes to
another call, and the worker is never held up by a caller that has gone. -/
theorem calls_paired (request : ι → Request KeyID) (acts : List (Action Dev PK Sig ι)) :
    Paired request (final (Calls.step request) ({} : Calls Dev KeyID PK Sig ι) acts) := by
  have h : Calls.Inv request (final (Calls.step request) ({} : Calls Dev KeyID PK Sig ι) acts) :=
    inv_final inv_noCalls (fun s a hs => hs.moved (calls_step s a)) acts
  refine ⟨h.fifo, h.nodup, ⟨h.room, fun i => ?_⟩, fun i r hr => ?_, fun hlive t ht => ?_⟩
  · by_cases hi : i ∈ (final (Calls.step request) ({} : Calls Dev KeyID PK Sig ι) acts).served.map Turn.caller
    · obtain ⟨t, ht, rfl⟩ := List.mem_map.1 hi
      cases h.delivered t ht with
      | gone _ _ hinbox _ => simp [hinbox]
      | arrived r _ _ hinbox _ => simp [hinbox]
      | taken r _ _ hinbox _ => simp [hinbox]
    · simp [(h.unserved i hi).1]
  · by_cases hi : i ∈ (final (Calls.step request) ({} : Calls Dev KeyID PK Sig ι) acts).served.map Turn.caller
    · obtain ⟨t, ht, rfl⟩ := List.mem_map.1 hi
      cases h.delivered t ht with
      | gone _ _ _ hphase => exact absurd hr (hphase r)
      | arrived _ _ _ _ hphase => exact absurd hr (hphase r)
      | taken r' hreplies hown _ hphase =>
        cases hphase.symm.trans hr
        exact ⟨t, ht, rfl, hreplies, hown⟩
    · exact absurd hr ((h.unserved i hi).2 r)
  · cases h.delivered t ht with
    | gone _ hgone _ _ => exact absurd hlive hgone
    | arrived r hreplies _ hinbox _ => exact ⟨r, hreplies, Or.inl hinbox⟩
    | taken r hreplies _ _ hphase => exact ⟨r, hreplies, Or.inr hphase⟩

/-! ## Calls of a worker that is gone -/

lemma Moves.gone (hmoves : Moves request s s') (hgone : s.worker.halted ≠ none) :
    s'.worker.halted ≠ none ∧ s'.served = s.served ∧ ∀ i, i ∈ s.sent → i ∈ s'.sent := by
  cases hmoves with
  | still => exact ⟨hgone, rfl, fun _ hi => hi⟩
  | started => exact ⟨hgone, rfl, fun _ hi => hi⟩
  | sent => exact ⟨hgone, rfl, fun _ hi => List.mem_append_left _ hi⟩
  | received => exact ⟨hgone, rfl, fun _ hi => hi⟩
  | cancelled => exact ⟨hgone, rfl, fun _ hi => hi⟩
  | worked _ _ _ hlive _ => exact absurd hlive hgone
  | idled w hlive => exact ⟨fun h => hgone (hlive h), rfl, fun _ hi => hi⟩

lemma still_sending (hmoves : Moves request s s') {i : ι} (hi : s.phase i = .sending)
    (hsent : i ∉ s'.sent) : s'.phase i = .sending := by
  have hother : ∀ {j : ι} {p : Phase KeyID PK Sig}, s.phase j ≠ .sending →
      Function.update s.phase j p i = .sending := by
    intro j p hj
    rw [Function.update_of_ne (by rintro rfl; exact hj hi), hi]
  cases hmoves with
  | still => exact hi
  | started j hj => exact hother (by simp [hj])
  | sent j hj =>
    have hne : i ≠ j := by
      rintro rfl
      exact hsent (List.mem_append_right _ (List.mem_singleton.2 rfl))
    simp only [Function.update_of_ne hne, hi]
  | received j r rest hj => exact hother (by simp [hj])
  | cancelled j hj => exact hother (by simp [hj])
  | worked => exact hi
  | idled => exact hi

end Runs

/-- The device can be opened and answers. -/
def goodAnswers : DeviceAnswers Unit Unit Unit := ⟨fun _ => .ok (), .ok (), fun _ => .ok ()⟩

/-- The device is closed after a while, and the next request makes the worker wait for ever; another call begins. -/
def wedgingRun : List (Action Unit Unit Unit ℕ) :=
  [.start 0, .send 0, .work goodAnswers, .receive 0, .fire, .tick (.ok ()), .start 1, .send 1, .work goodAnswers,
    .start 2]

end Signatory.Vault.Ledger

import Signatory.Signer.Policy

/-!
# `pkg/vault/nitro/proxy`: the proxy for the enclave

A loop accepts connections, and each is served by a goroutine that dials the remote address and starts two more, one for
each direction.  `Shutdown` closes the listener, waits for the loop, cancels the goroutines and waits for them.  All of
them, the peers and the network take their steps in any order; a state is what they share, and an action is one step of
one of them.

* `delivered_prefix`: what one side gets is the beginning of what was read from the other;
* `shutdown_complete`: when `Shutdown` has returned nil, nothing is served any more and nothing ever will be.  The
  connections are closed on both sides, but for those whose remote address could not be dialed: these stay open;
* `drain_outlives_cancel`: a goroutine that has seen the end of one direction does not look at the cancellation again.
  Nothing more is read in the other direction, whose source is closed; but a write that its destination does not take is
  never interrupted, and `Shutdown` does not return nil while it lasts.
-/

namespace Signatory.Vault.Nitro.Proxy

open Signer (Bytes)

/-! ## The parties -/

/-- `pipe`, in the loop of `io.Copy`: what was read from `src` and what was written to `dst`. -/
structure Pipe where
  got : Bytes := []
  put : Bytes := []
  ended : Bool := false
  deriving DecidableEq

/-- The direction of a pipe: from the client to the remote side, or back. -/
inductive Dir where
  | up
  | down
  deriving DecidableEq

/-- How far `serve` is. -/
inductive Phase where
  | dialing
  /-- It returned because the address could not be dialed. -/
  | undialed
  /-- At the `select`. -/
  | selecting
  /-- After `ctx.Done`; both channels are waited for. -/
  | cancelled
  /-- After one of the channels; the other one is waited for. -/
  | draining
  | returned
  deriving DecidableEq

/-- `serve` has returned, and `wg.Done` was called. -/
def Phase.over : Phase → Bool
  | .undialed | .returned => true
  | _ => false

/-- The pipes have been started. -/
def Phase.piping : Phase → Bool
  | .selecting | .cancelled | .draining => true
  | _ => false

structure Conn where
  clientOpen : Bool := true
  remoteOpen : Bool := false
  up : Pipe := {}
  down : Pipe := {}
  phase : Phase := .dialing
  deriving DecidableEq

namespace Conn

def pipe (c : Conn) : Dir → Pipe
  | .up => c.up
  | .down => c.down

def setPipe (c : Conn) (d : Dir) (p : Pipe) : Conn :=
  match d with
  | .up => { c with up := p }
  | .down => { c with down := p }

/-- Whether the side that a pipe reads from is open. -/
def srcOpen (c : Conn) : Dir → Bool
  | .up => c.clientOpen
  | .down => c.remoteOpen

/-- Whether the side that a pipe writes to is open. -/
def dstOpen (c : Conn) : Dir → Bool
  | .up => c.remoteOpen
  | .down => c.clientOpen

def closeDst (c : Conn) : Dir → Conn
  | .up => { c with remoteOpen := false }
  | .down => { c with clientOpen := false }

def running (c : Conn) (d : Dir) : Bool := c.phase.piping && !(c.pipe d).ended

end Conn

/-- Where a call of `Shutdown` is, or how the last one ended. -/
inductive Shutdown where
  | notCalled
  | waitLoop
  | waitConns
  | returned (ok : Bool)
  deriving DecidableEq

/-- The listener, whether `loopDone` is still open, `ctx`, what was accepted, and `Shutdown`. -/
structure State where
  listening : Bool := true
  accepting : Bool := true
  cancelled : Bool := false
  conns : List Conn := []
  shutdown : Shutdown := .notCalled

/-! ## Steps -/

/-- A step of the goroutines of a connection, or of a peer. -/
inductive ConnAction where
  | dial (ok : Bool)
  | read (d : Dir) (chunk : Bytes)
  | write (d : Dir) (n : ℕ)
  | endPipe (d : Dir)
  | selectDone
  | selectPipe (d : Dir)
  | finish
  deriving DecidableEq

/-- The step in a connection; nothing if the goroutine is not there. -/
def Conn.step (cancelled : Bool) (c : Conn) : ConnAction → Option Conn
  | .dial ok =>
    if c.phase = .dialing then
      -- the client is not closed on this return
      some (if ok then { c with remoteOpen := true, phase := .selecting } else { c with phase := .undialed })
    else none
  | .read d chunk =>
    if c.running d ∧ (c.pipe d).put = (c.pipe d).got ∧ c.srcOpen d then
      some (c.setPipe d { c.pipe d with got := (c.pipe d).got ++ chunk })
    else none
  | .write d n =>
    if c.running d ∧ c.dstOpen d then
      some (c.setPipe d { c.pipe d with put := (c.pipe d).got.take ((c.pipe d).put.length + n) })
    else none
  | .endPipe d =>
    if c.running d then some ((c.setPipe d { c.pipe d with ended := true }).closeDst d) else none
  | .selectDone =>
    if c.phase = .selecting ∧ cancelled then
      some { c with remoteOpen := false, clientOpen := false, phase := .cancelled }
    else none
  | .selectPipe d => if c.phase = .selecting ∧ (c.pipe d).ended then some { c with phase := .draining } else none
  | .finish =>
    if (c.phase = .cancelled ∨ c.phase = .draining) ∧ c.up.ended ∧ c.down.ended then
      some { c with phase := .returned }
    else none

inductive Action where
  | accept
  | acceptFails
  | conn (i : ℕ) (a : ConnAction)
  | callShutdown (closeFails : Bool)
  | loopSeen
  | connsSeen
  | deadline
  deriving DecidableEq

/-- One step of one party; an action that is not enabled changes nothing.  A listener cannot be closed twice. -/
def step (s : State) : Action → State
  | .accept => if s.listening ∧ s.accepting then { s with conns := s.conns ++ [{}] } else s
  | .acceptFails => { s with accepting := false }
  | .conn i a =>
    match s.conns[i]?.bind fun c => c.step s.cancelled a with
    | some c => { s with conns := s.conns.set i c }
    | none => s
  | .callShutdown closeFails =>
    if s.shutdown = .waitLoop ∨ s.shutdown = .waitConns then s
    else if closeFails ∨ !s.listening then { s with shutdown := .returned false }
    else { s with listening := false, shutdown := .waitLoop }
  | .loopSeen =>
    if s.shutdown = .waitLoop ∧ !s.accepting then { s with cancelled := true, shutdown := .waitConns } else s
  | .connsSeen =>
    if s.shutdown = .waitConns ∧ s.conns.all (·.phase.over) then { s with shutdown := .returned true } else s
  | .deadline =>
    if s.shutdown = .waitLoop ∨ s.shutdown = .waitConns then { s with shutdown := .returned false } else s

/-- The state after some steps. -/
def run (s : State) (acts : List Action) : State := acts.foldl step s

lemma run_append (s : State) (acts acts' : List Action) : run s (acts ++ acts') = run (run s acts) acts' :=
  List.foldl_append

/-- What a step can do. -/
inductive Move (s : State) : Action → State → Prop
  | stay (a : Action) : Move s a s
  | accept (hl : s.listening = true) : Move s .accept { s with conns := s.conns ++ [{}] }
  | acceptFails : Move s .acceptFails { s with accepting := false }
  | conn {i : ℕ} {a : ConnAction} {c c' : Conn} (hget : s.conns[i]? = some c) (hstep : c.step s.cancelled a = some c') :
    Move s (.conn i a) { s with conns := s.conns.set i c' }
  | fails (a : Action) : Move s a { s with shutdown := .returned false }
  | closes (b : Bool) : Move s (.callShutdown b) { s with listening := false, shutdown := .waitLoop }
  | loopSeen (hw : s.shutdown = .waitLoop) (ha : s.accepting = false) :
    Move s .loopSeen { s with cancelled := true, shutdown := .waitConns }
  | connsSeen (hw : s.shutdown = .waitConns) (hover : ∀ c ∈ s.conns, c.phase.over = true) :
    Move s .connsSeen { s with shutdown := .returned true }

theorem move_step (s : State) (a : Action) : Move s a (step s a) := by
  cases a with
  | accept =>
    unfold step
    dsimp only
    split_ifs with h
    · exact .accept h.1
    · exact .stay _
  | acceptFails => exact .acceptFails
  | conn i a =>
    unfold step
    dsimp only
    cases hc : s.conns[i]?.bind fun c => c.step s.cancelled a with
    | none => exact .stay _
    | some c' =>
      obtain ⟨c, hget, hstep⟩ := Option.bind_eq_some_iff.1 hc
      exact .conn hget hstep
  | callShutdown closeFails =>
    unfold step
    dsimp only
    split_ifs
    · exact .stay _
    · exact .fails _
    · exact .closes _
  | loopSeen =>
    unfold step
    dsimp only
    split_ifs with h
    · exact .loopSeen h.1 (by simpa using h.2)
    · exact .stay _
  | connsSeen =>
    unfold step
    dsimp only
    split_ifs with h
    · exact .connsSeen h.1 (List.all_eq_true.1 h.2)
    · exact .stay _
  | deadline =>
    unfold step
    dsimp only
    split_ifs
    · exact .fails _
    · exact .stay _

/-! ## What holds of a connection -/

/-- What a connection satisfies wherever its goroutines are. -/
structure Conn.Inv (c : Conn) : Prop where
  delivered : ∀ d, (c.pipe d).put <+: (c.pipe d).got
  unstarted : c.phase.piping = false → c.phase ≠ .returned → c.clientOpen = true ∧ c.up = {} ∧ c.down = {}
  closed : ∀ d, (c.pipe d).ended = true → c.dstOpen d = false
  returned : c.phase = .returned → c.up.ended = true ∧ c.down.ended = true
  drained : c.phase = .draining → c.up.ended = true ∨ c.down.ended = true

@[simp] lemma pipe_setPipe (c : Conn) (d d' : Dir) (p : Pipe) :
    (c.setPipe d p).pipe d' = if d' = d then p else c.pipe d' := by
  cases d <;> cases d' <;> rfl

@[simp] lemma phase_setPipe (c : Conn) (d : Dir) (p : Pipe) : (c.setPipe d p).phase = c.phase := by cases d <;> rfl

@[simp] lemma dstOpen_setPipe (c : Conn) (d d' : Dir) (p : Pipe) : (c.setPipe d p).dstOpen d' = c.dstOpen d' := by
  cases d <;> cases d' <;> rfl

@[simp] lemma srcOpen_setPipe (c : Conn) (d d' : Dir) (p : Pipe) : (c.setPipe d p).srcOpen d' = c.srcOpen d' := by
  cases d <;> cases d' <;> rfl

@[simp] lemma pipe_closeDst (c : Conn) (d d' : Dir) : (c.closeDst d).pipe d' = c.pipe d' := by
  cases d <;> cases d' <;> rfl

@[simp] lemma phase_closeDst (c : Conn) (d : Dir) : (c.closeDst d).phase = c.phase := by cases d <;> rfl

@[simp] lemma dstOpen_closeDst (c : Conn) (d d' : Dir) :
    (c.closeDst d).dstOpen d' = if d' = d then false else c.dstOpen d' := by
  cases d <;> cases d' <;> rfl

/-- The destination of one pipe is the source of the other. -/
lemma srcOpen_closeDst {c : Conn} {d : Dir} (h : c.srcOpen d = false) (d' : Dir) :
    (c.closeDst d').srcOpen d = false := by
  cases d <;> cases d' <;> first | rfl | exact h

lemma ended_or_of_setPipe {c : Conn} {d : Dir} {p : Pipe} (hp : (c.pipe d).ended = true → p.ended = true)
    (h : c.up.ended = true ∨ c.down.ended = true) :
    (c.setPipe d p).up.ended = true ∨ (c.setPipe d p).down.ended = true := by
  cases d with
  | up => exact h.imp_left hp
  | down => exact h.imp_right hp

lemma Conn.Inv.setPipe {c : Conn} (h : c.Inv) (hpiping : c.phase.piping = true) {d : Dir} {p : Pipe}
    (hp : p.put <+: p.got) (hended : p.ended = (c.pipe d).ended) : (c.setPipe d p).Inv := by
  refine ⟨fun d' => ?_, fun hno => ?_, fun d' hd' => ?_, fun hret => ?_, fun hdrain => ?_⟩
  · rw [pipe_setPipe]
    split
    · exact hp
    · exact h.delivered d'
  · rw [phase_setPipe, hpiping] at hno
    cases hno
  · rw [pipe_setPipe] at hd'
    rw [dstOpen_setPipe]
    split at hd'
    next hdd => exact h.closed d' (by rw [hdd, ← hended]; exact hd')
    next => exact h.closed d' hd'
  · rw [phase_setPipe] at hret
    rw [hret] at hpiping
    cases hpiping
  · exact ended_or_of_setPipe (fun he => hended.trans he) (h.drained (by rwa [phase_setPipe] at hdrain))

/-- **One step in a connection.** -/
lemma Conn.Inv.step {c c' : Conn} (h : c.Inv) {cancelled : Bool} {a : ConnAction}
    (hstep : c.step cancelled a = some c') : c'.Inv := by
  cases a with
  | dial ok =>
    obtain ⟨hdialing, hc'⟩ := Option.ite_none_right_eq_some.1 hstep
    obtain ⟨hopen, hup, hdown⟩ := h.unstarted (by rw [hdialing]; rfl) (by rw [hdialing]; decide)
    -- no pipe has been started, so none has ended
    have hnone : ∀ d, c.pipe d = {} := fun d => by cases d <;> assumption
    obtain rfl := Option.some.inj hc'
    cases ok with
    | true =>
      refine ⟨h.delivered, (fun hno => by cases hno), fun d hd => ?_, (fun hret => by cases hret),
        (fun hdrain => by cases hdrain)⟩
      have hended : (c.pipe d).ended = true := by cases d <;> exact hd
      rw [hnone] at hended
      cases hended
    | false =>
      exact ⟨h.delivered, fun _ _ => ⟨hopen, hup, hdown⟩, h.closed, (fun hret => by cases hret),
        (fun hdrain => by cases hdrain)⟩
  | read d chunk =>
    obtain ⟨⟨hrun, hall, -⟩, hc'⟩ := Option.ite_none_right_eq_some.1 hstep
    obtain rfl := Option.some.inj hc'
    refine h.setPipe (Bool.and_eq_true_iff.1 hrun).1 ?_ rfl
    dsimp only
    rw [hall]
    exact List.prefix_append _ _
  | write d n =>
    obtain ⟨⟨hrun, -⟩, hc'⟩ := Option.ite_none_right_eq_some.1 hstep
    obtain rfl := Option.some.inj hc'
    exact h.setPipe (Bool.and_eq_true_iff.1 hrun).1 (List.take_prefix _ _) rfl
  | endPipe d =>
    obtain ⟨hrun, hc'⟩ := Option.ite_none_right_eq_some.1 hstep
    obtain rfl := Option.some.inj hc'
    have hpiping := (Bool.and_eq_true_iff.1 hrun).1
    refine ⟨fun d' => ?_, fun hno => ?_, fun d' hd' => ?_, fun hret => ?_, fun hdrain => ?_⟩
    · rw [pipe_closeDst, pipe_setPipe]
      split
      next hdd => exact hdd ▸ h.delivered d'
      next => exact h.delivered d'
    · rw [phase_closeDst, phase_setPipe, hpiping] at hno
      cases hno
    · rw [pipe_closeDst, pipe_setPipe] at hd'
      rw [dstOpen_closeDst, dstOpen_setPipe]
      split
      next => rfl
      next hdd =>
        rw [if_neg hdd] at hd'
        exact h.closed d' hd'
    · rw [phase_closeDst, phase_setPipe] at hret
      rw [hret] at hpiping
      cases hpiping
    · rw [phase_closeDst, phase_setPipe] at hdrain
      have h' := ended_or_of_setPipe (d := d) (p := { c.pipe d with ended := true }) (fun _ => rfl) (h.drained hdrain)
      cases d <;> exact h'
  | selectDone =>
    obtain ⟨-, hc'⟩ := Option.ite_none_right_eq_some.1 hstep
    obtain rfl := Option.some.inj hc'
    exact ⟨h.delivered, (fun hno => by cases hno), (fun d _ => by cases d <;> rfl), (fun hret => by cases hret),
      (fun hdrain => by cases hdrain)⟩
  | selectPipe d =>
    obtain ⟨⟨-, hended⟩, hc'⟩ := Option.ite_none_right_eq_some.1 hstep
    obtain rfl := Option.some.inj hc'
    refine ⟨h.delivered, (fun hno => by cases hno), h.closed, (fun hret => by cases hret), fun _ => ?_⟩
    cases d with
    | up => exact Or.inl hended
    | down => exact Or.inr hended
  | finish =>
    obtain ⟨⟨-, hup, hdown⟩, hc'⟩ := Option.ite_none_right_eq_some.1 hstep
    obtain rfl := Option.some.inj hc'
    exact ⟨h.delivered, fun _ hno => absurd rfl hno, h.closed, fun _ => ⟨hup, hdown⟩, (fun hdrain => by cases hdrain)⟩

/-! ## What holds of the proxy -/

/-- What the state satisfies after any steps. -/
structure Inv (s : State) : Prop where
  conns : ∀ c ∈ s.conns, c.Inv
  notListening : s.shutdown = .waitLoop → s.listening = false
  loopEnded : s.shutdown = .waitConns → s.listening = false ∧ s.accepting = false
  allOver : s.shutdown = .returned true →
    s.listening = false ∧ s.accepting = false ∧ ∀ c ∈ s.conns, c.phase.over = true

lemma step_of_over {c : Conn} (h : c.phase.over = true) (cancelled : Bool) (a : ConnAction) :
    c.step cancelled a = none := by
  have hphase : c.phase = .undialed ∨ c.phase = .returned := by
    cases hp : c.phase <;> simp [hp, Phase.over] at h ⊢
  rcases hphase with hp | hp <;> cases a <;> simp [Conn.step, Conn.running, Phase.piping, hp]

theorem Inv.step {s : State} (h : Inv s) (a : Action) : Inv (step s a) := by
  have hmove := move_step s a
  generalize Proxy.step s a = s' at hmove
  cases hmove with
  | stay => exact h
  | accept hl =>
    refine ⟨fun c hc => ?_, h.notListening, h.loopEnded, fun hret => ?_⟩
    · rcases List.mem_append.1 hc with hc | hc
      · exact h.conns c hc
      · obtain rfl := List.mem_singleton.1 hc
        exact ⟨(fun d => by cases d <;> exact List.nil_prefix), fun _ _ => ⟨rfl, rfl, rfl⟩,
          (fun d hd => by cases d <;> cases hd), (fun hret => by cases hret), (fun hdrain => by cases hdrain)⟩
    · rw [(h.allOver hret).1] at hl
      cases hl
  | acceptFails =>
    exact ⟨h.conns, h.notListening, fun hw => ⟨(h.loopEnded hw).1, rfl⟩,
      fun hret => ⟨(h.allOver hret).1, rfl, (h.allOver hret).2.2⟩⟩
  | @conn i a c c' hget hstep =>
    have hmem : c ∈ s.conns := List.mem_of_getElem? hget
    refine ⟨fun c₁ h₁ => ?_, h.notListening, h.loopEnded, fun hret => ?_⟩
    · rcases List.mem_or_eq_of_mem_set h₁ with h₁ | rfl
      · exact h.conns c₁ h₁
      · exact (h.conns c hmem).step hstep
    · -- after a `Shutdown` that returned nil there is nobody to take this step
      rw [step_of_over ((h.allOver hret).2.2 c hmem)] at hstep
      cases hstep
  | fails => exact ⟨h.conns, (fun e => by cases e), (fun e => by cases e), (fun e => by cases e)⟩
  | closes => exact ⟨h.conns, fun _ => rfl, (fun e => by cases e), (fun e => by cases e)⟩
  | loopSeen hw ha => exact ⟨h.conns, (fun e => by cases e), fun _ => ⟨h.notListening hw, ha⟩, (fun e => by cases e)⟩
  | connsSeen hw hover =>
    obtain ⟨hl, ha⟩ := h.loopEnded hw
    exact ⟨h.conns, (fun e => by cases e), (fun e => by cases e), fun _ => ⟨hl, ha, hover⟩⟩

theorem inv_run (acts : List Action) : Inv (run {} acts) := by
  induction acts using List.reverseRecOn with
  | nil => exact ⟨by simp [run], (fun e => by cases e), (fun e => by cases e), (fun e => by cases e)⟩
  | append_singleton acts a ih =>
    rw [run_append]
    exact ih.step a

lemma run_keeps {P : State → Prop} {A : Action → Prop} (hstep : ∀ s a, P s → A a → P (step s a)) {s : State} (h : P s)
    {acts : List Action} (hacts : ∀ a ∈ acts, A a) : P (run s acts) := by
  induction acts generalizing s with
  | nil => exact h
  | cons a acts ih =>
    exact ih (hstep s a h (hacts a List.mem_cons_self)) fun b hb => hacts b (List.mem_cons_of_mem _ hb)

/-! ## Results -/

/-- **Nothing is invented or reordered.**  At any time, what a side of a connection has been sent is the beginning of
what was read from the other side. -/
theorem delivered_prefix (acts : List Action) {c : Conn} (hc : c ∈ (run {} acts).conns) (d : Dir) :
    (c.pipe d).put <+: (c.pipe d).got :=
  ((inv_run acts).conns c hc).delivered d

/-- The loop has ended, the listener is closed, and the connections are what they are and over. -/
def Frozen (conns : List Conn) (s : State) : Prop :=
  s.listening = false ∧ s.accepting = false ∧ s.conns = conns ∧ ∀ c ∈ conns, c.phase.over = true

lemma Frozen.step {conns : List Conn} {s : State} (h : Frozen conns s) (a : Action) : Frozen conns (step s a) := by
  obtain ⟨hl, ha, rfl, hover⟩ := h
  have hmove := move_step s a
  generalize Proxy.step s a = s' at hmove
  cases hmove with
  | accept hopen =>
    rw [hl] at hopen
    cases hopen
  | conn hget hstep =>
    rw [step_of_over (hover _ (List.mem_of_getElem? hget))] at hstep
    cases hstep
  | acceptFails => exact ⟨hl, rfl, rfl, hover⟩
  | closes => exact ⟨rfl, ha, rfl, hover⟩
  | stay => exact ⟨hl, ha, rfl, hover⟩
  | fails => exact ⟨hl, ha, rfl, hover⟩
  | loopSeen => exact ⟨hl, ha, rfl, hover⟩
  | connsSeen => exact ⟨hl, ha, rfl, hover⟩

/-- **Shutdown is complete, and what it leaves behind.**  After a `Shutdown` that returned nil the loop has ended, and
of every connection that was ever accepted either both sides are closed, or the remote address could not be dialed and
the client's side is open.  Whatever happens then, no connection is added, and none of them changes: what is open stays
open. -/
theorem shutdown_complete (acts : List Action) (h : (run {} acts).shutdown = .returned true) :
    (∀ c ∈ (run {} acts).conns, (c.phase = .returned ∧ c.clientOpen = false ∧ c.remoteOpen = false) ∨
        (c.phase = .undialed ∧ c.clientOpen = true)) ∧
      ∀ later, (run (run {} acts) later).conns = (run {} acts).conns := by
  have hinv := inv_run acts
  obtain ⟨hl, ha, hover⟩ := hinv.allOver h
  refine ⟨fun c hc => ?_, fun later => ?_⟩
  · have hconn := hinv.conns c hc
    have hphase := hover c hc
    cases hp : c.phase with
    | undialed => exact Or.inr ⟨rfl, (hconn.unstarted (by rw [hp]; rfl) (by rw [hp]; decide)).1⟩
    | returned =>
      obtain ⟨hup, hdown⟩ := hconn.returned hp
      exact Or.inl ⟨rfl, hconn.closed .down hdown, hconn.closed .up hup⟩
    | dialing => simp [hp, Phase.over] at hphase
    | selecting => simp [hp, Phase.over] at hphase
    | cancelled => simp [hp, Phase.over] at hphase
    | draining => simp [hp, Phase.over] at hphase
  · have hfrozen : Frozen (run {} acts).conns (run (run {} acts) later) :=
      run_keeps (A := fun _ => True) (fun s a hs _ => hs.step a) ⟨hl, ha, rfl, hover⟩ fun _ _ => trivial
    exact hfrozen.2.2.1

/-- One connection that cannot be dialed, and one that is cancelled. -/
theorem shutdown_complete_undialed :
    let acts : List Action := [.accept, .accept, .conn 0 (.dial false), .conn 1 (.dial true),
      .conn 1 (.read .up [1, 2]), .callShutdown false, .acceptFails, .loopSeen, .conn 1 .selectDone,
      .conn 1 (.endPipe .up), .conn 1 (.endPipe .down), .conn 1 .finish, .connsSeen]
    ((run {} acts).conns.map fun c => (c.phase, c.clientOpen)) = [(.undialed, true), (.returned, false)] ∧
      ∀ later, (run (run {} acts) later).conns = (run {} acts).conns := by
  intro acts
  exact ⟨by decide, (shutdown_complete acts (by decide)).2⟩

/-- The goroutine has seen the end of one direction and waits for the direction `d`.  It has read `got` there, its
source is closed, and its destination is open or not as `b` says. -/
structure Conn.Draining (d : Dir) (got : Bytes) (b : Bool) (c : Conn) : Prop where
  phase : c.phase = .draining
  running : (c.pipe d).ended = false
  srcClosed : c.srcOpen d = false
  got : (c.pipe d).got = got
  dst : c.dstOpen d = b

/-- A goroutine that waits for a pipe waits because the other one has ended, and that one has closed its source. -/
lemma Conn.Inv.draining {c : Conn} (h : c.Inv) {d : Dir} (hp : c.phase = .draining) (hd : (c.pipe d).ended = false) :
    c.Draining d (c.pipe d).got (c.dstOpen d) := by
  refine ⟨hp, hd, ?_, rfl, rfl⟩
  rcases h.drained hp with hended | hended
  · cases d with
    | up => rw [Conn.pipe, hended] at hd; cases hd
    | down => exact h.closed .up hended
  · cases d with
    | up => exact h.closed .down hended
    | down => rw [Conn.pipe, hended] at hd; cases hd

lemma Conn.Draining.step {c c' : Conn} {d : Dir} {got : Bytes} {b : Bool} (h : c.Draining d got b) {cancelled : Bool}
    {a : ConnAction} (ha : a ≠ .endPipe d) (hstep : c.step cancelled a = some c') : c'.Draining d got b := by
  cases a with
  | dial ok => simp [Conn.step, h.phase] at hstep
  | read d' chunk =>
    obtain ⟨⟨-, -, hsrc⟩, hc'⟩ := Option.ite_none_right_eq_some.1 hstep
    obtain rfl := Option.some.inj hc'
    -- it is the other pipe: the source of this one is closed
    have hne : d ≠ d' := fun e => by rw [← e, h.srcClosed] at hsrc; cases hsrc
    exact ⟨by rw [phase_setPipe, h.phase], by rw [pipe_setPipe, if_neg hne, h.running],
      by rw [srcOpen_setPipe, h.srcClosed], by rw [pipe_setPipe, if_neg hne, h.got],
      by rw [dstOpen_setPipe, h.dst]⟩
  | write d' n =>
    obtain ⟨-, hc'⟩ := Option.ite_none_right_eq_some.1 hstep
    obtain rfl := Option.some.inj hc'
    refine ⟨by rw [phase_setPipe, h.phase], ?_, by rw [srcOpen_setPipe, h.srcClosed], ?_,
      by rw [dstOpen_setPipe, h.dst]⟩
    · rw [pipe_setPipe]
      split
      next hdd => exact hdd ▸ h.running
      next => exact h.running
    · rw [pipe_setPipe]
      split
      next hdd => exact hdd ▸ h.got
      next => exact h.got
  | endPipe d' =>
    have hne : d ≠ d' := fun e => ha (by rw [e])
    obtain ⟨-, hc'⟩ := Option.ite_none_right_eq_some.1 hstep
    obtain rfl := Option.some.inj hc'
    exact ⟨by rw [phase_closeDst, phase_setPipe, h.phase], by rw [pipe_closeDst, pipe_setPipe, if_neg hne, h.running],
      srcOpen_closeDst (by rw [srcOpen_setPipe, h.srcClosed]) d',
      by rw [pipe_closeDst, pipe_setPipe, if_neg hne, h.got],
      by rw [dstOpen_closeDst, if_neg hne, dstOpen_setPipe, h.dst]⟩
  | selectDone => simp [Conn.step, h.phase] at hstep
  | selectPipe d' => simp [Conn.step, h.phase] at hstep
  | finish =>
    obtain ⟨⟨-, hup, hdown⟩, -⟩ := Option.ite_none_right_eq_some.1 hstep
    have hrun := h.running
    cases d with
    | up => rw [Conn.pipe, hup] at hrun; cases hrun
    | down => rw [Conn.pipe, hdown] at hrun; cases hrun

/-- The connection `i` drains, and `Shutdown` has not returned nil. -/
def Draining (i : ℕ) (d : Dir) (got : Bytes) (b : Bool) (s : State) : Prop :=
  s.shutdown ≠ .returned true ∧ ∃ c, s.conns[i]? = some c ∧ c.Draining d got b

lemma Draining.step {i : ℕ} {d : Dir} {got : Bytes} {b : Bool} {s : State} (h : Draining i d got b s) {a : Action}
    (ha : a ≠ .conn i (.endPipe d)) : Draining i d got b (step s a) := by
  obtain ⟨hshut, c, hget, hdrain⟩ := h
  have hi : i < s.conns.length := (List.getElem?_eq_some_iff.1 hget).1
  have hmove := move_step s a
  generalize Proxy.step s a = s' at hmove
  cases hmove with
  | accept => exact ⟨hshut, c, by rw [List.getElem?_append_left hi]; exact hget, hdrain⟩
  | @conn j a c₁ c' hget' hstep =>
    by_cases hij : j = i
    · subst hij
      obtain rfl := Option.some.inj (hget.symm.trans hget')
      exact ⟨hshut, c', by simp [hi], hdrain.step (fun e => ha (by rw [e])) hstep⟩
    · exact ⟨hshut, c, by rw [List.getElem?_set_ne hij]; exact hget, hdrain⟩
  | connsSeen _ hover =>
    -- `wg.Wait` has not returned
    have hc := hover c (List.mem_of_getElem? hget)
    rw [hdrain.phase] at hc
    cases hc
  | stay => exact ⟨hshut, c, hget, hdrain⟩
  | acceptFails => exact ⟨hshut, c, hget, hdrain⟩
  | fails => exact ⟨(fun e => by cases e), c, hget, hdrain⟩
  | closes => exact ⟨(fun e => by cases e), c, hget, hdrain⟩
  | loopSeen => exact ⟨(fun e => by cases e), c, hget, hdrain⟩

/-- **A half-closed connection is cut off, and outlives the cancellation.**  After some steps a goroutine has seen the
end of one direction and waits for the other, `d`.  Whatever is done then, `Shutdown` and the cancellation included,
nothing more is read in the direction `d`; and as long as its pipe does not end by itself, its destination is not closed
and no `Shutdown` returns nil. -/
theorem drain_outlives_cancel (acts : List Action) {i : ℕ} {c : Conn} (hget : (run {} acts).conns[i]? = some c)
    {d : Dir} (hp : c.phase = .draining) (hd : (c.pipe d).ended = false) {later : List Action}
    (hlater : .conn i (.endPipe d) ∉ later) :
    (run (run {} acts) later).shutdown ≠ .returned true ∧
      ∃ c', (run (run {} acts) later).conns[i]? = some c' ∧ c'.Draining d (c.pipe d).got (c.dstOpen d) := by
  have hinv := inv_run acts
  have hmem : c ∈ (run {} acts).conns := List.mem_of_getElem? hget
  have hstart : Draining i d (c.pipe d).got (c.dstOpen d) (run {} acts) := by
    refine ⟨fun hret => ?_, c, hget, (hinv.conns c hmem).draining hp hd⟩
    have hover := (hinv.allOver hret).2.2 c hmem
    rw [hp] at hover
    cases hover
  exact run_keeps (A := fun a => a ≠ .conn i (.endPipe d)) (fun _ _ hs ha => hs.step ha) hstart
    fun _ ha e => hlater (e ▸ ha)

/-- The client closes after the proxy has read an answer for it, which it does not take. -/
theorem drain_outlives_cancel_client :
    (run {} ([.accept, .conn 0 (.dial true), .conn 0 (.read .down [1, 2, 3]), .conn 0 (.endPipe .up),
      .conn 0 (.selectPipe .up)] ++ [.callShutdown false, .acceptFails, .loopSeen, .connsSeen])).shutdown ≠
        .returned true := by
  rw [run_append]
  have hget : (run {} [.accept, .conn 0 (.dial true), .conn 0 (.read .down [1, 2, 3]), .conn 0 (.endPipe .up),
      .conn 0 (.selectPipe .up)]).conns[0]? =
        some ⟨true, false, ⟨[], [], true⟩, ⟨[1, 2, 3], [], false⟩, .draining⟩ := rfl
  exact (drain_outlives_cancel _ hget rfl (d := .down) rfl (by decide)).1

end Signatory.Vault.Nitro.Proxy

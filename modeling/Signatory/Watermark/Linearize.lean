import Signatory.Watermark.Gcp

/-!
# The Firestore watermark refines the conditional put

`Move` says once what an action can do to the state.  The invariant `Inv` is kept by every move; its heart is
that every write on its way is `Safe` (it can only be carried out over a document below its own watermark)
and that a document never falls below a watermark that was written to it.  A second write of one call would
have to be carried out over a document that is at once below its watermark and not below it.

`checkAndSet_linearizable` collects what follows for every run, and `Replays` is the refinement: the writes of
a document, in the order in which they were carried out, are puts that DynamoDB would have accepted.
-/

namespace Signatory.Watermark.GCP

open Request Lib.Machine Lib.Versioned

variable {ι PKH : Type} [DecidableEq ι] {T : Texts PKH}

/-! ## What the steps between two requests decide -/

lemma afterGet_errWatermark {doc : Option (Cell GCPWatermark)} {reply : GetReply} {newWm : GCPWatermark}
    (h : afterGet doc reply newWm = .inl (.error .ErrWatermark)) :
    ∃ d, doc = some d ∧ d.val.supersededBy newWm = false := by
  unfold afterGet at h
  split at h <;> try simp at h
  case h_3 oldWm => exact ⟨oldWm, rfl, h⟩

lemma afterGet_ne_ok {doc : Option (Cell GCPWatermark)} {reply : GetReply} {newWm : GCPWatermark} :
    afterGet doc reply newWm ≠ .inl (.ok ()) := by
  unfold afterGet
  split <;> try simp
  split <;> simp

lemma afterGet_safe {doc : Option (Cell GCPWatermark)} {reply : GetReply} {newWm : GCPWatermark} {g : Guard}
    (h : afterGet doc reply newWm = .inr g) :
    Safe (fun a b : GCPWatermark => a.pos < b.pos) doc g newWm := by
  unfold afterGet at h
  split at h <;> try cases h <;> try trivial
  split at h
  · cases h
  · rename_i d hs
    cases h
    exact safe_of_read (GCPWatermark.supersededBy_iff.1 (by simpa using hs))

lemma afterWriteErr_cases (attempt : ℕ) (g : Guard) (code : Code) :
    afterWriteErr attempt g code = .get (attempt + 1) ∨
      afterWriteErr attempt g code = .returned (.error (.exhausted code)) ∨
      afterWriteErr attempt g code = .returned (.error (.firestore code)) := by
  unfold afterWriteErr
  split
  · split <;> simp
  · simp

/-! ## What an action can do -/

variable (T) in
/-- The moves of the system, under the actions that make them. -/
inductive Move (s : State ι) : Action ι PKH → State ι → Prop
  | stay (a : Action ι PKH) : Move s a s
  | call (i : ι) (c : Call PKH) (ref : DocRef) (newWm : GCPWatermark) : s.calls i = none →
      casInput T c = some (ref, newWm) → Move s (.call i c) (s.setCall i ⟨ref, newWm, .get 0⟩)
  | gotResult (i : ι) (reply : GetReply) (ref : DocRef) (newWm : GCPWatermark) (k : ℕ)
      (r : Except CasErr Unit) : s.calls i = some ⟨ref, newWm, .get k⟩ →
      afterGet (s.docs ref) reply newWm = .inl r →
      Move s (.get i reply) (s.setCall i ⟨ref, newWm, .returned r⟩)
  | gotGuard (i : ι) (reply : GetReply) (ref : DocRef) (newWm : GCPWatermark) (k : ℕ) (g : Guard) :
      s.calls i = some ⟨ref, newWm, .get k⟩ → afterGet (s.docs ref) reply newWm = .inr g →
      Move s (.get i reply)
        { s.setCall i ⟨ref, newWm, .writing k g⟩ with sent := ⟨i, k, ref, newWm, g⟩ :: s.sent }
  | apply (n t : ℕ) (w : Write ι) : w ∈ s.sent → w.guard.Holds (s.docs w.ref) → Later (s.docs w.ref) t →
      Move s (.apply n t) { s with
        docs := Function.update s.docs w.ref (some ⟨w.newWm, t⟩)
        log := s.log ++ [⟨w.caller, w.attempt, w.ref, (s.docs w.ref).map Cell.val, w.newWm⟩] }
  | wrote (i : ι) (ref : DocRef) (newWm : GCPWatermark) (k : ℕ) (g : Guard) (e : Effect ι) :
      s.calls i = some ⟨ref, newWm, .writing k g⟩ → e ∈ s.log → e.caller = i →
      Move s (.writeOk i) (s.setCall i ⟨ref, newWm, .returned (.ok ())⟩)
  | failed (i : ι) (code : Code) (ref : DocRef) (newWm : GCPWatermark) (k : ℕ) (g : Guard) :
      s.calls i = some ⟨ref, newWm, .writing k g⟩ →
      Move s (.writeErr i code) (s.setCall i ⟨ref, newWm, afterWriteErr k g code⟩)

theorem move_step (s : State ι) (a : Action ι PKH) : Move T s a (step T s a) := by
  cases a with
  | call i c =>
    simp only [step]
    split
    · rename_i ref newWm hi hc
      exact .call i c ref newWm hi hc
    · exact .stay _
  | get i reply =>
    simp only [step]
    split
    · rename_i ref newWm k hi
      split
      · rename_i r hr
        exact .gotResult i reply ref newWm k r hi hr
      · rename_i g hg
        exact .gotGuard i reply ref newWm k g hi hg
    · exact .stay _
  | apply n t =>
    simp only [step]
    split
    · rename_i w hw
      split
      · rename_i h
        exact .apply n t w (List.mem_of_getElem? hw) h.1 h.2
      · exact .stay _
    · exact .stay _
  | writeOk i =>
    simp only [step]
    split
    · rename_i ref newWm k g hi
      split
      · rename_i h
        obtain ⟨e, he, h'⟩ := List.any_eq_true.1 h
        exact .wrote i ref newWm k g e hi he (of_decide_eq_true h').1
      · exact .stay _
    · exact .stay _
  | writeErr i code =>
    simp only [step]
    split
    · rename_i ref newWm k g hi
      exact .failed i code ref newWm k g hi
    · exact .stay _

/-- Where a call may have come from: it stood there before, it has just begun, or it went on from a reply. -/
lemma Move.call_cases {s s' : State ι} {a : Action ι PKH} (m : Move T s a s') {i : ι} {cs : CallSt}
    (h : s'.calls i = some cs) :
    s.calls i = some cs ∨
      (∃ c, a = .call i c ∧ casInput T c = some (cs.ref, cs.newWm) ∧ cs.pc = .get 0) ∨
      (∃ k reply, s.calls i = some ⟨cs.ref, cs.newWm, .get k⟩ ∧
        ∀ r, cs.pc = .returned r → afterGet (s.docs cs.ref) reply cs.newWm = .inl r) ∨
      (∃ k g, s.calls i = some ⟨cs.ref, cs.newWm, .writing k g⟩ ∧ cs.pc ≠ .returned (.error .ErrWatermark)) := by
  -- only the call that moved is of interest
  have hmoved : ∀ {j : ι} {x : CallSt} {P : Prop}, (Function.update s.calls j (some x)) i = some cs →
      (i = j → cs = x → P) → s.calls i = some cs ∨ P := by
    intro j x P hi hP
    by_cases hij : i = j
    · subst hij
      rw [Function.update_self, Option.some.injEq] at hi
      exact Or.inr (hP rfl hi.symm)
    · exact Or.inl (by rwa [Function.update_of_ne hij] at hi)
  cases m with
  | stay => exact Or.inl h
  | call j c ref newWm hj hc =>
    refine hmoved h ?_
    rintro rfl rfl
    exact Or.inl ⟨c, rfl, hc, rfl⟩
  | gotResult j reply ref newWm k r hj hr =>
    refine hmoved h ?_
    rintro rfl rfl
    refine Or.inr (Or.inl ⟨k, reply, hj, fun r' e => ?_⟩)
    obtain rfl := Pc.returned.inj e
    exact hr
  | gotGuard j reply ref newWm k g hj hg =>
    refine hmoved h ?_
    rintro rfl rfl
    exact Or.inr (Or.inl ⟨k, reply, hj, by simp⟩)
  | apply n t w hw hg ht => exact Or.inl h
  | wrote j ref newWm k g e hj he hcaller =>
    refine hmoved h ?_
    rintro rfl rfl
    exact Or.inr (Or.inr ⟨k, g, hj, by simp⟩)
  | failed j code ref newWm k g hj =>
    refine hmoved h ?_
    rintro rfl rfl
    refine Or.inr (Or.inr ⟨k, g, hj, ?_⟩)
    rcases afterWriteErr_cases k g code with e | e | e <;> simp [e]

/-- What a move does to a document: nothing, or it carries out a write that was sent. -/
lemma Move.doc_cases {s s' : State ι} {a : Action ι PKH} (m : Move T s a s') :
    (s'.docs = s.docs ∧ s'.log = s.log) ∨
      ∃ w ∈ s.sent, ∃ t, w.guard.Holds (s.docs w.ref) ∧
        s'.docs = Function.update s.docs w.ref (some ⟨w.newWm, t⟩) ∧
        s'.log = s.log ++ [⟨w.caller, w.attempt, w.ref, (s.docs w.ref).map Cell.val, w.newWm⟩] := by
  cases m with
  | apply n t w hw hg ht => exact Or.inr ⟨w, hw, t, hg, rfl, rfl⟩
  | _ => exact Or.inl ⟨rfl, rfl⟩

/-! ## The invariant -/

structure Inv (s : State ι) : Prop where
  sentSafe : ∀ w ∈ s.sent, Safe (fun a b : GCPWatermark => a.pos < b.pos) (s.docs w.ref) w.guard w.newWm
  sentCall : ∀ w ∈ s.sent, ∃ pc, s.calls w.caller = some ⟨w.ref, w.newWm, pc⟩
  logCall : ∀ e ∈ s.log, ∃ pc, s.calls e.caller = some ⟨e.ref, e.new, pc⟩
  /-- A document never falls below a watermark that was written to it. -/
  logHeld : ∀ e ∈ s.log, ∃ d, s.docs e.ref = some d ∧ e.new.pos ≤ d.val.pos
  logBelow : ∀ e ∈ s.log, ∀ old ∈ e.old, old.pos < e.new.pos
  logOnce : (s.log.map Effect.caller).Nodup
  logClimbs : s.log.Pairwise fun a b => a.ref = b.ref → a.new.pos < b.new.pos
  okLogged : ∀ i ref newWm, s.calls i = some ⟨ref, newWm, .returned (.ok ())⟩ → ∃ e ∈ s.log, e.caller = i

omit [DecidableEq ι] in
theorem inv_init (docs : DocRef → Option (Cell GCPWatermark)) :
    Inv (⟨docs, fun _ => none, [], []⟩ : State ι) := by
  refine ⟨?_, ?_, ?_, ?_, ?_, ?_, ?_, ?_⟩ <;> simp

/-- A call that keeps its document and its watermark may go anywhere, and may return nil once a write of its
own has been carried out. -/
lemma Inv.setCall {s : State ι} (h : Inv s) {i : ι} {ref : DocRef} {newWm : GCPWatermark} {pc : Pc}
    (hsame : ∀ cs, s.calls i = some cs → cs.ref = ref ∧ cs.newWm = newWm)
    (hok : pc = .returned (.ok ()) → ∃ e ∈ s.log, e.caller = i) : Inv (s.setCall i ⟨ref, newWm, pc⟩) := by
  -- whatever was known of the document and the watermark of a call stays known
  have hkeep : ∀ j ref' newWm', (∃ pc', s.calls j = some ⟨ref', newWm', pc'⟩) →
      ∃ pc', (s.setCall i ⟨ref, newWm, pc⟩).calls j = some ⟨ref', newWm', pc'⟩ := by
    rintro j ref' newWm' ⟨pc', hj⟩
    by_cases hij : j = i
    · subst hij
      obtain ⟨rfl, rfl⟩ := hsame _ hj
      exact ⟨pc, by simp [State.setCall]⟩
    · exact ⟨pc', by simpa [State.setCall, hij] using hj⟩
  refine ⟨h.sentSafe, fun w hw => hkeep _ _ _ (h.sentCall w hw), fun e he => hkeep _ _ _ (h.logCall e he),
    h.logHeld, h.logBelow, h.logOnce, h.logClimbs, ?_⟩
  intro j ref' newWm' hj
  by_cases hij : j = i
  · subst hij
    simp only [State.setCall, Function.update_self, Option.some.injEq, CallSt.mk.injEq] at hj
    exact hok hj.2.2
  · simp only [State.setCall, Function.update_of_ne hij] at hj
    exact h.okLogged j ref' newWm' hj

omit [DecidableEq ι] in
/-- **No call writes twice.**  A write that can be carried out now is the first of its call. -/
lemma Inv.first_write {s : State ι} (h : Inv s) {w : Write ι} (hw : w ∈ s.sent)
    (hg : w.guard.Holds (s.docs w.ref)) : w.caller ∉ s.log.map Effect.caller := by
  intro hmem
  obtain ⟨e, he, hcaller⟩ := List.mem_map.1 hmem
  obtain ⟨pc, hpc⟩ := h.sentCall w hw
  obtain ⟨pc', hpc'⟩ := h.logCall e he
  rw [hcaller, hpc] at hpc'
  simp only [Option.some.injEq, CallSt.mk.injEq] at hpc'
  obtain ⟨href, hnew, -⟩ := hpc'
  obtain ⟨d, hd, hle⟩ := h.logHeld e he
  have hlt := (h.sentSafe w hw).below_of_holds hg d (by rw [href, hd]; rfl)
  rw [hnew] at hlt
  exact absurd hlt (not_lt.2 hle)

omit [DecidableEq ι] in
lemma Inv.apply {s : State ι} (h : Inv s) {w : Write ι} {t : ℕ} (hw : w ∈ s.sent)
    (hg : w.guard.Holds (s.docs w.ref)) (ht : Later (s.docs w.ref) t) :
    Inv { s with
      docs := Function.update s.docs w.ref (some ⟨w.newWm, t⟩)
      log := s.log ++ [⟨w.caller, w.attempt, w.ref, (s.docs w.ref).map Cell.val, w.newWm⟩] } := by
  have hbelow := (h.sentSafe w hw).below_of_holds hg
  -- the document has climbed over everything that was written to it before
  have hclimb : ∀ e ∈ s.log, e.ref = w.ref → e.new.pos < w.newWm.pos := by
    intro e he href
    obtain ⟨d, hd, hle⟩ := h.logHeld e he
    exact hle.trans_lt (hbelow d (by rw [← href, hd]; rfl))
  refine ⟨?_, h.sentCall, ?_, ?_, ?_, ?_, ?_, ?_⟩
  · intro w' hw'
    by_cases href : w'.ref = w.ref
    · have := (h.sentSafe w' hw').write (u := w.newWm) (t := t) (href ▸ ht)
      simpa [href] using this
    · simpa [href] using h.sentSafe w' hw'
  · intro e he
    rcases List.mem_append.1 he with he | he
    · exact h.logCall e he
    · obtain rfl := List.mem_singleton.1 he
      exact h.sentCall w hw
  · intro e he
    by_cases href : e.ref = w.ref
    · refine ⟨⟨w.newWm, t⟩, by simp [href], ?_⟩
      rcases List.mem_append.1 he with he | he
      · exact (hclimb e he href).le
      · obtain rfl := List.mem_singleton.1 he
        exact le_rfl
    · rcases List.mem_append.1 he with he | he
      · simpa [href] using h.logHeld e he
      · obtain rfl := List.mem_singleton.1 he
        exact absurd rfl href
  · intro e he old hold
    rcases List.mem_append.1 he with he | he
    · exact h.logBelow e he old hold
    · obtain rfl := List.mem_singleton.1 he
      obtain ⟨d, hd, rfl⟩ := Option.map_eq_some_iff.1 (Option.mem_def.1 hold)
      exact hbelow d hd
  · rw [List.map_append, List.map_singleton]
    refine List.nodup_append.2 ⟨h.logOnce, List.nodup_singleton _, ?_⟩
    intro a ha b hb
    obtain rfl := List.mem_singleton.1 hb
    rintro rfl
    exact h.first_write hw hg ha
  · refine List.pairwise_append.2 ⟨h.logClimbs, List.pairwise_singleton _ _, ?_⟩
    intro a ha b hb href
    obtain rfl := List.mem_singleton.1 hb
    exact hclimb a ha href
  · intro i ref newWm hi
    obtain ⟨e, he, hcaller⟩ := h.okLogged i ref newWm hi
    exact ⟨e, List.mem_append_left _ he, hcaller⟩

theorem Inv.move {s s' : State ι} {a : Action ι PKH} (h : Inv s) (m : Move T s a s') : Inv s' := by
  cases m with
  | stay => exact h
  | call i c ref newWm hi hc => exact h.setCall (by simp [hi]) (by simp)
  | gotResult i reply ref newWm k r hi hr =>
    refine h.setCall (by simp [hi]) fun e => ?_
    rw [Pc.returned.injEq] at e
    subst e
    exact absurd hr afterGet_ne_ok
  | gotGuard i reply ref newWm k g hi hg =>
    have h' : Inv (s.setCall i ⟨ref, newWm, .writing k g⟩) := h.setCall (by simp [hi]) (by simp)
    refine ⟨?_, ?_, h'.logCall, h'.logHeld, h'.logBelow, h'.logOnce, h'.logClimbs, h'.okLogged⟩
    · intro w hw
      rcases List.mem_cons.1 hw with rfl | hw
      · exact afterGet_safe hg
      · exact h.sentSafe w hw
    · intro w hw
      rcases List.mem_cons.1 hw with rfl | hw
      · exact ⟨.writing k g, by simp [State.setCall]⟩
      · exact h'.sentCall w hw
  | apply n t w hw hg ht => exact h.apply hw hg ht
  | wrote i ref newWm k g e hi he hcaller => exact h.setCall (by simp [hi]) fun _ => ⟨e, he, hcaller⟩
  | failed i code ref newWm k g hi =>
    refine h.setCall (by simp [hi]) fun e => ?_
    rcases afterWriteErr_cases k g code with h' | h' | h' <;> simp [h'] at e

/-! ## Runs -/

lemma run_nil (docs : DocRef → Option (Cell GCPWatermark)) :
    run T docs ([] : List (Action ι PKH)) = ⟨docs, fun _ => none, [], []⟩ := rfl

lemma run_snoc (docs : DocRef → Option (Cell GCPWatermark)) (acts : List (Action ι PKH)) (a : Action ι PKH) :
    run T docs (acts ++ [a]) = step T (run T docs acts) a := by
  simp [run]

theorem inv_run (docs : DocRef → Option (Cell GCPWatermark)) (acts : List (Action ι PKH)) :
    Inv (run T docs acts) := by
  induction acts using List.reverseRecOn with
  | nil => exact inv_init docs
  | append_singleton acts a ih =>
    rw [run_snoc]
    exact ih.move (move_step _ a)

theorem call_of_run (docs : DocRef → Option (Cell GCPWatermark)) (acts : List (Action ι PKH)) (i : ι)
    (cs : CallSt) (h : (run T docs acts).calls i = some cs) :
    ∃ c, Action.call i c ∈ acts ∧ casInput T c = some (cs.ref, cs.newWm) := by
  induction acts using List.reverseRecOn generalizing cs with
  | nil => cases h
  | append_singleton acts a ih =>
    -- the call was there before, with the same document and watermark, or it has just begun
    have hstep : ∀ cs', (run T docs acts).calls i = some cs' → cs'.ref = cs.ref → cs'.newWm = cs.newWm →
        ∃ c, Action.call i c ∈ acts ++ [a] ∧ casInput T c = some (cs.ref, cs.newWm) := by
      intro cs' hcs' href hnew
      obtain ⟨c, hmem, hc⟩ := ih cs' hcs'
      exact ⟨c, List.mem_append_left _ hmem, by rw [hc, href, hnew]⟩
    rw [run_snoc] at h
    rcases (move_step _ a).call_cases h with h | ⟨c, rfl, hc, -⟩ | ⟨k, reply, h, -⟩ | ⟨k, g, h, -⟩
    · exact hstep _ h rfl rfl
    · exact ⟨c, by simp, hc⟩
    · exact hstep _ h rfl rfl
    · exact hstep _ h rfl rfl

/-- A call that returned `ErrWatermark` has seen, while it was running, a document that it does not
supersede. -/
theorem seen_of_errWatermark (docs : DocRef → Option (Cell GCPWatermark)) (acts : List (Action ι PKH)) (i : ι)
    (ref : DocRef) (newWm : GCPWatermark)
    (h : (run T docs acts).calls i = some ⟨ref, newWm, .returned (.error .ErrWatermark)⟩) :
    ∃ pre post, acts = pre ++ post ∧ (∃ k, (run T docs pre).calls i = some ⟨ref, newWm, .get k⟩) ∧
      ∃ d, (run T docs pre).docs ref = some d ∧ ¬ d.val.pos < newWm.pos := by
  induction acts using List.reverseRecOn with
  | nil => cases h
  | append_singleton acts a ih =>
    rw [run_snoc] at h
    rcases (move_step _ a).call_cases h with h | ⟨c, -, -, hpc⟩ | ⟨k, reply, hi, hr⟩ | ⟨k, g, -, hpc⟩
    · obtain ⟨pre, post, rfl, hseen⟩ := ih h
      exact ⟨pre, post ++ [a], by simp, hseen⟩
    · cases hpc
    · obtain ⟨d, hd, hs⟩ := afterGet_errWatermark (hr _ rfl)
      refine ⟨acts, [a], rfl, ⟨k, hi⟩, d, hd, fun hlt => ?_⟩
      rw [GCPWatermark.supersededBy_iff.2 hlt] at hs
      cases hs
    · exact absurd rfl hpc

/-! ## The refinement -/

/-- The key under which DynamoDB keeps what Firestore keeps in the document `ref`. -/
def DocRef.key (ref : DocRef) : String × String := ("/".intercalate [ref.chain, ref.pkh], ref.kind)

/-- The item that stands for the watermark `w` of the document `ref`. -/
def toAWS (ref : DocRef) (w : GCPWatermark) : AWSWatermark :=
  { idx := ref.key.1, request := ref.key.2, level := w.level, round := w.round, digest := w.digest }

@[simp] lemma toAWS_key (ref : DocRef) (w : GCPWatermark) : (toAWS ref w).key = ref.key := rfl
@[simp] lemma toAWS_pos (ref : DocRef) (w : GCPWatermark) : (toAWS ref w).pos = w.pos := rfl

lemma putItemInput_eq (c : Call PKH) :
    AWS.putItemInput T c = (casInput T c).map fun r => toAWS r.1 r.2 := by
  unfold AWS.putItemInput casInput
  cases c.req.asWithWatermark <;> rfl

/-- The puts that stand for the writes of the document `ref`. -/
def puts (ref : DocRef) (log : List (Effect ι)) : List (AWSWatermark × AWS.Fault) :=
  log.filterMap fun e => if e.ref = ref then some (toAWS ref e.new, .none) else none

omit [DecidableEq ι] in
lemma puts_snoc (ref : DocRef) (log : List (Effect ι)) (e : Effect ι) :
    puts ref (log ++ [e]) = if e.ref = ref then puts ref log ++ [(toAWS ref e.new, .none)] else puts ref log := by
  by_cases h : e.ref = ref <;> simp [puts, h]

/-- DynamoDB, started on what a document held at first and given the writes of the document as puts, accepts
all of them and ends with what the document holds now. -/
def Replays (docs : DocRef → Option (Cell GCPWatermark)) (s : State ι) : Prop :=
  ∀ (ref : DocRef) (t : AWS.Table), t ref.key = (docs ref).map (fun d => toAWS ref d.val) →
    (∀ e ∈ events AWS.putItem t (puts ref s.log), e.2 = .ok ()) ∧
      final AWS.putItem t (puts ref s.log) ref.key = (s.docs ref).map fun d => toAWS ref d.val

lemma Replays.move {docs : DocRef → Option (Cell GCPWatermark)} {s s' : State ι} {a : Action ι PKH}
    (h : Replays docs s) (hinv : Inv s) (m : Move T s a s') : Replays docs s' := by
  intro ref t ht
  obtain ⟨hok, hfin⟩ := h ref t ht
  rcases m.doc_cases with ⟨hdocs, hlog⟩ | ⟨w, hw, t', hg, hdocs, hlog⟩
  · rw [hdocs, hlog]
    exact ⟨hok, hfin⟩
  · rw [hdocs, hlog, puts_snoc]
    by_cases href : w.ref = ref
    · subst href
      -- the document is below the new watermark, so the condition of the put holds
      have hc : AWS.ConditionExpression (final AWS.putItem t (puts w.ref s.log) w.ref.key)
          (toAWS w.ref w.newWm) = true := by
        rw [hfin, AWS.condition_iff]
        intro old hold
        obtain ⟨d, hd, rfl⟩ := Option.map_eq_some_iff.1 (Option.mem_def.1 hold)
        exact (hinv.sentSafe w hw).below_of_holds hg d hd
      rw [if_pos rfl, events_snoc, final_snoc]
      refine ⟨?_, by simp [AWS.putItem, AWS.serve, hc]⟩
      intro e he
      rcases List.mem_append.1 he with he | he
      · exact hok e he
      · obtain rfl := List.mem_singleton.1 he
        simp [AWS.putItem, hc]
    · rw [if_neg href, Function.update_of_ne (Ne.symm href)]
      exact ⟨hok, hfin⟩

theorem replays_run (docs : DocRef → Option (Cell GCPWatermark)) (acts : List (Action ι PKH)) :
    Replays docs (run T docs acts) := by
  induction acts using List.reverseRecOn with
  | nil =>
    intro ref t ht
    exact ⟨by simp [run_nil, puts], by simpa [run_nil, puts] using ht⟩
  | append_singleton acts a ih =>
    rw [run_snoc]
    exact ih.move (inv_run docs acts) (move_step _ a)

lemma Inv.climbs {s s' : State ι} {a : Action ι PKH} (h : Inv s) (m : Move T s a s') (ref : DocRef) :
    s'.docs ref = s.docs ref ∨
      ∃ d, s'.docs ref = some d ∧ ∀ old ∈ s.docs ref, old.val.pos < d.val.pos := by
  rcases m.doc_cases with ⟨hdocs, -⟩ | ⟨w, hw, t, hg, hdocs, -⟩
  · exact Or.inl (by rw [hdocs])
  · by_cases href : w.ref = ref
    · subst href
      exact Or.inr ⟨⟨w.newWm, t⟩, by rw [hdocs]; simp, (h.sentSafe w hw).below_of_holds hg⟩
    · exact Or.inl (by rw [hdocs, Function.update_of_ne (Ne.symm href)])

variable (T) in
/-- What is known of the state `s = run T docs acts`. -/
structure Linearized (docs : DocRef → Option (Cell GCPWatermark)) (acts : List (Action ι PKH))
    (s : State ι) : Prop where
  /-- Each call makes at most one write that takes effect, -/
  once : (s.log.map Effect.caller).Nodup
  /-- and one that returned nil has made one: that of the put which DynamoDB gets for the same call. -/
  wrote : ∀ i ref newWm, s.calls i = some ⟨ref, newWm, .returned (.ok ())⟩ →
    (∃ c, Action.call i c ∈ acts ∧ AWS.putItemInput T c = some (toAWS ref newWm)) ∧
      ∃ e ∈ s.log, e.caller = i ∧ e.ref = ref ∧ e.new = newWm
  /-- When it was carried out, the document met the condition of that put. -/
  condition : ∀ e ∈ s.log, AWS.ConditionExpression (e.old.map (toAWS e.ref)) (toAWS e.ref e.new) = true
  /-- `ErrWatermark` comes from a document that was not below the new watermark while the call was running. -/
  refused : ∀ i ref newWm, s.calls i = some ⟨ref, newWm, .returned (.error .ErrWatermark)⟩ →
    ∃ pre post, acts = pre ++ post ∧ (∃ k, (run T docs pre).calls i = some ⟨ref, newWm, .get k⟩) ∧
      ∃ d, (run T docs pre).docs ref = some d ∧ ¬ d.val.pos < newWm.pos
  replays : Replays docs s
  /-- Accepted positions of one document are pairwise distinct, -/
  distinct : ∀ i j ref v w, i ≠ j → s.calls i = some ⟨ref, v, .returned (.ok ())⟩ →
    s.calls j = some ⟨ref, w, .returned (.ok ())⟩ → v.pos ≠ w.pos
  /-- and what a document holds climbs with every write. -/
  climbs : ∀ a ref, (step T s a).docs ref = s.docs ref ∨
    ∃ d, (step T s a).docs ref = some d ∧ ∀ old ∈ s.docs ref, old.val.pos < d.val.pos

omit [DecidableEq ι] in
lemma Inv.wrote {s : State ι} (h : Inv s) {i : ι} {ref : DocRef} {newWm : GCPWatermark}
    (hi : s.calls i = some ⟨ref, newWm, .returned (.ok ())⟩) :
    ∃ e ∈ s.log, e.caller = i ∧ e.ref = ref ∧ e.new = newWm := by
  obtain ⟨e, he, rfl⟩ := h.okLogged i ref newWm hi
  obtain ⟨pc, hpc⟩ := h.logCall e he
  rw [hi] at hpc
  simp only [Option.some.injEq, CallSt.mk.injEq] at hpc
  exact ⟨e, he, rfl, hpc.1.symm, hpc.2.1.symm⟩

omit [DecidableEq ι] in
lemma Inv.distinct {s : State ι} (h : Inv s) {i j : ι} {ref : DocRef} {v w : GCPWatermark} (hij : i ≠ j)
    (hi : s.calls i = some ⟨ref, v, .returned (.ok ())⟩)
    (hj : s.calls j = some ⟨ref, w, .returned (.ok ())⟩) : v.pos ≠ w.pos := by
  obtain ⟨e, he, rfl, rfl, rfl⟩ := h.wrote hi
  obtain ⟨f, hf, rfl, href, rfl⟩ := h.wrote hj
  have hne : e ≠ f := fun heq => hij (heq ▸ rfl)
  -- to differ is symmetric, so the order in which the two stand in the log does not matter
  have hsymm : Std.Symm fun a b : Effect ι => a.ref = b.ref → a.new.pos ≠ b.new.pos :=
    ⟨fun a b hab e => (hab e.symm).symm⟩
  have hall := (h.logClimbs.imp fun hab e => (hab e).ne).forall
  exact hall he hf hne href.symm

/-- **The Firestore watermark is a linearizable refinement of the DynamoDB conditional put**, for every
interleaving of any number of calls with every fault; and both backends accept a position at most once and
only ever climb. -/
theorem checkAndSet_linearizable (docs : DocRef → Option (Cell GCPWatermark)) (acts : List (Action ι PKH)) :
    Linearized T docs acts (run T docs acts) ∧
      (∀ t k calls, (AWS.acceptedCalls T k (events (AWS.IsSafeToSign T) t calls)).Pairwise
        fun a b => a.pos < b.pos) ∧
      ∀ t call k, (AWS.IsSafeToSign T t call).2 k = t k ∨
        ∃ item, (AWS.IsSafeToSign T t call).2 k = some item ∧ ∀ old ∈ t k, old.pos < item.pos := by
  have hinv := inv_run (T := T) docs acts
  refine ⟨⟨hinv.logOnce, ?_, ?_, seen_of_errWatermark docs acts, replays_run docs acts,
    fun i j ref v w => hinv.distinct, fun a => hinv.climbs (move_step _ a)⟩, ?_, AWS.isSafeToSign_climbs T⟩
  · intro i ref newWm hi
    obtain ⟨c, hmem, hc⟩ := call_of_run docs acts i _ hi
    exact ⟨⟨c, hmem, by rw [putItemInput_eq, hc]; rfl⟩, hinv.wrote hi⟩
  · intro e he
    rw [AWS.condition_iff]
    intro old hold
    obtain ⟨w, hw, rfl⟩ := Option.map_eq_some_iff.1 (Option.mem_def.1 hold)
    exact hinv.logBelow e he w hw
  · intro t k calls
    rw [AWS.acceptedCalls_eq]
    exact AWS.accepted_pairwise t k _

end Signatory.Watermark.GCP

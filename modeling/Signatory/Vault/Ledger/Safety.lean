import Signatory.Vault.Ledger.Worker

/-!
# What the worker does over whole runs

Two defects are told apart by the state before a turn.  A device that cannot be opened again after a failed `Sign`
leaves a nil pointer behind while its timer goes on (`LosesDevice`); and a device that is opened after the tick was
received makes the worker wait for the tick a second time (`Wedges`).  In the runs without such turns, and only in
these, a nil device is never used and every request is answered.
-/

namespace Signatory.Vault.Ledger

open Lib.Command Lib.Machine
open Signer (Bytes Error)

section

variable {Dev KeyID PK Sig : Type}

/-! ## Events of a turn -/

lemma step_halted {w : Worker Dev KeyID PK Sig} {h : Halt} (hw : w.halted = some h) (i : Input Dev KeyID PK Sig) :
    step w i = ([], w) := by
  unfold step
  rw [hw]

lemma step_live {w : Worker Dev KeyID PK Sig} (hw : w.halted = none) (i : Input Dev KeyID PK Sig) :
    (step w i).2 = Worker.after (exec (turn w i) w) := by
  unfold step
  rw [hw]

lemma step_events {w : Worker Dev KeyID PK Sig} (hw : w.halted = none) (i : Input Dev KeyID PK Sig)
    (es : List (Event Dev KeyID PK Sig)) (h : (exec (turn w i) w).2.log = w.log ++ es) : (step w i).1 = es := by
  have hafter : (Worker.after (exec (turn w i) w)).log = (exec (turn w i) w).2.log := by
    rcases exec (turn w i) w with ⟨_ | _, _⟩ <;> rfl
  unfold step
  rw [hw]
  simp only [hafter, h, List.drop_left]

def Event.isReply : Event Dev KeyID PK Sig → Bool
  | .reply _ => true
  | _ => false

def Event.isSign : Event Dev KeyID PK Sig → Bool
  | .sign .. => true
  | _ => false

def Input.isRequest : Input Dev KeyID PK Sig → Bool
  | .fire | .tick _ => false
  | .getKey .. | .sign .. => true

/-- What is asked of the events of a turn: no receive is executed for which there is no tick, a request gets one reply,
and `Sign` is called at most twice, the second time right after the device was closed and opened again. -/
structure Served (request : Bool) (es : List (Event Dev KeyID PK Sig)) : Prop where
  receives : ∀ t, .receive t ∈ es → t.pending = true
  replies : request = true → es.countP Event.isReply = 1
  signs : es.countP Event.isSign ≤ 2
  reopened : ∀ pre d key data mid d' key' data' post,
    es = pre ++ .sign d key data :: (mid ++ .sign d' key' data' :: post) → mid = [.close d, .opened d']

/-- The turn starts the timer again although its tick was received. -/
def Wedges (w : Worker Dev KeyID PK Sig) : Input Dev KeyID PK Sig → Prop
  | .getKey _ opened _ => (∃ t, w.t = some t ∧ t.pending = false) ∧ w.dev = none ∧ ∃ d, opened = .ok d
  | .sign _ _ opened sig => (∃ t, w.t = some t ∧ t.pending = false) ∧
      ((w.dev = none ∧ ∃ d, opened false = .ok d) ∨
        w.dev ≠ none ∧ (∃ e, sig false = .error e) ∧ ∃ d, opened true = .ok d)
  | _ => False

/-! ## Two calls of `Sign` -/

lemma between_unique {α : Type} {p : α → Bool} {pre mid post pre' mid' post' : List α} {x y x' y' : α}
    (hpre : ∀ a ∈ pre, p a = false) (hmid : ∀ a ∈ mid, p a = false) (hpost : ∀ a ∈ post, p a = false)
    (hx : p x = true) (hy : p y = true) (hx' : p x' = true) (hy' : p y' = true)
    (h : pre ++ x :: (mid ++ y :: post) = pre' ++ x' :: (mid' ++ y' :: post')) : x = x' ∧ mid = mid' ∧ y = y' := by
  have hnone {l : List α} (hl : ∀ a ∈ l, p a = false) : l.countP p = 0 :=
    List.countP_eq_zero.2 fun a ha => by rw [hl a ha]; exact Bool.false_ne_true
  have hcount := congrArg (List.countP p) h
  simp only [List.countP_append, List.countP_cons, hnone hpre, hnone hmid, hnone hpost, hx, hy, hx', hy'] at hcount
  have hfirst {l : List α} (hl : l.countP p = 0) {a : α} (ha : p a = true) (rest : List α) :
      (l ++ a :: rest).takeWhile (fun a => !p a) = l ∧ (l ++ a :: rest).dropWhile (fun a => !p a) = a :: rest := by
    have hall : ∀ b ∈ l, (!p b) = true := fun b hb => by simpa using List.countP_eq_zero.1 hl b hb
    constructor
    · rw [List.takeWhile_append_of_pos hall, List.takeWhile_cons_of_neg (by simp [ha]), List.append_nil]
    · rw [List.dropWhile_append_of_pos hall, List.dropWhile_cons_of_neg (by simp [ha])]
  have hcut := congrArg (List.dropWhile fun a => !p a) h
  rw [(hfirst (hnone hpre) hx _).2, (hfirst (by simp at hcount; omega) hx' _).2] at hcut
  obtain ⟨hxx, hrest⟩ := List.cons.inj hcut
  have hmids := congrArg (List.takeWhile fun a => !p a) hrest
  have hys := congrArg (List.dropWhile fun a => !p a) hrest
  have hmid' : mid'.countP p = 0 := by simp at hcount; omega
  rw [(hfirst (hnone hmid) hy _).1, (hfirst hmid' hy' _).1] at hmids
  rw [(hfirst (hnone hmid) hy _).2, (hfirst hmid' hy' _).2] at hys
  exact ⟨hxx, hmids, (List.cons.inj hys).1⟩

lemma not_between {es pre mid post : List (Event Dev KeyID PK Sig)} {d d' : Option Dev} {key key' : KeyID}
    {data data' : Bytes} (hone : es.countP Event.isSign ≤ 1)
    (h : es = pre ++ .sign d key data :: (mid ++ .sign d' key' data' :: post)) : False := by
  rw [h] at hone
  simp only [List.countP_append, List.countP_cons, Event.isSign] at hone
  simp at hone
  omega

lemma served_of_one {request : Bool} {es : List (Event Dev KeyID PK Sig)}
    (hreceives : ∀ t, .receive t ∈ es → t.pending = true) (hreplies : request = true → es.countP Event.isReply = 1)
    (hone : es.countP Event.isSign ≤ 1) : Served request es where
  receives := hreceives
  replies := hreplies
  signs := by omega
  reopened _ _ _ _ _ _ _ _ _ h := (not_between hone h).elim

lemma not_served {request : Bool} {es : List (Event Dev KeyID PK Sig)} {t : Timer} (hmem : .receive t ∈ es)
    (ht : t.pending = false) : ¬ Served request es := by
  intro h
  have := h.receives t hmem
  rw [ht] at this
  cases this

/-! ## Requests -/

lemma getKey_served {w : Worker Dev KeyID PK Sig} (hw : w.halted = none) (key : KeyID) (opened : Except Error Dev)
    (pub : Except Error PK) :
    Served true (step w (.getKey key opened pub)).1 ↔ ¬ Wedges w (.getKey key opened pub) := by
  have hround := getKeyReq_round w key opened pub
  have hes (es : List (Event Dev KeyID PK Sig)) (h : (exec (getKeyReq key opened pub) w).2.log = w.log ++ es) :
      (step w (.getKey key opened pub)).1 = es := step_events hw _ es h
  generalize exec (getKeyReq key opened pub) w = out at hround hes
  cases hround with
  | refused e w₁ h =>
    cases h with
    | failed _ _ hdev =>
      rw [hes [.opened none, .reply (.err e)] (by simp [Worker.logged, hdev, closing])]
      refine iff_of_true (served_of_one (by simp) (by simp [Event.isReply]) (by simp [Event.isSign])) ?_
      rintro ⟨-, -, d, hd⟩
      cases hd
  | wedged _ w₁ h =>
    cases h with
    | wedged _ d t hdev ht hp =>
      rw [hes [.opened (some d), .receive t] (by simp [hdev, closing])]
      exact iff_of_false (not_served (by simp) hp) (not_not.2 ⟨⟨t, ht, hp⟩, hdev rfl, d, rfl⟩)
  | answered w₁ d r h hd =>
    cases h with
    | held d' _ hdev =>
      rw [hes [.getPublicKey (some d) key, .reply r] rfl]
      refine iff_of_true (served_of_one (by simp) (by simp [Event.isReply]) (by simp [Event.isSign])) ?_
      rintro ⟨-, hnone, -⟩
      rw [hdev] at hnone
      cases hnone
    | fresh _ d' hdev hp =>
      rw [hes [.opened (some d'), .getPublicKey (some d) key, .reply r] (by simp [Worker.logged, hdev, closing])]
      refine iff_of_true (served_of_one (by simp) (by simp [Event.isReply]) (by simp [Event.isSign])) ?_
      rintro ⟨⟨t, ht, hexpired⟩, -⟩
      rw [hp t ht] at hexpired
      cases hexpired
  | again _ _ _ _ _ _ h => exact h.elim

lemma served_of_two {pre : List (Event Dev KeyID PK Sig)} {d d' : Dev} {key : KeyID} {data : Bytes}
    {r : Reply KeyID PK Sig} (hpre : pre = [] ∨ pre = [.opened (some d)]) :
    Served true (pre ++
      [.sign (some d) key data, .close (some d), .opened (some d'), .sign (some d') key data, .reply r]) := by
  have hnosign : ∀ e ∈ pre, Event.isSign e = false := by
    obtain rfl | rfl := hpre <;> simp [Event.isSign]
  refine ⟨?_, ?_, ?_, fun pre' d₂ key' data' mid d₃ key'' data'' post h => ?_⟩
  · obtain rfl | rfl := hpre <;> simp
  · obtain rfl | rfl := hpre <;> exact fun _ => rfl
  · obtain rfl | rfl := hpre <;> exact le_rfl
  · have hsplit : pre ++ .sign (some d) key data ::
        ([.close (some d), .opened (some d')] ++ .sign (some d') key data :: [.reply r]) =
        pre' ++ .sign d₂ key' data' :: (mid ++ .sign d₃ key'' data'' :: post) := h
    obtain ⟨hfirst, hmid, hsecond⟩ := between_unique (p := Event.isSign) hnosign
      (by simp [Event.isSign]) (by simp [Event.isSign]) rfl rfl rfl rfl hsplit
    cases hfirst
    cases hsecond
    exact hmid.symm

/-- The second round of a `sign` request, after the first one has logged `pre` and called `Sign` on `d`. -/
lemma retry_served {w : Worker Dev KeyID PK Sig} {pre : List (Event Dev KeyID PK Sig)} {d : Dev} {key : KeyID}
    {data : Bytes} {opened : Except Error Dev} {out : Except Halt Unit × Worker Dev KeyID PK Sig} (hd : w.dev = some d)
    (hpre : pre = [] ∨ pre = [.opened (some d)])
    (hround : LastRound (w.logged [.sign (some d) key data]) (fun dev => .sign dev key data) true opened out) :
    ∃ es, out.2.log = w.log ++ es ∧
      (Served true (pre ++ es) ↔ ¬ ((∃ t, w.t = some t ∧ t.pending = false) ∧ ∃ d, opened = .ok d)) := by
  cases hround with
  | refused e w₁ h =>
    cases h with
    | failed _ _ hdev =>
      refine ⟨[.sign (some d) key data, .close (some d), .opened none, .reply (.err e)],
        by simp [Worker.logged, hd, closing], iff_of_true ?_ ?_⟩
      · obtain rfl | rfl := hpre <;>
          exact served_of_one (by simp) (fun _ => rfl) le_rfl
      · rintro ⟨-, d', hd'⟩
        cases hd'
  | wedged _ w₁ h =>
    cases h with
    | wedged _ d' t hdev ht hp =>
      refine ⟨[.sign (some d) key data, .close (some d), .opened (some d'), .receive t],
        by simp [Worker.logged, hd, closing], iff_of_false (not_served (by simp) hp) (not_not.2 ⟨⟨t, ht, hp⟩, d', rfl⟩)⟩
  | answered w₁ d₁ r h hd₁ =>
    cases h with
    | fresh _ d' hdev hp =>
      obtain rfl : d' = d₁ := Option.some.inj hd₁
      refine ⟨[.sign (some d) key data, .close (some d), .opened (some d'), .sign (some d') key data, .reply r],
        by simp [Worker.logged, hd, closing], iff_of_true (served_of_two hpre) ?_⟩
      · rintro ⟨⟨t, ht, hexpired⟩, -⟩
        have := hp t ht
        rw [hexpired] at this
        cases this
  | again _ _ _ _ _ _ h => exact h.elim

lemma sign_served {w : Worker Dev KeyID PK Sig} (hw : w.halted = none) (key : KeyID) (data : Bytes)
    (opened : Bool → Except Error Dev) (sig : Bool → Except Error Sig) :
    Served true (step w (.sign key data opened sig)).1 ↔ ¬ Wedges w (.sign key data opened sig) := by
  have hround := signReq_rounds w key data opened sig
  have hes (es : List (Event Dev KeyID PK Sig)) (h : (exec (signReq key data opened sig) w).2.log = w.log ++ es) :
      (step w (.sign key data opened sig)).1 = es := step_events hw _ es h
  generalize exec (signReq key data opened sig) w = out at hround hes
  generalize hopened : opened false = answer at hround
  cases hround with
  | refused e w₁ h =>
    cases h with
    | failed _ _ hdev =>
      rw [hes [.opened none, .reply (.err e)] (by simp [Worker.logged, hdev, closing])]
      refine iff_of_true (served_of_one (by simp) (fun _ => rfl) (Nat.zero_le _)) ?_
      rintro ⟨-, ⟨-, d, hd⟩ | ⟨hsome, -⟩⟩
      · rw [hopened] at hd
        cases hd
      · exact hsome (hdev rfl)
  | wedged _ w₁ h =>
    cases h with
    | wedged _ d t hdev ht hp =>
      rw [hes [.opened (some d), .receive t] (by simp [hdev, closing])]
      exact iff_of_false (not_served (by simp) hp) (not_not.2 ⟨⟨t, ht, hp⟩, Or.inl ⟨hdev rfl, d, hopened⟩⟩)
  | answered w₁ d r h hd hok =>
    cases h with
    | held d' _ hdev =>
      rw [hes [.sign (some d) key data, .reply r] rfl]
      refine iff_of_true (served_of_one (by simp) (fun _ => rfl) le_rfl) ?_
      rintro ⟨-, ⟨hnone, -⟩ | ⟨-, herr, -⟩⟩
      · rw [hdev] at hnone
        cases hnone
      · exact hok herr
    | fresh _ d' hdev hp =>
      rw [hes [.opened (some d'), .sign (some d) key data, .reply r] (by simp [Worker.logged, hdev, closing])]
      refine iff_of_true (served_of_one (by simp) (fun _ => rfl) le_rfl) ?_
      rintro ⟨⟨t, ht, hexpired⟩, -⟩
      rw [hp t ht] at hexpired
      cases hexpired
  | again w₁ d _ h hd herr hsecond =>
    cases h with
    | held d' _ hdev =>
      obtain ⟨es, hlog, hiff⟩ := retry_served hd (Or.inl rfl) hsecond
      rw [hes es hlog, ← List.nil_append es, hiff]
      -- the timer is as before the request
      refine not_congr (and_congr_right fun _ => ?_)
      simp [hdev, herr]
    | fresh _ d' hdev hp =>
      obtain rfl : d' = d := Option.some.inj hd
      obtain ⟨es, hlog, hiff⟩ := retry_served rfl (Or.inr rfl) hsecond
      rw [hes ([.opened (some d')] ++ es) (by simp [hlog, hdev, closing]), hiff]
      -- the timer was started when the device was opened
      refine iff_of_true ?_ ?_
      · rintro ⟨⟨t, ht, hexpired⟩, -⟩
        cases ht
        cases hexpired
      · rintro ⟨⟨t, ht, hexpired⟩, -⟩
        rw [hp t ht] at hexpired
        cases hexpired

/-! ## The timer -/

lemma exec_idle (w : Worker Dev KeyID PK Sig) (closed : Except Error Unit) :
    exec (idle closed) w = match w.dev, closed with
      | none, _ => (.error .nilDevice, { w with t := some .received, log := w.log ++ [.close none] })
      | some d, .error _ => (.ok (), { w with t := some .received, log := w.log ++ [.close (some d)] })
      | some d, .ok () =>
        (.ok (), { w with dev := none, t := some .received, tch := false, log := w.log ++ [.close (some d)] }) := by
  obtain ⟨dev, t, tch, log, halted⟩ := w
  rcases dev with _ | d <;> rcases closed with _ | _ <;> rfl

lemma tick_events {w : Worker Dev KeyID PK Sig} (hw : w.halted = none) (closed : Except Error Unit) :
    (step w (.tick closed)).1 = [] ∨ (step w (.tick closed)).1 = [.close w.dev] := by
  by_cases hready : w.tch = true ∧ w.t = some .fired
  · have hturn : turn w (.tick closed) = idle closed := if_pos hready
    refine Or.inr (step_events hw _ _ ?_)
    rw [hturn, exec_idle]
    rcases w.dev with _ | d <;> rcases closed with _ | _ <;> rfl
  · have hturn : turn w (.tick closed) = pure () := if_neg hready
    refine Or.inl (step_events hw _ _ ?_)
    rw [hturn, List.append_nil]
    rfl

/-- The timer is not one of the things that are logged. -/
lemma exec_fire (w : Worker Dev KeyID PK Sig) :
    exec (turn w .fire) w = (.ok (), if w.t = some .armed then { w with t := some .fired } else w) := by
  by_cases harmed : w.t = some .armed
  · have hturn : turn w (.fire : Input Dev KeyID PK Sig) = modify fun w => { w with t := some .fired } := if_pos harmed
    rw [hturn, if_pos harmed]
    rfl
  · have hturn : turn w (.fire : Input Dev KeyID PK Sig) = pure () := if_neg harmed
    rw [hturn, if_neg harmed]
    rfl

lemma fire_events {w : Worker Dev KeyID PK Sig} (hw : w.halted = none) :
    (step w (.fire : Input Dev KeyID PK Sig)).1 = [] := by
  refine step_events hw _ _ ?_
  rw [exec_fire, List.append_nil]
  split <;> rfl

/-! ## Every request is answered -/

/-- A turn serves its request unless it starts the timer after its tick was received. -/
lemma served_iff {w : Worker Dev KeyID PK Sig} (hw : w.halted = none) (i : Input Dev KeyID PK Sig) :
    Served i.isRequest (step w i).1 ↔ ¬ Wedges w i := by
  cases i with
  | fire =>
    rw [fire_events hw]
    exact iff_of_true (served_of_one (by simp) (fun h => by cases h) (Nat.zero_le _)) not_false
  | tick closed =>
    refine iff_of_true ?_ not_false
    obtain h | h := tick_events hw closed
    · rw [h]
      exact served_of_one (by simp) (fun h => by cases h) (Nat.zero_le _)
    · rw [h]
      exact served_of_one (by simp) (fun h => by cases h) (Nat.zero_le _)
  | getKey key opened pub => exact getKey_served hw key opened pub
  | sign key data opened sig => exact sign_served hw key data opened sig

/-- **Every request is answered once, and the worker never waits for a tick that cannot come**, in the runs in which no
device is opened after the tick of its timer was received, and in no others: the receive in `openDev` is executed only
while a tick is undelivered, each request that is taken gets one reply in its turn, and a `sign` request makes at most
two calls of `Sign`, with the device closed and opened between them. -/
theorem requests_served_iff (is : List (Input Dev KeyID PK Sig)) :
    Along step (fun w i => w.halted = none → ¬ Wedges w i) {} is ↔
      Along step (fun w i => w.halted = none → Served i.isRequest (step w i).1) {} is := by
  refine along_congr (I := fun _ => True) (fun w i _ => ?_) (fun _ _ _ _ => trivial) trivial is
  exact forall_congr' fun hw => (served_iff hw i).symm

/-! ## The device is never missing -/

/-- The device pointer that the event calls a method on. -/
def Event.target : Event Dev KeyID PK Sig → Option (Option Dev)
  | .close dev | .getPublicKey dev _ | .sign dev _ _ => some dev
  | _ => none

/-- The pointer is not nil, and `scanner.open` has returned it. -/
def Opened (log : List (Event Dev KeyID PK Sig)) (dev : Option Dev) : Prop :=
  ∃ d, dev = some d ∧ .opened (some d) ∈ log

/-- Methods are only called on devices opened before. -/
def CallsOpened (log : List (Event Dev KeyID PK Sig)) : Prop :=
  ∀ pre e post, log = pre ++ e :: post → ∀ dev, e.target = some dev → Opened pre dev

/-- The case of the timer can be taken, now or when the timer fires. -/
def CanFire (w : Worker Dev KeyID PK Sig) : Prop :=
  w.halted = none ∧ w.tch = true ∧ ∃ t, w.t = some t ∧ t.pending = true

/-- No method was called on a device that was not open, and none will be by the case of the timer. -/
def DeviceSafe (w : Worker Dev KeyID PK Sig) : Prop :=
  CallsOpened w.log ∧ (CanFire w → Opened w.log w.dev)

/-- The first `Sign` of the request fails and the device cannot be opened again, while the timer runs. -/
def LosesDevice (w : Worker Dev KeyID PK Sig) : Input Dev KeyID PK Sig → Prop
  | .sign _ _ opened sig => (∃ e, sig false = .error e) ∧ (∃ e, opened true = .error e) ∧
      (w.dev = none → ∃ d, opened false = .ok d) ∧ ∀ t, w.t = some t → t.pending = true
  | _ => False

lemma Opened.mono {log : List (Event Dev KeyID PK Sig)} {dev : Option Dev} (h : Opened log dev)
    (es : List (Event Dev KeyID PK Sig)) : Opened (log ++ es) dev := by
  obtain ⟨d, rfl, hd⟩ := h
  exact ⟨d, rfl, List.mem_append_left _ hd⟩

lemma CallsOpened.snoc {log : List (Event Dev KeyID PK Sig)} {e : Event Dev KeyID PK Sig} (h : CallsOpened log)
    (he : ∀ dev, e.target = some dev → Opened log dev) : CallsOpened (log ++ [e]) := by
  intro pre e' post hsplit dev hdev
  rcases List.append_eq_append_iff.1 hsplit with ⟨as, rfl, has⟩ | ⟨bs, rfl, hbs⟩
  · rcases as with _ | ⟨a, as⟩
    · obtain ⟨rfl, -⟩ := List.cons.inj has
      rw [List.append_nil]
      exact he dev hdev
    · simp at has
  · rcases bs with _ | ⟨b, bs⟩
    · obtain ⟨rfl, -⟩ := List.cons.inj hbs
      rw [List.append_nil] at he
      exact he dev hdev
    · obtain ⟨rfl, -⟩ := List.cons.inj hbs
      exact h pre e' bs rfl dev hdev

/-- The log is in order and the device is an open one. -/
structure Fit (w : Worker Dev KeyID PK Sig) : Prop where
  calls : CallsOpened w.log
  opened : ∀ d, w.dev = some d → Opened w.log (some d)

lemma Fit.append {w : Worker Dev KeyID PK Sig} (hw : Fit w) (es : List (Event Dev KeyID PK Sig))
    (hes : ∀ e ∈ es, ∀ dev, e.target = some dev → ∃ d, dev = some d ∧ w.dev = some d) :
    CallsOpened (w.log ++ es) := by
  induction es using List.reverseRecOn with
  | nil => simpa using hw.calls
  | append_singleton es e ih =>
    rw [← List.append_assoc]
    refine (ih fun e' he' => hes e' (List.mem_append_left _ he')).snoc fun dev hdev => ?_
    obtain ⟨d, rfl, hd⟩ := hes e (by simp) dev hdev
    exact (hw.opened d hd).mono es

lemma Fit.logged {w : Worker Dev KeyID PK Sig} (hw : Fit w) (es : List (Event Dev KeyID PK Sig))
    (hes : ∀ e ∈ es, ∀ dev, e.target = some dev → ∃ d, dev = some d ∧ w.dev = some d) : Fit (w.logged es) :=
  ⟨hw.append es hes, fun d hd => (hw.opened d hd).mono es⟩

lemma OpensDev.fit {w : Worker Dev KeyID PK Sig} {retry : Bool} {answer : Except Error Dev}
    {out : Except Halt (Option Error) × Worker Dev KeyID PK Sig} (h : OpensDev w retry answer out) (hw : Fit w) :
    Fit out.2 := by
  have hclosing : ∀ e ∈ (closing w.dev : List (Event Dev KeyID PK Sig)), ∀ dev, e.target = some dev →
      ∃ d, dev = some d ∧ w.dev = some d := by
    intro e he dev hdev
    cases hd : w.dev with
    | none => rw [hd] at he; cases he
    | some d =>
      rw [hd] at he
      obtain rfl := List.mem_singleton.1 he
      exact ⟨d, (Option.some.inj hdev).symm, rfl⟩
  -- opening and receiving are no calls of a method
  have happend (es : List (Event Dev KeyID PK Sig)) (hes : ∀ e ∈ es, e.target = none) :
      CallsOpened (w.log ++ (closing w.dev ++ es)) := by
    refine hw.append _ fun e he dev hdev => ?_
    rcases List.mem_append.1 he with he | he
    · exact hclosing e he dev hdev
    · rw [hes e he] at hdev
      cases hdev
  cases h with
  | held => exact hw
  | failed _ e => exact ⟨happend _ (by simp [Event.target]), fun d hd => by cases hd⟩
  | fresh _ d =>
    refine ⟨happend _ (by simp [Event.target]), fun d' hd' => ?_⟩
    obtain rfl : d = d' := Option.some.inj hd'
    exact ⟨d, rfl, by simp⟩
  | wedged _ d t =>
    refine ⟨happend _ (by simp [Event.target]), fun d' hd' => ?_⟩
    obtain rfl : d = d' := Option.some.inj hd'
    exact ⟨d, rfl, by simp⟩

/-- The pointer, the timer and its channel between two turns. -/
inductive Settled : Option Dev → Option Timer → Bool → Prop
  /-- Nothing was opened yet. -/
  | new : Settled none none false
  | running (d : Dev) (t : Timer) : t.pending = true → Settled (some d) (some t) true
  /-- The device could not be closed when the timer fired. -/
  | unclosed (d : Dev) : Settled (some d) (some .received) true
  | closed (tch : Bool) : Settled none (some .received) tch

lemma OpensDev.halted {w : Worker Dev KeyID PK Sig} {retry : Bool} {answer : Except Error Dev}
    {out : Except Halt (Option Error) × Worker Dev KeyID PK Sig} (h : OpensDev w retry answer out) :
    out.2.halted = w.halted := by
  cases h <;> rfl

lemma OpensDev.settled {w w₁ : Worker Dev KeyID PK Sig} {retry : Bool} {answer : Except Error Dev}
    (h : OpensDev w retry answer (.ok none, w₁)) (hw : Settled w.dev w.t w.tch) : Settled w₁.dev w₁.t w₁.tch := by
  cases h with
  | held => exact hw
  | fresh _ d => exact .running d .armed rfl

lemma Settled.of_pending {dev : Option Dev} {t : Timer} {tch : Bool} (h : Settled dev (some t) tch)
    (hp : t.pending = true) : tch = true ∧ ∃ d, dev = some d := by
  cases h with
  | running d _ _ => exact ⟨rfl, d, rfl⟩
  | unclosed => cases hp
  | closed => cases hp

/-- A device that is open is lost when it cannot be opened again, unless its tick was received already. -/
lemma Settled.lost {d : Dev} {t : Option Timer} {tch : Bool} (h : Settled (some d) t tch) :
    (tch = true ∧ ∃ t', t = some t' ∧ t'.pending = true) ∨
      (∃ t', t = some t' ∧ t'.pending = false) ∧ Settled (none : Option Dev) t tch := by
  cases h with
  | running _ t hp => exact Or.inl ⟨rfl, t, rfl, hp⟩
  | unclosed => exact Or.inr ⟨⟨.received, rfl, rfl⟩, .closed true⟩

/-- The invariant of the worker. -/
structure Inv (w : Worker Dev KeyID PK Sig) : Prop where
  fit : Fit w
  settled : w.halted = none → Settled w.dev w.t w.tch

lemma Inv.deviceSafe {w : Worker Dev KeyID PK Sig} (hw : Inv w) : DeviceSafe w := by
  refine ⟨hw.fit.calls, ?_⟩
  rintro ⟨hlive, -, t, ht, hp⟩
  have hs := hw.settled hlive
  rw [ht] at hs
  obtain ⟨-, d, hd⟩ := hs.of_pending hp
  rw [hd]
  exact hw.fit.opened d hd

lemma inv_after_error {h : Halt} {w : Worker Dev KeyID PK Sig} (hw : Fit w) : Inv (Worker.after (.error h, w)) :=
  ⟨⟨hw.calls, hw.opened⟩, fun hlive => by cases hlive⟩

lemma inv_fire {w : Worker Dev KeyID PK Sig} (hw : Inv w) (hlive : w.halted = none) :
    Inv (step w (.fire : Input Dev KeyID PK Sig)).2 := by
  rw [step_live hlive, exec_fire]
  have hs := hw.settled hlive
  by_cases harmed : w.t = some .armed
  · rw [if_pos harmed]
    refine ⟨⟨hw.fit.calls, hw.fit.opened⟩, fun _ => ?_⟩
    rw [harmed] at hs
    obtain ⟨htch, d, hd⟩ := hs.of_pending rfl
    show Settled w.dev (some .fired) w.tch
    rw [htch, hd]
    exact .running d .fired rfl
  · rw [if_neg harmed]
    exact hw

lemma inv_tick {w : Worker Dev KeyID PK Sig} (hw : Inv w) (hlive : w.halted = none) (closed : Except Error Unit) :
    Inv (step w (.tick closed)).2 := by
  rw [step_live hlive]
  have hs := hw.settled hlive
  by_cases hready : w.tch = true ∧ w.t = some .fired
  · have hturn : turn w (.tick closed) = idle closed := if_pos hready
    rw [hready.2] at hs
    obtain ⟨htch, d, hd⟩ := hs.of_pending rfl
    have hcalls : CallsOpened (w.log ++ [.close (some d)]) := by
      refine hw.fit.calls.snoc fun dev hdev => ?_
      obtain rfl : some d = dev := Option.some.inj hdev
      exact hw.fit.opened d hd
    rw [hturn, exec_idle, hd]
    cases closed with
    | error e =>
      refine ⟨⟨hcalls, fun d' hd' => (hw.fit.opened d' (hd.trans hd')).mono _⟩, fun _ => ?_⟩
      show Settled (some d) (some .received) w.tch
      rw [htch]
      exact .unclosed d
    | ok _ => exact ⟨⟨hcalls, fun d' hd' => by cases hd'⟩, fun _ => .closed false⟩
  · have hturn : turn w (.tick closed) = pure () := if_neg hready
    rw [hturn]
    exact hw

/-- A round keeps the invariant unless the device is lost in it, or in the next one. -/
lemma Round.inv {w : Worker Dev KeyID PK Sig} {call : Option Dev → Event Dev KeyID PK Sig} {retry : Bool}
    {opened : Except Error Dev} {goesOn : Prop}
    {again : Worker Dev KeyID PK Sig → Except Halt Unit × Worker Dev KeyID PK Sig → Prop}
    {out : Except Halt Unit × Worker Dev KeyID PK Sig} (h : Round w call retry opened goesOn again out) (hw : Fit w)
    (hs : Settled w.dev w.t w.tch) (hcall : ∀ dev, (call dev).target = some dev)
    (hkept : (retry = false → w.dev = none) → (∃ e, opened = .error e) → Settled (none : Option Dev) w.t w.tch)
    (hagain : ∀ w₁ d, OpensDev w retry opened (.ok none, w₁) → w₁.dev = some d → goesOn →
      ∀ out, again (w₁.logged [call (some d)]) out → Inv (Worker.after out)) :
    Inv (Worker.after out) := by
  cases h with
  | refused e w₁ h =>
    refine ⟨(h.fit hw).logged _ (by simp [Event.target]), fun _ => ?_⟩
    cases h with
    | failed _ _ hdev => exact hkept hdev ⟨e, rfl⟩
  | wedged e w₁ h => exact inv_after_error (h.fit hw)
  | answered w₁ d r h hd =>
    have hreply : (Event.reply r : Event Dev KeyID PK Sig).target = none := rfl
    exact ⟨(h.fit hw).logged _ (by simp [hreply, hcall, hd]), fun _ => h.settled hs⟩
  | again w₁ d _ h hd hgo hout => exact hagain w₁ d h hd hgo _ hout

lemma inv_getKey {w : Worker Dev KeyID PK Sig} (hw : Inv w) (hlive : w.halted = none) (key : KeyID)
    (opened : Except Error Dev) (pub : Except Error PK) : Inv (step w (.getKey key opened pub)).2 := by
  rw [step_live hlive]
  have hs := hw.settled hlive
  refine (getKeyReq_round w key opened pub).inv hw.fit hs (fun _ => rfl) (fun hdev _ => ?_)
    fun _ _ _ _ hfalse => hfalse.elim
  rwa [hdev rfl] at hs

lemma OpensDev.before_retry {w w₁ : Worker Dev KeyID PK Sig} {answer : Except Error Dev}
    (h : OpensDev w false answer (.ok none, w₁)) :
    (w₁ = w ∧ ∃ d, w.dev = some d) ∨
      (w.dev = none ∧ (∃ d, answer = .ok d) ∧ (∀ t, w.t = some t → t.pending = true) ∧ w₁.t = some .armed) := by
  cases h with
  | held d _ hd => exact Or.inl ⟨rfl, d, hd⟩
  | fresh _ d hdev hp => exact Or.inr ⟨hdev rfl, ⟨d, rfl⟩, hp, rfl⟩

/-- A timer that runs in the second round tells that the device is lost if it cannot be opened again. -/
lemma losesDevice_of_pending {w w₁ : Worker Dev KeyID PK Sig} {opened : Bool → Except Error Dev}
    {sig : Bool → Except Error Sig} {t : Timer} (key : KeyID) (data : Bytes)
    (h : OpensDev w false (opened false) (.ok none, w₁)) (herr : ∃ e, sig false = .error e)
    (hopen : ∃ e, opened true = .error e) (ht : w₁.t = some t) (hp : t.pending = true) :
    LosesDevice w (.sign key data opened sig) := by
  refine ⟨herr, hopen, ?_⟩
  obtain ⟨rfl, d, hd⟩ | ⟨hdev, hok, hrun, -⟩ := h.before_retry
  · refine ⟨fun hnone => absurd hnone (by simp [hd]), fun t' ht' => ?_⟩
    obtain rfl : t = t' := Option.some.inj (ht.symm.trans ht')
    exact hp
  · exact ⟨fun _ => hok, hrun⟩

lemma inv_sign {w : Worker Dev KeyID PK Sig} (hw : Inv w) (hlive : w.halted = none) (key : KeyID) (data : Bytes)
    (opened : Bool → Except Error Dev) (sig : Bool → Except Error Sig)
    (hkeeps : ¬ LosesDevice w (.sign key data opened sig)) : Inv (step w (.sign key data opened sig)).2 := by
  rw [step_live hlive]
  have hs := hw.settled hlive
  refine (signReq_rounds w key data opened sig).inv hw.fit hs (fun _ => rfl) (fun hdev _ => ?_) ?_
  · rwa [hdev rfl] at hs
  · intro w₁ d h hd herr out hsecond
    have hs₁ := h.settled hs
    have hfit := (h.fit hw.fit).logged [.sign (some d) key data] (by simp [Event.target, hd])
    refine hsecond.inv hfit hs₁ (fun _ => rfl) (fun _ hopen => ?_) fun _ _ _ _ hfalse => hfalse.elim
    rw [hd] at hs₁
    obtain ⟨-, t, ht, hp⟩ | ⟨-, hs₂⟩ := hs₁.lost
    · exact (hkeeps (losesDevice_of_pending key data h herr hopen ht hp)).elim
    · exact hs₂

/-- Where the device is lost, the case of the timer is left with a nil pointer. -/
lemma not_deviceSafe_of_losesDevice {w : Worker Dev KeyID PK Sig} (hw : Inv w) (hlive : w.halted = none)
    {i : Input Dev KeyID PK Sig} (hloses : LosesDevice w i) : ¬ DeviceSafe (step w i).2 := by
  cases i with
  | fire => exact hloses.elim
  | tick closed => exact hloses.elim
  | getKey key opened pub => exact hloses.elim
  | sign key data opened sig =>
    obtain ⟨⟨e₁, hsig⟩, ⟨e₂, hopen⟩, hfirst, hrun⟩ := hloses
    have hround := signReq_rounds w key data opened sig
    rw [step_live hlive]
    generalize hout : exec (turn w (.sign key data opened sig)) w = out
    generalize hop : opened false = answer at hround hfirst
    rw [hopen, show exec (signReq key data opened sig) w = out from hout] at hround
    cases hround with
    | refused e w₁ h =>
      cases h with
      | failed _ _ hdev =>
        obtain ⟨d, hd⟩ := hfirst (hdev rfl)
        cases hd
    | wedged _ w₁ h =>
      cases h with
      | wedged _ d t _ ht hp => exact absurd (hrun t ht) (by simp [hp])
    | answered _ _ _ _ _ hnot => exact (hnot ⟨e₁, hsig⟩).elim
    | again w₁ d _ h hd _ hsecond =>
      have hlive₁ : w₁.halted = none := h.halted.trans hlive
      have hs₁ := h.settled (hw.settled hlive)
      have hpending : ∃ t, w₁.t = some t ∧ t.pending = true := by
        obtain ⟨rfl, -⟩ | ⟨-, -, -, harmed⟩ := h.before_retry
        · rw [hd] at hs₁
          obtain ⟨-, hp⟩ | ⟨⟨t, ht, hexpired⟩, -⟩ := hs₁.lost
          · exact hp
          · exact absurd (hrun t ht) (by simp [hexpired])
        · exact ⟨.armed, harmed, rfl⟩
      obtain ⟨t, ht, hp⟩ := hpending
      rw [ht] at hs₁
      obtain ⟨htch, -⟩ := hs₁.of_pending hp
      cases hsecond with
      | refused e w₂ h₂ =>
        cases h₂ with
        | failed _ _ _ =>
          intro hsafe
          obtain ⟨d', hd', -⟩ := hsafe.2 ⟨hlive₁, htch, t, ht, hp⟩
          cases hd'
      | wedged _ w₂ h₂ => cases h₂
      | answered w₂ d₂ r h₂ hd₂ => cases h₂
      | again _ _ _ _ _ _ hfalse => exact hfalse.elim

lemma inv_step {w : Worker Dev KeyID PK Sig} (hw : Inv w) (i : Input Dev KeyID PK Sig)
    (hkeeps : w.halted = none → ¬ LosesDevice w i) : Inv (step w i).2 := by
  cases hlive : w.halted with
  | some h =>
    rw [step_halted hlive]
    exact hw
  | none =>
    cases i with
    | fire => exact inv_fire hw hlive
    | tick closed => exact inv_tick hw hlive closed
    | getKey key opened pub => exact inv_getKey hw hlive key opened pub
    | sign key data opened sig => exact inv_sign hw hlive key data opened sig (hkeeps hlive)

lemma inv_new : Inv ({} : Worker Dev KeyID PK Sig) := by
  refine ⟨⟨fun pre e post h => ?_, fun d hd => by cases hd⟩, fun _ => .new⟩
  simp at h

/-- **The worker never uses a missing device**, in the runs in which no device is lost, and in no others: in every state
that is reached, the case of the timer can only be taken with an open device, and methods were only called on open
devices. -/
theorem device_present_iff (is : List (Input Dev KeyID PK Sig)) :
    Along step (fun w i => w.halted = none → ¬ LosesDevice w i) {} is ↔
      ∀ n, DeviceSafe (final step ({} : Worker Dev KeyID PK Sig) (is.take n)) := by
  have hiff (w : Worker Dev KeyID PK Sig) (i : Input Dev KeyID PK Sig) (hw : Inv w) :
      (w.halted = none → ¬ LosesDevice w i) ↔ DeviceSafe (step w i).2 := by
    constructor
    · exact fun hkeeps => (inv_step hw i hkeeps).deviceSafe
    · exact fun hsafe hlive hloses => not_deviceSafe_of_losesDevice hw hlive hloses hsafe
  rw [along_congr hiff (fun w i hw hkeeps => inv_step hw i hkeeps) inv_new is]
  exact along_states_iff inv_new.deviceSafe

end

/-! ### Runs in which it goes wrong -/

section

/-- A device that is there, and one that is not. -/
def present : Except Error ℕ := .ok 1

def absent : Except Error ℕ := .error { text := "no Ledger devices found" }

/-- The device is pulled out: `Sign` fails, it cannot be opened again, and ten seconds later the timer fires. -/
def unplugged : List (Input ℕ Unit Unit Unit) :=
  [.sign () [7] (fun retry => if retry then absent else present) (fun _ => .error { text := "device lost" }), .fire,
    .tick (.ok ())]

/-- After the request the case of the timer is there with a nil pointer, and when the timer fires `Close` is called on
it. -/
theorem nil_device_closed :
    ¬ DeviceSafe (final step {} (unplugged.take 1)) ∧
      (final step {} unplugged).halted = some .nilDevice ∧
      (events step {} unplugged).map Prod.snd =
        [[.opened (some 1), .sign (some 1) () [7], .close (some 1), .opened none,
            .reply (.err { text := "no Ledger devices found" })],
          [], [.close none]] := by
  refine ⟨?_, rfl, rfl⟩
  rintro ⟨-, h⟩
  obtain ⟨d, hd, -⟩ := h ⟨rfl, rfl, .armed, rfl, rfl⟩
  cases hd

/-- A key is asked for, the device is closed when the timer fires, and the key is asked for again. -/
def idledOut : List (Input ℕ Unit Unit Unit) :=
  [.getKey () present (.ok ()), .fire, .tick (.ok ()), .getKey () present (.ok ())]

/-- The second request gets no reply: the worker waits for the tick that it has received already. -/
theorem second_request_unanswered :
    ¬ Along step (fun w i => w.halted = none → Served i.isRequest (step w i).1) {} idledOut ∧
      (final step {} idledOut).halted = some .blocked ∧
      (events step {} idledOut).map Prod.snd =
        [[.opened (some 1), .getPublicKey (some 1) (), .reply (.res ⟨(), ()⟩)], [], [.close (some 1)],
          [.opened (some 1), .receive .received]] := by
  refine ⟨?_, rfl, rfl⟩
  rintro ⟨-, -, -, hlast, -⟩
  exact absurd ((hlast rfl).replies rfl) (by decide)

end

end Signatory.Vault.Ledger

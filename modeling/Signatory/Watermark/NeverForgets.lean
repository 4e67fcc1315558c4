import Signatory.Watermark.DoubleSign
import Signatory.Watermark.File

/-!
# The file watermark never forgets

`Kept P k s`: there is a `watermark_v2`, and what it holds for the triple `k` satisfies `P`, and so does what the
process holds, if one is running.  This survives every input, failed writes and restarts included, if `P` is
widened by the watermark of a call that passes (`Kept.step`); and after a call that returned nil it holds for the
watermark of that call alone (`kept_of_nil`).  The rest is an induction on the run.
-/

namespace Signatory.Watermark

open Request Hashmap Lib.Machine

variable {Enc C : Type} [DecidableEq Enc] {PKH : Type} [ToComparable PKH Enc]

section Step

/-- The input is a call for the triple `k` whose watermark `wm` passes the validation in `s`. -/
def Passes (s : Sys Enc C) (i : Input PKH C) (k : Triple Enc) (wm : Watermark) : Prop :=
  ∃ c o mem m, i = .call c o ∧ s.proc = some mem ∧ c.req.asWithWatermark = some m ∧ tripleOf c.pkh m = k ∧
    NewWatermark m c.digest = wm ∧ mem.admits k wm = true

/-- The event is a call for the triple `k` that returned nil. -/
def NilFor (k : Triple Enc) (e : Input PKH C × Option (Except Err Unit)) : Prop :=
  ∃ c o, e.1 = .call c o ∧ c.triple = some k ∧ e.2 = some (.ok ())

structure Kept (cx : Codec Enc C) (P : Option Watermark → Prop) (k : Triple Enc) (s : Sys Enc C) : Prop where
  v2 : s.disk.v2 ≠ none
  disk : P (s.disk.find cx k)
  mem : ∀ mem, s.proc = some mem → P (mem.lookup k)

variable {cx : Codec Enc C} {P Q : Option Watermark → Prop} {k : Triple Enc} {s : Sys Enc C}

lemma Kept.imp (h : Kept cx P k s) (hPQ : ∀ held, P held → Q held) : Kept cx Q k s :=
  ⟨h.v2, hPQ _ h.disk, fun mem hmem => hPQ _ (h.mem mem hmem)⟩

lemma Kept.start (hcx : cx.Lawful) (h : Kept cx P k s) (env : StartEnv C) :
    Kept cx P k (s.step cx (.start env : Input PKH C)).2 := by
  obtain ⟨hdisk, hmem⟩ := newFile_of_v2 PKH env hcx h.v2
  simp only [Sys.step]
  generalize NewFileWatermark PKH cx env s.disk = r at hdisk hmem
  obtain ⟨result, disk'⟩ := r
  obtain rfl : disk' = s.disk := hdisk
  match result with
  | none => exact ⟨h.v2, h.disk, by simp⟩
  | some (.error e) => exact ⟨h.v2, h.disk, by simp⟩
  | some (.ok mem) =>
    refine ⟨h.v2, h.disk, ?_⟩
    rintro mem' ⟨⟩
    rw [hmem mem rfl k]
    exact h.disk

lemma kept_of_call {disk' : Disk C} {mem' : InMemory Enc} {reply : Option (Except Err Unit)}
    (hv2 : disk'.v2 ≠ none) (hdisk : P (disk'.find cx k)) (hmem : P (mem'.lookup k)) :
    Kept cx P k ⟨disk', survivor reply mem'⟩ := by
  refine ⟨hv2, hdisk, fun mem h => ?_⟩
  obtain ⟨r, -, rfl⟩ := Option.map_eq_some_iff.1 h
  exact hmem

/-- What a call may add: its own watermark, if it passes. -/
def OrPasses (P : Option Watermark → Prop) (s : Sys Enc C) (i : Input PKH C) (k : Triple Enc)
    (held : Option Watermark) : Prop :=
  P held ∨ ∃ wm, held = some wm ∧ Passes s i k wm

lemma Kept.call (hcx : cx.Lawful) (h : Kept cx P k s) (c : Call PKH) (o : Outcome C) :
    Kept cx (OrPasses P s (.call c o) k) k (s.step cx (.call c o)).2 := by
  have hsame : Kept cx (OrPasses P s (.call c o) k) k s := h.imp fun _ => Or.inl
  cases hproc : s.proc with
  | none => simpa [Sys.step, hproc] using hsame
  | some mem =>
    simp only [Sys.step, hproc]
    cases hreq : c.req.asWithWatermark with
    | none =>
      simp only [File.IsSafeToSign, hreq]
      exact kept_of_call hsame.v2 hsame.disk (hsame.mem mem hproc)
    | some m =>
      rcases call_cases mem s.disk o hcx hreq with
        ⟨-, mem', he, hmem⟩ | ⟨hadm, mem', disk', he, hv2, hmem, hdisk⟩
      · rw [he]
        exact kept_of_call hsame.v2 hsame.disk (by rw [hmem]; exact hsame.mem mem hproc)
      · -- memory holds the new watermark or the old one, and the disk follows memory or stays behind
        have hmem' : OrPasses P s (.call c o) k (mem'.lookup k) := by
          rw [hmem]
          split
          case isTrue hk =>
            subst hk
            exact Or.inr ⟨_, rfl, c, o, mem, m, rfl, hproc, hreq, rfl, rfl, hadm⟩
          case isFalse => exact hsame.mem mem hproc
        rw [he]
        refine kept_of_call (hv2 (Or.inl h.v2)) ?_ hmem'
        rw [hdisk]
        split
        · exact hmem'
        · exact hsame.disk

/-- **One input.**  What the system holds for a triple only changes to the watermark of a call that passes. -/
theorem Kept.step (hcx : cx.Lawful) (h : Kept cx P k s) (i : Input PKH C) :
    Kept cx (OrPasses P s i k) k (s.step cx i).2 := by
  cases i with
  | start env => exact (h.start hcx env).imp fun _ => Or.inl
  | call c o => exact h.call hcx c o
  | kill => exact ⟨h.v2, Or.inl h.disk, by simp [Sys.step]⟩

lemma renames_of_reply {o : Outcome C} (h : o.reply = some (.ok ())) : o.renames = true := by
  cases o <;> simp_all [Outcome.reply, Outcome.renames, Outcome.stage]

/-- **A call that returned nil** has passed, and its watermark is all that the system holds for its triple. -/
theorem kept_of_nil (hcx : cx.Lawful) {i : Input PKH C} (h : NilFor k (i, (s.step cx i).1)) :
    ∃ wm, Passes s i k wm ∧ Kept cx (· = some wm) k (s.step cx i).2 := by
  obtain ⟨c, o, rfl, htriple, hreply⟩ := h
  obtain ⟨m, hreq, rfl⟩ := Option.map_eq_some_iff.1 htriple
  cases hproc : s.proc with
  | none => simp [Sys.step, hproc] at hreply
  | some mem =>
    simp only [Sys.step, hproc] at hreply ⊢
    rcases call_cases mem s.disk o hcx hreq with
      ⟨-, mem', he, -⟩ | ⟨hadm, mem', disk', he, hv2, hmem, hdisk⟩
    · simp [he] at hreply
    · rw [he] at hreply ⊢
      have hlookup : mem'.lookup (tripleOf c.pkh m) = some (NewWatermark m c.digest) := by
        rw [hmem, if_pos rfl]
      refine ⟨NewWatermark m c.digest, ⟨c, o, mem, m, rfl, hproc, hreq, rfl, rfl, hadm⟩, ?_⟩
      refine kept_of_call (hv2 (Or.inr (renames_of_reply hreply))) ?_ hlookup
      rw [hdisk, if_pos ⟨renames_of_reply hreply, rfl⟩, hlookup]

/-- The reply to a call: that of the write, if the call passes. -/
lemma step_call_answer (hcx : cx.Lawful) {s : Sys Enc C} {mem : InMemory Enc} (hproc : s.proc = some mem)
    {c : Call PKH} {m : WithWatermark} (hreq : c.req.asWithWatermark = some m) (o : Outcome C) :
    (s.step cx (.call c o)).1 =
      if mem.admits (tripleOf c.pkh m) (NewWatermark m c.digest) then o.reply
      else some (.error .ErrWatermark) := by
  simp only [Sys.step, hproc]
  rcases call_cases mem s.disk o hcx hreq with ⟨hno, mem', he, -⟩ | ⟨hyes, mem', disk', he, -⟩
  · rw [he, hno]
    rfl
  · rw [he, hyes]
    rfl

end Step

/-! ## Runs -/

section Run

variable (cx : Codec Enc C)

/-- The watermark `wm` is that of a call for `k` in the run which passed, and no call for `k` has returned nil
since. -/
def Recent (s₀ : Sys Enc C) (is : List (Input PKH C)) (k : Triple Enc) (wm : Watermark) : Prop :=
  ∃ pre i post, is = pre ++ i :: post ∧ Passes (final (Sys.step cx) s₀ pre) i k wm ∧
    ∀ e ∈ events (Sys.step cx) (final (Sys.step cx) s₀ (pre ++ [i])) post, ¬ NilFor k e

variable {cx} {s₀ : Sys Enc C} {is : List (Input PKH C)} {i : Input PKH C} {k : Triple Enc} {wm : Watermark}

lemma Recent.of_passes (h : Passes (final (Sys.step cx) s₀ is) i k wm) : Recent cx s₀ (is ++ [i]) k wm :=
  ⟨is, i, [], rfl, h, by simp⟩

lemma Recent.snoc (h : Recent cx s₀ is k wm)
    (hnil : ¬ NilFor k (i, (Sys.step cx (final (Sys.step cx) s₀ is) i).1)) :
    Recent cx s₀ (is ++ [i]) k wm := by
  obtain ⟨pre, j, post, rfl, hpass, hpost⟩ := h
  refine ⟨pre, j, post ++ [i], by simp, hpass, ?_⟩
  have hfinal : final (Sys.step cx) (final (Sys.step cx) s₀ (pre ++ [j])) post =
      final (Sys.step cx) s₀ (pre ++ j :: post) := by
    rw [← final_append, List.append_assoc]; rfl
  intro e he
  rw [events_snoc, hfinal] at he
  rcases List.mem_append.1 he with he | he
  · exact hpost e he
  · obtain rfl := List.mem_singleton.1 he
    exact hnil

/-- Once a call for a triple has returned nil, all that is held for the triple is recent. -/
theorem kept_recent (hcx : cx.Lawful) (s₀ : Sys Enc C) (is : List (Input PKH C))
    (h : ∃ e ∈ events (Sys.step cx) s₀ is, NilFor k e) :
    Kept cx (fun held => ∃ wm, held = some wm ∧ Recent cx s₀ is k wm) k (final (Sys.step cx) s₀ is) := by
  induction is using List.reverseRecOn with
  | nil => simp at h
  | append_singleton is i ih =>
    rw [final_snoc]
    by_cases hlast : NilFor k (i, (Sys.step cx (final (Sys.step cx) s₀ is) i).1)
    · obtain ⟨wm, hpass, hkept⟩ := kept_of_nil hcx hlast
      exact hkept.imp fun held e => ⟨wm, e, Recent.of_passes hpass⟩
    · -- the call that returned nil lies further back
      have hback : ∃ e ∈ events (Sys.step cx) s₀ is, NilFor k e := by
        obtain ⟨e, he, hnil⟩ := h
        rw [events_snoc] at he
        rcases List.mem_append.1 he with he | he
        · exact ⟨e, he, hnil⟩
        · obtain rfl := List.mem_singleton.1 he
          exact absurd hnil hlast
      refine ((ih hback).step hcx i).imp fun held h' => ?_
      rcases h' with ⟨wm, e, hrec⟩ | ⟨wm, e, hpass⟩
      · exact ⟨wm, e, hrec.snoc hlast⟩
      · exact ⟨wm, e, Recent.of_passes hpass⟩

/-- **The file watermark never forgets an accepted request.**  Over any run from any disk: once a call for a
triple has returned nil, the next call for the triple is validated against the watermark of a call that
passed, and no call for the triple has returned nil since that one. -/
theorem isSafeToSign_never_forgets (hcx : cx.Lawful) (disk : Disk C) (is : List (Input PKH C)) (c : Call PKH)
    (o : Outcome C) {m : WithWatermark} {mem : InMemory Enc} (hreq : c.req.asWithWatermark = some m)
    (hnil : ∃ e ∈ events (Sys.step cx) ⟨disk, none⟩ is, NilFor (tripleOf c.pkh m) e)
    (hproc : (final (Sys.step cx) ⟨disk, none⟩ is).proc = some mem) :
    ∃ wm, Recent cx ⟨disk, none⟩ is (tripleOf c.pkh m) wm ∧ mem.lookup (tripleOf c.pkh m) = some wm ∧
      (Sys.step cx (final (Sys.step cx) ⟨disk, none⟩ is) (.call c o)).1 =
        if (NewWatermark m c.digest).Validate wm then o.reply else some (.error .ErrWatermark) := by
  obtain ⟨wm, hlookup, hrecent⟩ := (kept_recent hcx ⟨disk, none⟩ is hnil).mem mem hproc
  refine ⟨wm, hrecent, hlookup, ?_⟩
  have hadm : mem.admits (tripleOf c.pkh m) (NewWatermark m c.digest) =
      (NewWatermark m c.digest).Validate wm := by
    unfold InMemory.admits
    rw [hlookup]
  rw [step_call_answer hcx hproc hreq, hadm]

/-- A start without faults. -/
def smoothStart : StartEnv C where
  load := ⟨false, fun _ => false⟩
  v1 := ⟨false, fun _ => false⟩
  v0 := ⟨false, fun _ => false⟩
  stat0 := false
  stat1 := false
  order := []
  outcome := fun _ => .ok

end Run

/-- Level 2 passed but its write failed, and the process was restarted: the next call for level 2 is validated
against the level 1 that is on disk. -/
theorem isSafeToSign_never_forgets_restart :
    let is : List (Input EncodedPublicKeyHash (Content EncodedPublicKeyHash)) :=
      [.start smoothStart, .call (blockCall 1 1) .ok, .call (blockCall 2 2) (.fails .mkdir), .kill,
        .start smoothStart]
    Recent (Codec.unary EncodedPublicKeyHash) ⟨⟨none, none, none⟩, none⟩ is ⟨0, 0, "block"⟩ ⟨1, 0, some 1⟩ := by
  intro is
  obtain ⟨wm, hrecent, hlookup, -⟩ :=
    isSafeToSign_never_forgets (Codec.unary_lawful EncodedPublicKeyHash) ⟨none, none, none⟩ is
      (blockCall 2 2) .ok (m := ⟨"block", 0, 2, 0⟩) rfl
      ⟨(.call (blockCall 1 1) .ok, some (.ok ())), List.mem_cons_of_mem _ List.mem_cons_self, _, _, rfl, rfl, rfl⟩
      rfl
  obtain rfl : ⟨1, 0, some 1⟩ = wm := Option.some.inj hlookup
  exact hrecent

end Signatory.Watermark

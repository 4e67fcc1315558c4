import Signatory.Signer.Run
import Signatory.Watermark.Aws
import Signatory.Watermark.DoubleSign

/-!
# A key signs once

What the watermarks are for: a key does not sign two messages for one chain, kind, level and round.  A signatory keeps
this as far as its watermark backend does (`signsOnce_of_votesOnce`).

* `signsOnce_inMemory` — with the store in memory, in runs without negative levels and rounds;
* `signsOnce_dynamoDB` — with the table in DynamoDB, in every run, whatever requests and replies are lost.
-/

namespace Signatory.Signer

open Hashmap Lib.Command Lib.Machine Watermark

variable {PKH PK Key Enc ω Sig : Type} {g : Gotez PKH PK} [KeyReference Key PK] [DecidableEq Enc]
  [ToComparable PKH Enc]

/-- Two messages that a key has signed for one chain, kind, level and round have the same digest. -/
def SignsOnce (g : Gotez PKH PK) (log : List (Event PKH Key)) : Prop :=
  ∀ key key' message message' opts opts' msg msg' m m',
    .sign key message opts ∈ log → .sign key' message' opts' ∈ log → g.hash (publicKey key) = g.hash (publicKey key') →
    Decodes g opts message msg → Decodes g opts' message' msg' →
    msg.asWithWatermark = some m → msg'.asWithWatermark = some m' →
    m.kind = m'.kind → m.chainID = m'.chainID → m.level = m'.level → m.round = m'.round →
    g.digest message = g.digest message'

lemma Guarded.asked {log : List (Event PKH Key)} (h : Guarded g log) {key : Key} {message : Bytes}
    {opts : SignOptions} {msg : Request.SignRequest} (hsign : .sign key message opts ∈ log)
    (hmsg : Decodes g opts message msg) :
    (⟨g.hash (publicKey key), msg, g.digest message⟩, .ok ()) ∈ log.filterMap Event.asked := by
  obtain ⟨pre, post, rfl⟩ := List.append_of_mem hsign
  obtain ⟨pre', ⟨pkh, req, digest⟩, rfl, ⟨rfl, rfl, hdecoded⟩⟩ := h pre key message opts post rfl
  obtain rfl := hdecoded.unique hmsg
  exact List.mem_filterMap.2 ⟨.isSafeToSign _ (.ok ()), by simp, rfl⟩

/-- Messages that were admitted before they were signed are signed once if they are admitted once. -/
lemma signsOnce_of_asked {log : List (Event PKH Key)}
    (hasked : ∀ key message opts msg, .sign key message opts ∈ log → Decodes g opts message msg →
      (⟨g.hash (publicKey key), msg, g.digest message⟩, .ok ()) ∈ log.filterMap Event.asked)
    (hvotes : VotesOnce (· = ·) (log.filterMap Event.asked)) : SignsOnce g log := by
  intro key key' message message' opts opts' msg msg' m m' hsign hsign' hkey hmsg hmsg' hm hm' hkind hchain hlevel
    hround
  exact (hvotes _ _ m m' (hasked _ _ _ _ hsign hmsg) (hasked _ _ _ _ hsign' hmsg') hm hm' hkind hchain hkey hlevel
    hround).2

/-- **A signatory signs once as far as its watermark backend admits once.** -/
theorem signsOnce_of_votesOnce {log : List (Event PKH Key)} (hguarded : Guarded g log)
    (hvotes : VotesOnce (· = ·) (log.filterMap Event.asked)) : SignsOnce g log :=
  signsOnce_of_asked (fun _ _ _ _ hsign hmsg => hguarded.asked hsign hmsg) hvotes

lemma VotesOnce.mapError {ε δ : Type} {K : String → String → Prop} {f : ε → δ}
    {evs : List (Call PKH × Except ε Unit)} (h : VotesOnce K evs) :
    VotesOnce K (evs.map fun e => (e.1, e.2.mapError f)) := by
  have hmem : ∀ {c : Call PKH}, (c, .ok ()) ∈ evs.map (fun e => (e.1, e.2.mapError f)) → (c, .ok ()) ∈ evs := by
    intro c hc
    obtain ⟨⟨c', answer⟩, he, hpair⟩ := List.mem_map.1 hc
    cases answer with
    | ok _ => cases hpair; exact he
    | error _ => cases hpair
  intro c c' m m' hc hc'
  exact h c c' m m' (hmem hc) (hmem hc')

/-! ## The store in memory -/

omit [KeyReference Key PK] in
lemma mem_log_of_asked {log : List (Event PKH Key)} {call : Call PKH} {answer : Except Error Unit}
    (h : (call, answer) ∈ log.filterMap Event.asked) : .isSafeToSign call answer ∈ log := by
  obtain ⟨e, he, hasked⟩ := List.mem_filterMap.1 h
  cases e with
  | isSafeToSign call' answer' => cases hasked; exact he
  | sign _ _ _ => cases hasked
  | provePossession _ => cases hasked

variable (codec : HookCodec PKH PK Sig)

/-- With the store in memory, a key signs once in every run in which no request has a negative level or round and
digests determine requests. -/
theorem signsOnce_inMemory (hmap : Function.Injective (toComparable : PKH → Enc))
    {cfg : Config PKH PK Enc (InMemory Enc)} (hcfg : cfg.watermark = inMemory) (ops : List (Op PKH PK Key Sig))
    {w : World g Key Enc (InMemory Enc)} (hw : w = final (step cfg codec) (New ⟨none⟩) ops)
    (hnonneg : ∀ call answer, .isSafeToSign call answer ∈ w.log → call.Nonneg)
    (hdigest : DigestDetermines ((w.log.filterMap Event.asked).map Prod.fst)) : SignsOnce g w.log := by
  refine signsOnce_of_votesOnce (hw ▸ run_guarded cfg codec hmap ⟨none⟩ ops) ?_
  -- the calls in the log are a run of the store
  obtain ⟨calls, hcalls, -⟩ : Consistent cfg ⟨none⟩ w := hw ▸ run_consistent codec _ ops
  have hrun : w.log.filterMap Event.asked =
      (events InMemory.IsSafeToSign ⟨none⟩ calls).map fun e => (e.1, e.2.mapError fun _ => ErrWatermark) := by
    rw [hcfg] at hcalls
    exact hcalls.trans (events_map _ _ _ _)
  have hfst : (w.log.filterMap Event.asked).map Prod.fst = calls := by
    rw [hcalls]
    exact map_fst_events _ _ calls
  rw [hrun]
  refine VotesOnce.mapError (votesOnce_of_nonneg (fun c hc => ?_) (hfst ▸ hdigest))
  rw [← hfst] at hc
  obtain ⟨⟨call, answer⟩, hmem, rfl⟩ := List.mem_map.1 hc
  exact hnonneg call answer (mem_log_of_asked hmem)

/-! ## The table in DynamoDB -/

section DynamoDB

variable (T : Texts PKH)

/-- `watermark.AWS` as the backend, over the table and what is yet to go wrong. -/
def dynamoDB (s : AWS.Table × List AWS.Fault) (call : Call PKH) :
    Except Error Unit × (AWS.Table × List AWS.Fault) :=
  let r := AWS.IsSafeToSign T s.1 (call, s.2.headD .none)
  (r.1.mapError fun _ => ErrWatermark, (r.2, s.2.tail))

lemma events_dynamoDB (s : AWS.Table × List AWS.Fault) (calls : List (Call PKH)) :
    ∃ puts, events (dynamoDB T) s calls = ((events (AWS.IsSafeToSign T) s.1 puts).map fun e => (e.1.1, e.2)).map
      fun e => (e.1, e.2.mapError fun _ => ErrWatermark) := by
  induction calls generalizing s with
  | nil => exact ⟨[], rfl⟩
  | cons call calls ih =>
    obtain ⟨puts, hputs⟩ := ih (dynamoDB T s call).2
    refine ⟨(call, s.2.headD .none) :: puts, ?_⟩
    rw [events_cons, hputs]
    rfl

/-- The table admits a position once: two calls that it admits at one position are one and the same. -/
lemma votesOnce_dynamoDB (t : AWS.Table) (puts : List (Call PKH × AWS.Fault)) :
    VotesOnce (· = ·) ((events (AWS.IsSafeToSign T) t puts).map fun e => (e.1.1, e.2)) := by
  intro c c' m m' hc hc' hm hm' hkind hchain hpkh hlevel hround
  obtain ⟨⟨⟨c₁, fault⟩, answer⟩, he, hpair⟩ := List.mem_map.1 hc
  obtain ⟨⟨⟨c₂, fault'⟩, answer'⟩, he', hpair'⟩ := List.mem_map.1 hc'
  obtain ⟨rfl, rfl⟩ : c₁ = c ∧ answer = .ok () := Prod.mk.inj hpair
  obtain ⟨rfl, rfl⟩ : c₂ = c' ∧ answer' = .ok () := Prod.mk.inj hpair'
  have hitem : ∀ {c : Call PKH} {m}, c.req.asWithWatermark = some m → AWS.putItemInput T c =
      some ⟨"/".intercalate [T.chain m.chainID, T.pkh c.pkh], m.kind, m.level, m.round, some c.digest⟩ := by
    intro c m hm
    simp [AWS.putItemInput, hm, Request.NewWatermark, Request.SignRequest.kind_of_asWithWatermark hm]
  have hsame := AWS.accepted_once T he he' rfl rfl (hitem hm) (hitem hm')
    (by simp [AWSWatermark.key, hkind, hchain, hpkh]) (by simp [AWSWatermark.pos, hlevel, hround])
  cases hsame
  exact ⟨rfl, rfl⟩

lemma votesOnce_events_dynamoDB (s : AWS.Table × List AWS.Fault) (calls : List (Call PKH)) :
    VotesOnce (· = ·) (events (dynamoDB T) s calls) := by
  obtain ⟨puts, hputs⟩ := events_dynamoDB T s calls
  rw [hputs]
  exact VotesOnce.mapError (votesOnce_dynamoDB T s.1 puts)

theorem signsOnce_dynamoDB (hmap : Function.Injective (toComparable : PKH → Enc))
    {cfg : Config PKH PK Enc (AWS.Table × List AWS.Fault)} (hcfg : cfg.watermark = dynamoDB T)
    (s : AWS.Table × List AWS.Fault) (ops : List (Op PKH PK Key Sig)) :
    SignsOnce g (final (step cfg codec) (New s : World g Key Enc _) ops).log := by
  refine signsOnce_of_votesOnce (run_guarded cfg codec hmap s ops) ?_
  obtain ⟨calls, hcalls, -⟩ : Consistent cfg s (final (step cfg codec) (New s : World g Key Enc _) ops) :=
    run_consistent codec s ops
  rw [hcalls, hcfg]
  exact votesOnce_events_dynamoDB T s calls

end DynamoDB

end Signatory.Signer

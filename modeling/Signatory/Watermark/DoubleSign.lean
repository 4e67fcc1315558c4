import Signatory.Watermark.Mem

/-!
# Double signing through the store in memory

For one triple the accepted requests, oldest first, should climb: every one stands at a later position
than the ones before it, or at the same position with the same digest (`Climbs`).  `Climbs` is transitive,
so it is enough to compare each accepted request with the one accepted before it, which is what the
store remembers (`lookup_eq_last`).

`Validate` makes this comparison by a wrapping difference, so the chain can break, and it breaks exactly at
a step whose difference wraps downwards (`noDoubleSign_iff`).  Levels and rounds that are not negative
never get there.
-/

namespace Signatory.Watermark

open Request Lib.Machine

variable {PKH Enc : Type} [DecidableEq Enc] [ToComparable PKH Enc]

/-! ## The accepted requests of a triple -/

/-- A watermarked request with its digest. -/
abbrev Signed := WithWatermark × Digest

/-- The request of an accepted call for the triple `k`. -/
def acceptedFor (k : Triple Enc) (e : Call PKH × Except Err Unit) : Option Signed :=
  match e.2, e.1.req.asWithWatermark with
  | .ok (), some m => if tripleOf e.1.pkh m = k then some (m, e.1.digest) else none
  | _, _ => none

/-- The requests accepted for the triple `k`, oldest first. -/
def accepted (k : Triple Enc) (evs : List (Call PKH × Except Err Unit)) : List Signed :=
  evs.filterMap (acceptedFor k)

/-- `b`, accepted after `a`, does not go back: it is not below `a`, and at the position of `a` it is the
request `a` itself. -/
def NotDouble (a b : Signed) : Prop := (a.1.pos = b.1.pos → a.2 = b.2) ∧ ¬ b.1.pos < a.1.pos

variable (Enc) in
/-- **No double signing**: of two requests accepted for one triple, the later one is not below the
earlier one, and at the same position it has the same digest. -/
def NoDoubleSign (evs : List (Call PKH × Except Err Unit)) : Prop :=
  ∀ k : Triple Enc, (accepted k evs).Pairwise NotDouble

/-- The digest determines the message, among the calls of a run. -/
def DigestDetermines (calls : List (Call PKH)) : Prop :=
  ∀ c ∈ calls, ∀ c' ∈ calls, c.digest = c'.digest → c.req = c'.req

/-- The call `c` in the store `w` does not make `Validate` wrap downwards. -/
def NoUnderflow (w : InMemory Enc) (c : Call PKH) : Prop :=
  ∀ m, c.req.asWithWatermark = some m → ∀ stored, w.lookup (tripleOf c.pkh m) = some stored →
    ¬ (NewWatermark m c.digest).Underflows stored

section Accepted

variable {k : Triple Enc} {w : InMemory Enc} {c : Call PKH} {m : WithWatermark}

lemma accepted_append (evs evs' : List (Call PKH × Except Err Unit)) :
    accepted k (evs ++ evs') = accepted k evs ++ accepted k evs' := by
  simp [accepted]

lemma accepted_cons_of_none (h : c.req.asWithWatermark = none) (r : Except Err Unit)
    (evs : List (Call PKH × Except Err Unit)) : accepted k ((c, r) :: evs) = accepted k evs := by
  have hnone : acceptedFor k (c, r) = none := by
    unfold acceptedFor
    cases r <;> simp [h]
  exact List.filterMap_cons_none hnone

lemma accepted_cons (h : c.req.asWithWatermark = some m) (evs : List (Call PKH × Except Err Unit)) :
    accepted k ((c, (w.IsSafeToSign c).1) :: evs) =
      if w.admits (tripleOf c.pkh m) (NewWatermark m c.digest) = true ∧ k = tripleOf c.pkh m
      then (m, c.digest) :: accepted k evs else accepted k evs := by
  rw [step_answer h, accepted, List.filterMap_cons]
  by_cases ha : w.admits (tripleOf c.pkh m) (NewWatermark m c.digest) = true
  · by_cases hk : k = tripleOf c.pkh m
    · simp [acceptedFor, h, ha, hk, accepted]
    · simp [acceptedFor, h, ha, hk, accepted, Ne.symm hk]
  · simp [acceptedFor, ha, accepted]

/-- What the store holds for `k` is the last request accepted for `k`. -/
theorem lookup_eq_last (calls : List (Call PKH)) (k : Triple Enc) :
    (final InMemory.IsSafeToSign ⟨none⟩ calls).lookup k =
      (accepted k (events InMemory.IsSafeToSign ⟨none⟩ calls)).getLast?.map
        fun a => NewWatermark a.1 a.2 := by
  induction calls using List.reverseRecOn with
  | nil => rfl
  | append_singleton calls c ih =>
    rw [final_snoc, events_snoc, accepted_append]
    cases h : c.req.asWithWatermark with
    | none => rw [accepted_cons_of_none h, step_of_none h, ih]; simp [accepted]
    | some m =>
      rw [step_lookup h, accepted_cons h]
      split
      · simp [accepted]
      · rw [ih]; simp [accepted]

end Accepted

/-! ## Climbing -/

/-- `b` stands above `a`, or is `a` again. -/
def Climbs (a b : Signed) : Prop := a.1.pos < b.1.pos ∨ a.1.pos = b.1.pos ∧ a.2 = b.2

instance : IsTrans Signed Climbs where
  trans a b c := by
    rintro (hab | ⟨hab, dab⟩) (hbc | ⟨hbc, dbc⟩)
    · exact Or.inl (hab.trans hbc)
    · exact Or.inl (hbc ▸ hab)
    · exact Or.inl (hab ▸ hbc)
    · exact Or.inr ⟨hab.trans hbc, dab.trans dbc⟩

lemma Climbs.notDouble {a b : Signed} (h : Climbs a b) : NotDouble a b := by
  rcases h with h | ⟨h, d⟩
  · exact ⟨fun e => absurd h (e ▸ lt_irrefl _), not_lt.2 h.le⟩
  · exact ⟨fun _ => d, h ▸ lt_irrefl _⟩

lemma climbs_of_validate {a b : Signed} (hdet : a.2 = b.2 → a.1.pos = b.1.pos)
    (hv : (NewWatermark b.1 b.2).Validate (NewWatermark a.1 a.2) = true)
    (hu : ¬ (NewWatermark b.1 b.2).Underflows (NewWatermark a.1 a.2)) : Climbs a b := by
  rcases (Watermark.validate_iff _ _).1 hv with ⟨d, hb, ha⟩ | ⟨hlt, -⟩ | h
  · simp only [newWatermark_hash, Option.some.injEq] at ha hb
    have e : a.2 = b.2 := ha.trans hb.symm
    exact Or.inr ⟨hdet e, e⟩
  · exact Or.inl hlt
  · exact absurd h hu

lemma mem_accepted {k : Triple Enc} {calls : List (Call PKH)} {w : InMemory Enc} {a : Signed}
    (h : a ∈ accepted k (events InMemory.IsSafeToSign w calls)) :
    ∃ c ∈ calls, c.req.asWithWatermark = some a.1 ∧ c.digest = a.2 := by
  induction calls generalizing w with
  | nil => simp [accepted] at h
  | cons c calls ih =>
    rw [events_cons] at h
    have htail : a ∈ accepted k (events InMemory.IsSafeToSign (w.IsSafeToSign c).2 calls) →
        ∃ c' ∈ c :: calls, c'.req.asWithWatermark = some a.1 ∧ c'.digest = a.2 := fun h' => by
      obtain ⟨c', hc', h''⟩ := ih h'
      exact ⟨c', List.mem_cons_of_mem _ hc', h''⟩
    cases hm : c.req.asWithWatermark with
    | none => exact htail (by rwa [accepted_cons_of_none hm] at h)
    | some m =>
      rw [accepted_cons hm] at h
      split at h
      · rcases List.mem_cons.1 h with rfl | h'
        · exact ⟨c, List.mem_cons_self, hm, rfl⟩
        · exact htail h'
      · exact htail h

theorem climbs_of_noUnderflow {calls : List (Call PKH)} (hdet : DigestDetermines calls)
    (h : Along InMemory.IsSafeToSign NoUnderflow (⟨none⟩ : InMemory Enc) calls) (k : Triple Enc) :
    (accepted k (events InMemory.IsSafeToSign ⟨none⟩ calls)).IsChain Climbs := by
  induction calls using List.reverseRecOn with
  | nil => exact List.isChain_nil
  | append_singleton calls c ih =>
    obtain ⟨hcalls, hc, -⟩ := along_append.1 h
    have ih := ih (fun a ha b hb => hdet a (by simp [ha]) b (by simp [hb])) hcalls
    rw [events_snoc, accepted_append]
    cases hm : c.req.asWithWatermark with
    | none => rw [accepted_cons_of_none hm]; simpa [accepted] using ih
    | some m =>
      rw [accepted_cons hm]
      split
      case isFalse => simpa [accepted] using ih
      case isTrue hadm =>
        obtain ⟨hadm, rfl⟩ := hadm
        refine List.isChain_append.2 ⟨ih, List.isChain_singleton _, fun a ha b hb => ?_⟩
        obtain rfl : b = (m, c.digest) := by simpa [accepted, eq_comm] using hb
        -- `a`, the last request accepted before, is what the store compares with
        have hstored := lookup_eq_last calls (tripleOf c.pkh m : Triple Enc)
        rw [Option.mem_def.1 ha, Option.map_some] at hstored
        obtain ⟨c', hc', hreq, hdig⟩ := mem_accepted (List.mem_of_getLast? ha)
        refine climbs_of_validate (fun e => ?_) (admits_iff.1 hadm _ hstored) (hc m hm _ hstored)
        have := hdet c' (by simp [hc']) c (by simp) (hdig.trans e)
        rw [this, hm] at hreq
        rw [Option.some.inj hreq]

/-! ## Levels and rounds that are not negative -/

/-- The call carries no negative level and no negative round. -/
def Call.Nonneg (c : Call PKH) : Prop := ∀ m, c.req.asWithWatermark = some m → 0 ≤ m.level ∧ 0 ≤ m.round

lemma along_of_nonneg {calls : List (Call PKH)} (h : ∀ c ∈ calls, c.Nonneg) (w : InMemory Enc) :
    Along InMemory.IsSafeToSign NoUnderflow w calls := by
  rw [along_iff]
  rintro pre c post rfl m hm stored -
  obtain ⟨hl, hr⟩ := h c (by simp) m hm
  exact Watermark.not_underflows_of_nonneg hl hr

/-! ## When the store prevents double signing -/

/-- **When the store in memory prevents double signing.**  A run from the empty store never signs twice
at one position, nor below an accepted position, if and only if none of its steps wraps downwards. -/
theorem noDoubleSign_iff (calls : List (Call PKH)) (hdet : DigestDetermines calls) :
    NoDoubleSign Enc (events InMemory.IsSafeToSign ⟨none⟩ calls) ↔
      Along InMemory.IsSafeToSign NoUnderflow (⟨none⟩ : InMemory Enc) calls := by
  constructor
  · intro h
    refine along_iff.2 ?_
    rintro pre c post rfl m hm stored hstored hu
    -- the call is accepted, below the request that the store holds
    have hadm : (final InMemory.IsSafeToSign ⟨none⟩ pre).admits (tripleOf c.pkh m)
        (NewWatermark m c.digest) = true := by
      refine admits_iff.2 fun s hs => ?_
      obtain rfl : stored = s := Option.some.inj (hstored.symm.trans hs)
      exact (Watermark.validate_iff _ _).2 (Or.inr (Or.inr hu))
    rw [lookup_eq_last] at hstored
    obtain ⟨a, ha, rfl⟩ := Option.map_eq_some_iff.1 hstored
    have hpair := h (tripleOf c.pkh m)
    rw [events_append, events_cons, accepted_append] at hpair
    have hb : (m, c.digest) ∈ accepted (tripleOf c.pkh m : Triple Enc)
        ((c, ((final InMemory.IsSafeToSign ⟨none⟩ pre).IsSafeToSign c).1) ::
          events InMemory.IsSafeToSign ((final InMemory.IsSafeToSign ⟨none⟩ pre).IsSafeToSign c).2 post) := by
      rw [accepted_cons hm, if_pos ⟨hadm, rfl⟩]
      exact List.mem_cons_self
    have := (List.pairwise_append.1 hpair).2.2 a (List.mem_of_getLast? ha) _ hb
    exact this.2 (Watermark.pos_lt_of_underflows hu)
  · intro h k
    exact (List.isChain_iff_pairwise.1 (climbs_of_noUnderflow hdet h k)).imp Climbs.notDouble

/-- A block request for the key `0` on the chain `0`. -/
def blockCall (level : Int32) (digest : Digest) : Call EncodedPublicKeyHash where
  pkh := 0
  req := .latest (.withWatermark ⟨"block", 0, level, 0⟩)
  digest := digest

theorem noDoubleSign_of_two_levels :
    NoDoubleSign EncodedPublicKeyHash
      (events InMemory.IsSafeToSign ⟨none⟩ [blockCall 1 1, blockCall 2 2]) := by
  refine (noDoubleSign_iff [blockCall 1 1, blockCall 2 2] ?_).2 (along_of_nonneg ?_ _)
  · unfold DigestDetermines; decide
  · intro c hc m hm
    fin_cases hc <;> cases hm <;> decide

/-- A level of `-2^31` is accepted after the level `1`: the difference wraps to `2^31 - 1`. -/
theorem doubleSign_of_wrapped_level :
    DigestDetermines [blockCall 1 1, blockCall (-2147483648) 2] ∧
      ¬ NoDoubleSign EncodedPublicKeyHash
        (events InMemory.IsSafeToSign ⟨none⟩ [blockCall 1 1, blockCall (-2147483648) 2]) := by
  refine ⟨by unfold DigestDetermines; decide, fun h => ?_⟩
  have hacc : accepted ⟨0, 0, "block"⟩
      (events InMemory.IsSafeToSign ⟨none⟩ [blockCall 1 1, blockCall (-2147483648) 2]) =
      [(⟨"block", 0, 1, 0⟩, 1), (⟨"block", 0, -2147483648, 0⟩, 2)] := by decide
  have hpair := h ⟨0, 0, "block"⟩
  rw [hacc] at hpair
  have hnot := List.rel_of_pairwise_cons hpair List.mem_cons_self
  exact hnot.2 (by unfold WithWatermark.pos; rw [position_lt_iff]; decide)

/-! ## Attestations of two kinds

An attestation with DAL content is a vote like one without, but it has a kind of its own, and the store keeps
a watermark for each kind.  Within a kind a vote is cast once; between the kinds nothing is compared. -/

/-- Of two requests accepted on one chain, for one key, at one level and round, with kinds related by `K`,
both are the same message. -/
def VotesOnce {ε : Type} (K : String → String → Prop) (evs : List (Call PKH × Except ε Unit)) : Prop :=
  ∀ c c' m m', (c, .ok ()) ∈ evs → (c', .ok ()) ∈ evs → c.req.asWithWatermark = some m →
    c'.req.asWithWatermark = some m' → K m.kind m'.kind → m.chainID = m'.chainID → c.pkh = c'.pkh →
    m.level = m'.level → m.round = m'.round → c.req = c'.req ∧ c.digest = c'.digest

lemma mem_accepted_of_event {c : Call PKH} {m : WithWatermark} {evs : List (Call PKH × Except Err Unit)}
    (he : (c, .ok ()) ∈ evs) (hm : c.req.asWithWatermark = some m) :
    (m, c.digest) ∈ accepted (tripleOf c.pkh m : Triple Enc) evs := by
  refine List.mem_filterMap.2 ⟨_, he, ?_⟩
  simp [acceptedFor, hm]

/-- With levels and rounds that are not negative, two requests of one kind accepted for a key on a chain at one
level and round are the same message. -/
lemma votesOnce_of_nonneg {calls : List (Call PKH)} (hnn : ∀ c ∈ calls, c.Nonneg) (hdet : DigestDetermines calls) :
    VotesOnce (· = ·) (events InMemory.IsSafeToSign (⟨none⟩ : InMemory Enc) calls) := by
  intro c c' m m' he he' hm hm' hkind hchain hpkh hlevel hround
  have hk : (tripleOf c'.pkh m' : Triple Enc) = tripleOf c.pkh m := by
    simp [tripleOf, hkind, hchain, hpkh]
  have hpos : m.pos = m'.pos := by simp [WithWatermark.pos, hlevel, hround]
  have hclimbs := List.isChain_iff_pairwise.1
    (climbs_of_noUnderflow hdet (along_of_nonneg hnn _) (tripleOf c.pkh m : Triple Enc))
  -- equal positions carry equal digests, in whichever order the two were accepted
  have : Std.Symm fun a b : Signed => a.1.pos = b.1.pos → a.2 = b.2 :=
    ⟨fun _ _ h e => (h e.symm).symm⟩
  have hdig : c.digest = c'.digest := by
    have hall := List.Pairwise.forall_of_forall (fun _ _ _ => rfl)
      (hclimbs.imp fun h => (Climbs.notDouble h).1)
    exact hall (mem_accepted_of_event he hm) (hk ▸ mem_accepted_of_event he' hm') hpos
  have hmem : ∀ {e}, e ∈ events InMemory.IsSafeToSign (⟨none⟩ : InMemory Enc) calls → e.1 ∈ calls :=
    fun h => map_fst_events InMemory.IsSafeToSign _ calls ▸ List.mem_map_of_mem h
  exact ⟨hdet c (hmem he) c' (hmem he') hdig, hdig⟩

/-- The call is for a watermarked request of the kind `kind`. -/
def Call.ofKind (kind : String) (c : Call PKH) : Bool := c.req.asWithWatermark.any fun m => m.kind == kind

/-- **One vote for each kind.**  With levels and rounds that are not negative, two requests of one kind
accepted for a key on a chain at one level and round are the same message.  The requests of a kind are
answered as if there were no others, so the two kinds of attestation do not see each other. -/
theorem votesOnce_of_each_kind (calls : List (Call PKH)) (hnn : ∀ c ∈ calls, c.Nonneg)
    (hdet : DigestDetermines calls) :
    VotesOnce (· = ·) (events InMemory.IsSafeToSign (⟨none⟩ : InMemory Enc) calls) ∧
      ∀ kind, (events InMemory.IsSafeToSign (⟨none⟩ : InMemory Enc) calls).filter
          (fun e => e.1.ofKind kind) =
        events InMemory.IsSafeToSign ⟨none⟩ (calls.filter (Call.ofKind kind)) := by
  refine ⟨votesOnce_of_nonneg hnn hdet, fun kind => ?_⟩
  have hp : ∀ c : Call PKH, (c.triple : Option (Triple Enc)).any (fun k => k.kind == kind) =
      c.ofKind kind := by
    intro c
    cases h : c.req.asWithWatermark <;> simp [Call.triple, Call.ofKind, tripleOf, h]
  have := (events_of_triples (w := ⟨none⟩) (v := ⟨none⟩) (fun k : Triple Enc => k.kind == kind)
    (fun _ _ => rfl) calls).1
  simpa only [hp] using this

/-- An attestation of the given kind for the key `0` on the chain `0`, at level `10` and round `0`. -/
def attestationCall (kind : String) (digest : Digest) : Call EncodedPublicKeyHash where
  pkh := 0
  req := .latest (.withWatermark ⟨kind, 0, 10, 0⟩)
  digest := digest

theorem votesOnce_of_each_kind_two :
    VotesOnce (· = ·) (events InMemory.IsSafeToSign (⟨none⟩ : InMemory EncodedPublicKeyHash)
      [attestationCall "attestation" 1, attestationCall "attestation_with_dal" 2]) := by
  refine (votesOnce_of_each_kind _ ?_ ?_).1
  · intro c hc m hm
    fin_cases hc <;> cases hm <;> decide
  · unfold DigestDetermines; decide

/-- An attestation and an attestation with DAL content, of one key at one level and round, are both
accepted with different digests. -/
theorem votesTwice_across_kinds :
    (∀ c ∈ [attestationCall "attestation" 1, attestationCall "attestation_with_dal" 2], c.Nonneg) ∧
      ¬ VotesOnce (fun a b => a = "attestation" ∧ b = "attestation_with_dal")
        (events InMemory.IsSafeToSign (⟨none⟩ : InMemory EncodedPublicKeyHash)
          [attestationCall "attestation" 1, attestationCall "attestation_with_dal" 2]) := by
  refine ⟨?_, fun h => ?_⟩
  · intro c hc m hm
    fin_cases hc <;> cases hm <;> decide
  · have hevs : events InMemory.IsSafeToSign (⟨none⟩ : InMemory EncodedPublicKeyHash)
        [attestationCall "attestation" 1, attestationCall "attestation_with_dal" 2] =
        [(attestationCall "attestation" 1, .ok ()), (attestationCall "attestation_with_dal" 2, .ok ())] := rfl
    rw [hevs] at h
    have := h (attestationCall "attestation" 1) (attestationCall "attestation_with_dal" 2)
      ⟨"attestation", 0, 10, 0⟩ ⟨"attestation_with_dal", 0, 10, 0⟩ (by simp) (by simp)
      rfl rfl ⟨rfl, rfl⟩ rfl rfl rfl rfl
    exact absurd this.2 (by decide)

end Signatory.Watermark

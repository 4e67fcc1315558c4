import Signatory.Watermark.Migrate

/-!
# The protection after a migration of the first format

`tryV1` turns the order of an entry into a kind.  A block watermark goes on protecting; the others do not, since
they are stored under `preendorsement` and `endorsement`, kinds that no request has any more
(`migrated_v1_protects`).
-/

namespace Signatory.Watermark

open Request Hashmap Lib.Machine

variable {Enc C : Type} [DecidableEq Enc] {PKH : Type} [ToComparable PKH Enc]

/-! ## The store after a migration -/

section Protection

variable {cx : Codec Enc C}

/-- **A migration that succeeds** holds the same watermarks in memory and on disk: those of the legacy data. -/
theorem kept_of_migration (hcx : cx.Lawful) {env : StartEnv C} {disk disk₀ : Disk C} {mem₀ : InMemory Enc}
    {chains : ChainMap Enc} (hv2 : disk.v2 = none) (hleg : legacy PKH cx disk = some chains)
    (h : NewFileWatermark PKH cx env disk = (some (.ok mem₀), disk₀)) {c : ChainID} (hc : c ∈ chains.keys)
    (k : Triple Enc) : Kept cx (· = ChainMap.find chains k) k ⟨disk₀, some mem₀⟩ := by
  rcases newFile_of_no_v2 PKH env hv2 with ⟨-, -, hnone⟩ | ⟨chains', hreads, hmig⟩
  · rw [h] at hnone
    rw [(hnone mem₀ rfl).2] at hleg
    cases hleg
  · obtain rfl : chains' = chains := Option.some.inj (hreads.legacy_eq.symm.trans hleg)
    obtain ⟨rfl, hw⟩ := migrate_ok (hmig ▸ h)
    refine ⟨v2_of_ok chains' env.outcome hw (List.ne_nil_of_mem ((mem_rangeOrder chains').2 hc)), ?_, ?_⟩
    · exact find_migrated hcx hv2 hw k
    · rintro mem ⟨⟩
      rfl

/-- The kind that a request has today for what an order of the first format stands for. -/
def currentKind (order : ℤ) : String :=
  if order = 0 then "block"
  else if order = 1 then "preattestation"
  else "attestation"

/-- The directory `watermark_v1` has the entry `val` for a delegate on a chain. -/
def V1Entry (cx : Codec Enc C) (disk : Disk C) (chain : ChainID) (pkh : Enc) (val : V1Watermark) : Prop :=
  ∃ dir content delegates, disk.v1 = some dir ∧
    dir.lookup (.json (cx.chainString chain)) = some (.regular content) ∧
    cx.unmarshalV1 content = some delegates ∧ delegates.lookup pkh = some val

lemma find_legacy_v1 [LawfulToComparable PKH Enc] (hcx : cx.Lawful) {disk : Disk C} {chains : ChainMap Enc}
    (hleg : legacy PKH cx disk = some chains) {chain : ChainID} {pkh : Enc} {val : V1Watermark}
    (hval : V1Entry cx disk chain pkh val) (kind : String) :
    ChainMap.find chains ⟨chain, pkh, kind⟩ =
      if kind = v1Kind val.order then some (v1ToWatermark val) else none := by
  obtain ⟨dir, content, delegates, hdir, hfile, hjson, hentry⟩ := hval
  unfold legacy at hleg
  cases h1 : tryV1 PKH cx noFaults disk with
  | error e => simp [h1] at hleg
  | ok r =>
    cases r with
    | none =>
      rw [loadDir_none h1] at hdir
      cases hdir
    | some chains' =>
      obtain rfl : chains' = chains := by simpa [h1] using hleg
      obtain ⟨d, hd, hlookup⟩ := lookup_loadDir hcx h1 chain
      obtain rfl : dir = d := Option.some.inj (hdir.symm.trans hd)
      simp [ChainMap.find, hlookup, Dir.chain, hfile, Node.decoded, hjson, find_fromV1, hentry]

/-- A live request and a migrated entry have the same kind for blocks only. -/
lemma currentKind_eq_v1Kind {order : ℤ} : currentKind order = v1Kind order ↔ order = 0 := by
  unfold currentKind v1Kind
  split_ifs <;> simp_all

/-- After the migration an entry of the first format is held for the kind its order stands for today if that is
a block, and nothing is held for that kind otherwise. -/
theorem kept_of_v1Entry [LawfulToComparable PKH Enc] (hcx : cx.Lawful) {env : StartEnv C} {disk disk₀ : Disk C}
    {mem₀ : InMemory Enc} (hv2 : disk.v2 = none)
    (hstart : NewFileWatermark PKH cx env disk = (some (.ok mem₀), disk₀)) {chain : ChainID} {pkh : Enc}
    {val : V1Watermark} (hval : V1Entry cx disk chain pkh val) :
    Kept cx (· = if val.order = 0 then some (v1ToWatermark val) else none) ⟨chain, pkh, currentKind val.order⟩
      ⟨disk₀, some mem₀⟩ := by
  obtain ⟨chains, hleg⟩ : ∃ chains, legacy PKH cx disk = some chains := by
    rcases newFile_of_no_v2 PKH env hv2 with ⟨-, -, hnone⟩ | ⟨chains, hreads, -⟩
    · rw [hstart] at hnone
      obtain ⟨dir, content, delegates, hdir, -⟩ := hval
      rw [(hnone mem₀ rfl).1] at hdir
      cases hdir
    · exact ⟨chains, hreads.legacy_eq⟩
  have hkey : chain ∈ chains.keys :=
    find_of_mem_keys (k := ⟨chain, pkh, v1Kind val.order⟩) (by rw [find_legacy_v1 hcx hleg hval, if_pos rfl])
  have hkept := kept_of_migration hcx hv2 hleg hstart hkey ⟨chain, pkh, currentKind val.order⟩
  rw [find_legacy_v1 hcx hleg hval] at hkept
  simpa only [currentKind_eq_v1Kind] using hkept

/-- `wm` stands above `wm₀`, or at the same position with the same hash. -/
def Above (wm₀ wm : Watermark) : Prop := wm₀.pos < wm.pos ∨ wm₀.pos = wm.pos ∧ wm₀.hash = wm.hash

/-- In the set of watermarks `S` the hash fixes the position. -/
def HashFixes (S : Set Watermark) : Prop := ∀ a ∈ S, ∀ b ∈ S, a.hash = b.hash → a.pos = b.pos

/-- The watermarks of the calls for `k` among the inputs. -/
def callWatermarks (k : Triple Enc) (is : List (Input PKH C)) : Set Watermark :=
  {wm | ∃ c o, .call c o ∈ is ∧ c.triple = some k ∧ c.watermark = some wm}

/-- A call for `k` does not make `Validate` wrap downwards. -/
def NoWrap (k : Triple Enc) (s : Sys Enc C) (i : Input PKH C) : Prop :=
  ∀ c o mem, i = .call c o → c.triple = some k → s.proc = some mem → NoUnderflow mem c

lemma noWrap_of_nonneg {k : Triple Enc} {is : List (Input PKH C)} (h : ∀ c o, .call c o ∈ is → c.Nonneg)
    (s : Sys Enc C) : Along (Sys.step cx) (NoWrap k) s is := by
  rw [along_iff]
  rintro pre i post rfl c o mem rfl - - m hm stored -
  obtain ⟨hlevel, hround⟩ := h c o (by simp) m hm
  exact Watermark.not_underflows_of_nonneg hlevel hround

section Above

variable {wm₀ stored new : Watermark} {S : Set Watermark}

lemma Above.of_validate (h : Above wm₀ stored) (hS : HashFixes S) (hst : stored ∈ S) (hnew : new ∈ S)
    (hv : new.Validate stored = true) (hu : ¬ new.Underflows stored) : Above wm₀ new := by
  rcases (Watermark.validate_iff new stored).1 hv with ⟨d, hd, hd'⟩ | ⟨hlt, -⟩ | hu'
  · have hhash : new.hash = stored.hash := hd.trans hd'.symm
    have hpos := hS new hnew stored hst hhash
    rcases h with h | ⟨h, h'⟩
    · exact Or.inl (hpos ▸ h)
    · exact Or.inr ⟨h.trans hpos.symm, h'.trans hhash.symm⟩
  · rcases h with h | ⟨h, -⟩
    · exact Or.inl (h.trans hlt)
    · exact Or.inl (h ▸ hlt)
  · exact absurd hu' hu

lemma Above.refuses (h : Above wm₀ stored) (hS : HashFixes S) (hst : stored ∈ S) (hnew : new ∈ S)
    (hu : ¬ new.Underflows stored) (hpos : new.pos ≤ wm₀.pos) (hhash : wm₀.hash ≠ new.hash) :
    new.Validate stored = false := by
  by_contra hv
  rcases h.of_validate hS hst hnew (by simpa using hv) hu with h' | ⟨-, h'⟩
  · exact absurd h' (not_lt.2 hpos)
  · exact hhash h'

/-- Below `wm₀` and with another hash, only a wrapping difference passes. -/
lemma validate_iff_underflows (hpos : new.pos ≤ wm₀.pos) (hhash : wm₀.hash ≠ new.hash) :
    new.Validate wm₀ = true ↔ new.Underflows wm₀ := by
  rw [Watermark.validate_iff]
  constructor
  · rintro (⟨d, hd, hd'⟩ | ⟨hlt, -⟩ | hu)
    · exact absurd (hd'.trans hd.symm) hhash
    · exact absurd hlt (not_lt.2 hpos)
    · exact hu
  · exact fun hu => Or.inr (Or.inr hu)

end Above

section Run

variable {k : Triple Enc} {s₀ : Sys Enc C} {is : List (Input PKH C)}

theorem kept_of_no_passes (hcx : cx.Lawful) {held : Option Watermark} (h₀ : Kept cx (· = held) k s₀)
    (hno : Along (Sys.step cx) (fun s i => ∀ wm, ¬ Passes s i k wm) s₀ is) :
    Kept cx (· = held) k (final (Sys.step cx) s₀ is) := by
  refine inv_events (I := fun _ s => Kept cx (· = held) k s) h₀ ?_ hno
  intro _ s i hkept hi
  refine (hkept.step hcx i).imp fun held' h => ?_
  rcases h with h | ⟨wm, -, hpass⟩
  · exact h
  · exact absurd hpass (hi wm)

/-- Over any run of calls that do not wrap, kills and restarts, what is held for `k` stays above `wm₀`. -/
theorem kept_above (hcx : cx.Lawful) {wm₀ : Watermark} {S : Set Watermark} (hS : HashFixes S)
    (h₀ : Kept cx (· = some wm₀) k s₀) (hwm₀ : wm₀ ∈ S) (hcalls : callWatermarks k is ⊆ S)
    (hwrap : Along (Sys.step cx) (NoWrap k) s₀ is) :
    Kept cx (fun held => ∃ wm, held = some wm ∧ Above wm₀ wm ∧ wm ∈ S) k (final (Sys.step cx) s₀ is) := by
  have hguard : Along (Sys.step cx) (fun s i => NoWrap k s i ∧ callWatermarks k [i] ⊆ S) s₀ is := by
    rw [along_iff] at hwrap ⊢
    rintro pre i post rfl
    refine ⟨hwrap pre i post rfl, ?_⟩
    rintro wm ⟨c, o, hmem, hc⟩
    obtain rfl := List.mem_singleton.1 hmem
    exact hcalls ⟨c, o, by simp, hc⟩
  refine inv_events (I := fun _ s => Kept cx (fun held => ∃ wm, held = some wm ∧ Above wm₀ wm ∧ wm ∈ S) k s)
    (h₀.imp fun held e => ⟨wm₀, e, Or.inr ⟨rfl, rfl⟩, hwm₀⟩) ?_ hguard
  intro _ s i hkept hi
  refine (hkept.step hcx i).imp fun held h => ?_
  rcases h with h | ⟨wm, rfl, c, o, mem, m, rfl, hproc, hreq, rfl, rfl, hadm⟩
  · exact h
  · -- the call passed against a watermark above `wm₀`
    obtain ⟨stored, hlookup, habove, hst⟩ := hkept.mem mem hproc
    have hin : NewWatermark m c.digest ∈ S :=
      hi.2 ⟨c, o, List.mem_singleton_self _, by simp [Call.triple, hreq], by simp [Call.watermark, hreq]⟩
    have hu := hi.1 c o mem rfl (by simp [Call.triple, hreq]) hproc m hreq stored hlookup
    exact ⟨_, rfl, habove.of_validate hS hst hin (admits_iff.1 hadm stored hlookup) hu, hin⟩

theorem refused_of_above (hcx : cx.Lawful) {wm₀ : Watermark} {c : Call PKH} {m : WithWatermark} {o : Outcome C}
    {mem : InMemory Enc} (hreq : c.req.asWithWatermark = some m)
    (h₀ : Kept cx (· = some wm₀) (tripleOf c.pkh m) s₀)
    (hwrap : Along (Sys.step cx) (NoWrap (tripleOf c.pkh m)) s₀ (is ++ [.call c o]))
    (hS : HashFixes (insert wm₀ (callWatermarks (tripleOf c.pkh m) (is ++ [.call c o]))))
    (hproc : (final (Sys.step cx) s₀ is).proc = some mem) (hpos : (NewWatermark m c.digest).pos ≤ wm₀.pos)
    (hhash : wm₀.hash ≠ (NewWatermark m c.digest).hash) :
    mem.admits (tripleOf c.pkh m) (NewWatermark m c.digest) = false := by
  have hsub : callWatermarks (tripleOf c.pkh m) is ⊆
      insert wm₀ (callWatermarks (tripleOf c.pkh m) (is ++ [.call c o])) := by
    rintro wm ⟨c', o', hmem', hc'⟩
    exact Or.inr ⟨c', o', List.mem_append_left _ hmem', hc'⟩
  obtain ⟨hwrap_is, hwrap_c⟩ := along_append.1 hwrap
  obtain ⟨stored, hlookup, habove, hst⟩ := (kept_above hcx hS h₀ (Or.inl rfl) hsub hwrap_is).mem mem hproc
  have hnew : NewWatermark m c.digest ∈
      insert wm₀ (callWatermarks (tripleOf c.pkh m) (is ++ [.call c o])) :=
    Or.inr ⟨c, o, by simp, by simp [Call.triple, hreq], by simp [Call.watermark, hreq]⟩
  have hu := hwrap_c.1 c o mem rfl (by simp [Call.triple, hreq]) hproc m hreq stored hlookup
  unfold InMemory.admits
  rw [hlookup]
  exact habove.refuses hS hst hnew hu hpos hhash

end Run

/-- **What a migrated watermark of the first format protects.**  The call `c`, made after any run `is` on the
migrated store, has the current kind for the order of the entry, is not above the entry and has another digest.

It is refused, over any failed writes and restarts and whatever was accepted before it, if the entry is that of a block,
no call of the run for its triple makes `Validate` wrap downwards, and among the entry and those calls a digest
fixes the position.

The order is what matters: as long as no call for its triple has passed since the migration, the call is refused if the
order is that of a block and `Validate` does not wrap, and it passes otherwise. -/
theorem migrated_v1_protects [LawfulToComparable PKH Enc] (hcx : cx.Lawful) {env : StartEnv C}
    {disk disk₀ : Disk C} {mem₀ mem : InMemory Enc} (hv2 : disk.v2 = none)
    (hstart : NewFileWatermark PKH cx env disk = (some (.ok mem₀), disk₀)) {c : Call PKH} {m : WithWatermark}
    (hreq : c.req.asWithWatermark = some m) {val : V1Watermark}
    (hval : V1Entry cx disk m.chainID (toComparable c.pkh) val) (hkind : m.kind = currentKind val.order)
    (hpos : m.pos ≤ (v1ToWatermark val).pos) (hhash : val.hash ≠ some c.digest) (o : Outcome C)
    (is : List (Input PKH C)) (hproc : (final (Sys.step cx) ⟨disk₀, some mem₀⟩ is).proc = some mem) :
    (val.order = 0 →
        Along (Sys.step cx) (NoWrap (tripleOf c.pkh m)) ⟨disk₀, some mem₀⟩ (is ++ [.call c o]) →
        HashFixes (insert (v1ToWatermark val) (callWatermarks (tripleOf c.pkh m) (is ++ [.call c o]))) →
        (Sys.step cx (final (Sys.step cx) ⟨disk₀, some mem₀⟩ is) (.call c o)).1 =
          some (.error .ErrWatermark)) ∧
      (Along (Sys.step cx) (fun s i => ∀ wm, ¬ Passes s i (tripleOf c.pkh m) wm) ⟨disk₀, some mem₀⟩ is →
        (Sys.step cx (final (Sys.step cx) ⟨disk₀, some mem₀⟩ is) (.call c o)).1 =
          if val.order = 0 ∧ ¬ (NewWatermark m c.digest).Underflows (v1ToWatermark val)
          then some (.error .ErrWatermark) else o.reply) := by
  -- the triple of the call is held exactly for the order of a block
  have h₀ := kept_of_v1Entry hcx hv2 hstart hval
  rw [← hkind] at h₀
  change Kept cx _ (tripleOf c.pkh m) _ at h₀
  have hpos' : (NewWatermark m c.digest).pos ≤ (v1ToWatermark val).pos := hpos
  have hhash' : (v1ToWatermark val).hash ≠ (NewWatermark m c.digest).hash := hhash
  rw [step_call_answer hcx hproc hreq]
  refine ⟨fun horder hwrap hS => ?_, fun hno => ?_⟩
  · rw [if_pos horder] at h₀
    rw [refused_of_above hcx hreq h₀ hwrap hS hproc hpos' hhash']
    rfl
  · unfold InMemory.admits
    rw [(kept_of_no_passes hcx h₀ hno).mem mem hproc]
    by_cases horder : val.order = 0
    · simp only [horder, if_true, true_and, validate_iff_underflows hpos' hhash']
      by_cases hu : (NewWatermark m c.digest).Underflows (v1ToWatermark val) <;> simp [hu]
    · simp [horder]

/-- A disk with one entry of the first format, for the key `0` on the chain `0`. -/
def v1Disk (val : V1Watermark) : Disk (Content EncodedPublicKeyHash) where
  v0 := none
  v1 := some (AList.singleton (.json "") (.regular (.v1 (AList.singleton 0 val))))
  v2 := none

lemma v1Entry_v1Disk (val : V1Watermark) : V1Entry (Codec.unary _) (v1Disk val) 0 0 val :=
  ⟨_, _, _, rfl, rfl, rfl, rfl⟩

/-- A block at level 10 was signed before the migration, and one at level 12 passes after it, but its write fails.  One
at level 5 is refused. -/
theorem migrated_v1_protects_block :
    (Sys.step (Codec.unary EncodedPublicKeyHash)
      (final (Sys.step (Codec.unary EncodedPublicKeyHash)) ⟨v1Disk ⟨10, none, 0, some 7⟩, none⟩
        [.start smoothStart, .call (blockCall 12 3) (.fails .mkdir)])
      (.call (blockCall 5 1) .ok)).1 = some (.error .ErrWatermark) := by
  have hstart : NewFileWatermark EncodedPublicKeyHash (Codec.unary _) smoothStart (v1Disk ⟨10, none, 0, some 7⟩) =
      (some (.ok _), _) := rfl
  refine (migrated_v1_protects (Codec.unary_lawful EncodedPublicKeyHash) rfl hstart (c := blockCall 5 1) rfl
    (v1Entry_v1Disk _) rfl (by decide) (by decide) .ok [.call (blockCall 12 3) (.fails .mkdir)] rfl).1 rfl ?_ ?_
  · apply noWrap_of_nonneg
    rintro c o hmem m hm
    simp only [List.cons_append, List.nil_append, List.mem_cons, List.not_mem_nil, or_false, Input.call.injEq] at hmem
    rcases hmem with ⟨rfl, -⟩ | ⟨rfl, -⟩ <;> cases hm <;> decide
  · -- the three digests differ
    have hcalls : ∀ wm ∈ callWatermarks (tripleOf (0 : EncodedPublicKeyHash) ⟨"block", 0, 5, 0⟩)
        [.call (blockCall 12 3) (.fails .mkdir), (.call (blockCall 5 1) .ok : Input _ (Content EncodedPublicKeyHash))],
        wm = ⟨12, 0, some 3⟩ ∨ wm = ⟨5, 0, some 1⟩ := by
      rintro wm ⟨c, o, hmem, -, hwm⟩
      simp only [List.mem_cons, List.not_mem_nil, or_false, Input.call.injEq] at hmem
      rcases hmem with ⟨rfl, -⟩ | ⟨rfl, -⟩
      · exact Or.inl (Option.some.inj hwm).symm
      · exact Or.inr (Option.some.inj hwm).symm
    rintro a (rfl | ha) b (rfl | hb) hab
    · rfl
    · rcases hcalls b hb with rfl | rfl <;> cases hab
    · rcases hcalls a ha with rfl | rfl <;> cases hab
    · rcases hcalls a ha with rfl | rfl <;> rcases hcalls b hb with rfl | rfl <;> first | rfl | cases hab

/-- An attestation was signed before the migration, with the digest 7; another one at the same level and round
is accepted after it. -/
theorem migrated_attestation_unprotected :
    V1Entry (Codec.unary _) (v1Disk ⟨10, none, 2, some 7⟩) 0 0 ⟨10, none, 2, some 7⟩ ∧
      (attestationCall "attestation" 1).req.asWithWatermark = some ⟨currentKind 2, 0, 10, 0⟩ ∧
      (Sys.step (Codec.unary EncodedPublicKeyHash)
        (final (Sys.step (Codec.unary EncodedPublicKeyHash)) ⟨v1Disk ⟨10, none, 2, some 7⟩, none⟩
          [(.start smoothStart : Input EncodedPublicKeyHash _)])
        (.call (attestationCall "attestation" 1) .ok)).1 = some (.ok ()) :=
  ⟨v1Entry_v1Disk _, rfl, rfl⟩

end Protection

end Signatory.Watermark

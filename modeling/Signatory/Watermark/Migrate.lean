import Signatory.Watermark.NeverForgets

/-!
# Migration

What `NewFileWatermark` takes over from an older directory (`legacy`), and how much of it reaches `watermark_v2`
when writes fail on the way.

* `newFile_of_no_v2`: a start without `watermark_v2` migrates what its reads get;
* `find_writeAll`: a migration that succeeds puts everything on disk;
* `file_writeAll`, `v2_writeAll`, `writeAll_of_not_makesDir`: what one that stops leaves behind.
-/

namespace Signatory.Watermark

open Request Hashmap Lib.Machine

variable {Enc C : Type} [DecidableEq Enc] {PKH : Type} [ToComparable PKH Enc]

/-! ## What a migration takes over -/

section Legacy

variable (PKH) (cx : Codec Enc C)

def noFaults : ReadFaults := ⟨false, fun _ => false⟩

/-- What `tryV1`, respectively `tryV0` when `watermark_v1` does not exist, yields if nothing fails. -/
def legacy (disk : Disk C) : Option (ChainMap Enc) :=
  match tryV1 PKH cx noFaults disk with
  | .ok (some chains) => some chains
  | .ok none => (tryV0 PKH cx noFaults disk).toOption.join
  | .error _ => none

variable {cx} {decode : C → Option (DelegateMap Enc)}

omit [DecidableEq Enc] in
lemma loadEntries_noFaults {fails : FileName → Bool} (entries : List (Σ _ : FileName, Node C))
    {out chains : ChainMap Enc} (h : loadEntries cx decode fails entries out = .ok chains) :
    loadEntries cx decode (fun _ => false) entries out = .ok chains := by
  induction entries generalizing out with
  | nil => exact h
  | cons e rest ih =>
    rcases e with ⟨name, node⟩
    match name, node, h with
    | .plain name, .regular content, h => exact ih h
    | .plain name, .other, h => exact ih h
    | .json stem, .other, h => exact ih h
    | .json stem, .regular content, h =>
      simp only [loadEntries] at h ⊢
      split at h
      case h_2 => cases h
      case h_1 chainID delegates hparse hread hdecode =>
        simp only [hparse, hdecode]
        exact ih h

omit [DecidableEq Enc] in
lemma loadDir_noFaults {faults : ReadFaults} {dir : Option (Dir C)} {r : Option (ChainMap Enc)}
    (h : loadDir cx decode faults dir = .ok r) : loadDir cx decode noFaults dir = .ok r := by
  unfold loadDir at h ⊢
  split at h
  · cases h
  · cases dir with
    | none => exact h
    | some d =>
      cases hl : loadEntries cx decode faults.file d.entries ∅ with
      | error e => simp [hl, Except.map] at h
      | ok chains =>
        simp only [hl] at h
        simpa [noFaults, loadEntries_noFaults d.entries hl] using h

variable (cx) in
/-- The reads of a start find that there is no `watermark_v2`, and get `chains` from an older directory. -/
def Reads (env : StartEnv C) (disk : Disk C) (chains : ChainMap Enc) : Prop :=
  env.load.readDir = false ∧
    (tryV1 PKH cx env.v1 disk = .ok (some chains) ∨
      tryV1 PKH cx env.v1 disk = .ok none ∧ tryV0 PKH cx env.v0 disk = .ok (some chains))

lemma Reads.legacy_eq {env : StartEnv C} {disk : Disk C} {chains : ChainMap Enc}
    (h : Reads PKH cx env disk chains) : legacy PKH cx disk = some chains := by
  rcases h with ⟨-, h1 | ⟨h1, h0⟩⟩
  · have h1' : tryV1 PKH cx noFaults disk = .ok (some chains) := loadDir_noFaults h1
    simp [legacy, h1']
  · have h1' : tryV1 PKH cx noFaults disk = .ok none := loadDir_noFaults h1
    have h0' : tryV0 PKH cx noFaults disk = .ok (some chains) := loadDir_noFaults h0
    simp [legacy, h1', h0', Except.toOption]

/-- **A start without `watermark_v2`** migrates what its reads get; if they get nothing, it writes nothing. -/
theorem newFile_of_no_v2 (env : StartEnv C) {disk : Disk C} (hv2 : disk.v2 = none) :
    ((NewFileWatermark PKH cx env disk).2 = disk ∧ (∀ chains, ¬ Reads PKH cx env disk chains) ∧
        ∀ mem, (NewFileWatermark PKH cx env disk).1 = some (.ok mem) →
          disk.v1 = none ∧ legacy PKH cx disk = none) ∨
      ∃ chains, Reads PKH cx env disk chains ∧
        NewFileWatermark PKH cx env disk = migrate cx env disk chains := by
  have hload : tryLoad cx env.load disk = if env.load.readDir then .error .storage else .ok none := by
    unfold tryLoad loadDir
    rw [hv2]
  unfold NewFileWatermark Reads
  rw [hload]
  cases env.load.readDir with
  | true => simp
  | false =>
    cases h1 : tryV1 PKH cx env.v1 disk with
    | error e => simp
    | ok r1 =>
      cases r1 with
      | some chains => simp
      | none =>
        cases h0 : tryV0 PKH cx env.v0 disk with
        | error e => simp
        | ok r0 =>
          cases r0 with
          | some chains => simp
          | none =>
            have h1' : tryV1 PKH cx noFaults disk = .ok none := loadDir_noFaults h1
            have h0' : tryV0 PKH cx noFaults disk = .ok none := loadDir_noFaults h0
            refine Or.inl ⟨rfl, by simp, fun _ _ => ⟨loadDir_none h1, ?_⟩⟩
            simp [legacy, h1', h0', Except.toOption]

end Legacy

/-! ## What a migration writes -/

section WriteAll

variable {cx : Codec Enc C} (chains : ChainMap Enc) (outcome : ChainID → Outcome C)

/-- The chains that the loop gets to: it stops after the first write that does not succeed. -/
def visited (outcome : ChainID → Outcome C) : List ChainID → List ChainID
  | [] => []
  | c :: order =>
    match outcome c with
    | .ok => c :: visited outcome order
    | _ => [c]

omit [DecidableEq Enc] in
variable (cx) in
lemma writeAll_cons (c : ChainID) (order : List ChainID) (disk : Disk C) :
    let w := write cx disk ((chains.lookup c).getD ∅) c (outcome c)
    (outcome c = .ok ∧ visited outcome (c :: order) = c :: visited outcome order ∧
        writeAll cx chains outcome (c :: order) disk = writeAll cx chains outcome order w.2) ∨
      (w.1 ≠ some (.ok ()) ∧ visited outcome (c :: order) = [c] ∧
        writeAll cx chains outcome (c :: order) disk = w) := by
  cases h : outcome c <;> simp [writeAll, write, visited, Outcome.reply, h]

lemma find_data (k : Triple Enc) :
    DelegateMap.find ((chains.lookup k.chain).getD ∅) k.pkh k.kind = ChainMap.find chains k := by
  unfold ChainMap.find
  cases chains.lookup k.chain <;> rfl

/-- A loop that gets to its end has everything on disk. -/
theorem find_writeAll (hcx : cx.Lawful) (order : List ChainID) {disk disk' : Disk C}
    (h : writeAll cx chains outcome order disk = (some (.ok ()), disk')) (k : Triple Enc) :
    disk'.find cx k = if k.chain ∈ order then ChainMap.find chains k else disk.find cx k := by
  induction order generalizing disk with
  | nil =>
    obtain ⟨-, rfl⟩ := Prod.mk.inj h
    simp
  | cons c order ih =>
    rcases writeAll_cons cx chains outcome c order disk with ⟨hok, -, he⟩ | ⟨hno, -, he⟩
    · have hren : (outcome c).renames = true := by rw [hok]; rfl
      rw [ih (he ▸ h), find_write hcx]
      by_cases hc : k.chain = c
      · subst hc
        simp [hren, find_data]
      · simp [hc]
    · rw [he] at h
      exact absurd (congrArg Prod.fst h) hno

omit [DecidableEq Enc] in
lemma writeAll_of_not_makesDir (order : List ChainID) {disk : Disk C}
    (h : ∀ c ∈ visited outcome order, (outcome c).makesDir = false) :
    (writeAll cx chains outcome order disk).2 = disk := by
  cases order with
  | nil => rfl
  | cons c order =>
    rcases writeAll_cons cx chains outcome c order disk with ⟨hok, hvis, -⟩ | ⟨-, hvis, he⟩
    · have hc := h c (by simp [hvis])
      rw [hok] at hc
      cases hc
    · rw [he, write_of_not_makesDir _ _ (h c (by simp [hvis]))]

omit [DecidableEq Enc] in
lemma v2_writeAll (order : List ChainID) {disk : Disk C}
    (h : disk.v2 ≠ none ∨ ∃ c ∈ visited outcome order, (outcome c).makesDir = true) :
    (writeAll cx chains outcome order disk).2.v2 ≠ none := by
  induction order generalizing disk with
  | nil => simpa [visited, writeAll] using h
  | cons c order ih =>
    rcases writeAll_cons cx chains outcome c order disk with ⟨hok, -, he⟩ | ⟨-, hvis, he⟩
    · rw [he]
      exact ih (Or.inl (v2_write _ _ (Or.inr (by rw [hok]; rfl))))
    · rw [he]
      refine v2_write _ _ (h.imp id ?_)
      rintro ⟨c', hc', hmk⟩
      rw [hvis] at hc'
      rwa [List.mem_singleton.1 hc'] at hmk

omit [DecidableEq Enc] in
lemma v2_of_ok {order : List ChainID} {disk disk' : Disk C}
    (h : writeAll cx chains outcome order disk = (some (.ok ()), disk')) (hne : order ≠ []) : disk'.v2 ≠ none := by
  obtain ⟨c, order, rfl⟩ := List.exists_cons_of_ne_nil hne
  rcases writeAll_cons cx chains outcome c order disk with ⟨hok, hvis, -⟩ | ⟨hno, -, he⟩
  · have hdisk : disk' = (writeAll cx chains outcome (c :: order) disk).2 := by rw [h]
    rw [hdisk]
    exact v2_writeAll chains outcome _ (Or.inr ⟨c, by simp [hvis], by rw [hok]; rfl⟩)
  · rw [he] at h
    exact absurd (congrArg Prod.fst h) hno

/-- The files after the loop: those that were there, and those that it renamed. -/
lemma file_writeAll (hcx : cx.Lawful) (order : List ChainID) (disk : Disk C) (c : ChainID) :
    ((writeAll cx chains outcome order disk).2.v2.bind fun d => d.lookup (.json (cx.chainString c))) ≠ none ↔
      (disk.v2.bind fun d => d.lookup (.json (cx.chainString c))) ≠ none ∨
        c ∈ visited outcome order ∧ (outcome c).renames = true := by
  have hwrite : ∀ (disk : Disk C) (data : DelegateMap Enc) (c' : ChainID),
      ((write cx disk data c' (outcome c')).2.v2.bind fun d => d.lookup (.json (cx.chainString c))) ≠ none ↔
        (disk.v2.bind fun d => d.lookup (.json (cx.chainString c))) ≠ none ∨
          c = c' ∧ (outcome c).renames = true := by
    intro disk data c'
    rw [write, lookup_writeRename]
    by_cases hc : c = c'
    · subst hc
      by_cases hr : (outcome c).renames = true <;> simp [hr]
    · have hne : FileName.json (cx.chainString c) ≠ .json (cx.chainString c') :=
        fun e => hc (hcx.chainString_inj (FileName.json.inj e))
      simp [hc, hne]
  induction order generalizing disk with
  | nil => simp [visited, writeAll]
  | cons c' order ih =>
    have hw := hwrite disk ((chains.lookup c').getD ∅) c'
    rcases writeAll_cons cx chains outcome c' order disk with ⟨-, hvis, he⟩ | ⟨-, hvis, he⟩
    · have hrest := ih (write cx disk ((chains.lookup c').getD ∅) c' (outcome c')).2
      rw [he, hvis, List.mem_cons]
      tauto
    · rw [he, hvis, List.mem_singleton]
      exact hw

omit [DecidableEq Enc] in
lemma mem_rangeOrder {order : List ChainID} {c : ChainID} : c ∈ rangeOrder chains order ↔ c ∈ chains.keys := by
  unfold rangeOrder
  split
  case isTrue h => exact h.mem_iff
  case isFalse => exact Iff.rfl

omit [DecidableEq Enc] in
lemma migrate_snd (env : StartEnv C) (disk : Disk C) :
    (migrate cx env disk chains).2 = (writeAll cx chains env.outcome (rangeOrder chains env.order) disk).2 := by
  unfold migrate
  split <;> simp [*]

omit [DecidableEq Enc] in
variable {chains} in
lemma migrate_ok {env : StartEnv C} {disk disk' : Disk C} {mem : InMemory Enc}
    (h : migrate cx env disk chains = (some (.ok mem), disk')) :
    mem = ⟨some chains⟩ ∧
      writeAll cx chains env.outcome (rangeOrder chains env.order) disk = (some (.ok ()), disk') := by
  unfold migrate at h
  split at h
  case h_1 hw =>
    obtain ⟨⟨⟩, rfl⟩ := Prod.mk.inj h
    exact ⟨rfl, hw⟩
  all_goals simp at h

lemma find_of_mem_keys {chains : ChainMap Enc} {k : Triple Enc} {wm : Watermark}
    (h : ChainMap.find chains k = some wm) : k.chain ∈ chains.keys := by
  rw [← AList.mem_keys, ← AList.lookup_isSome]
  unfold ChainMap.find at h
  cases hl : chains.lookup k.chain with
  | none => simp [hl] at h
  | some ds => rfl

variable {chains} in
lemma find_migrated (hcx : cx.Lawful) {env : StartEnv C} {disk disk' : Disk C} (hv2 : disk.v2 = none)
    (h : writeAll cx chains env.outcome (rangeOrder chains env.order) disk = (some (.ok ()), disk')) (k : Triple Enc) :
    disk'.find cx k = ChainMap.find chains k := by
  rw [find_writeAll chains env.outcome hcx _ h]
  split
  case isTrue => rfl
  case isFalse hk =>
    have hnone : ChainMap.find chains k = none := by
      by_contra hne
      obtain ⟨wm, hwm⟩ := Option.ne_none_iff_exists'.1 hne
      exact hk ((mem_rangeOrder chains).2 (find_of_mem_keys hwm))
    simp [Disk.find, hv2, hnone]

end WriteAll

end Signatory.Watermark

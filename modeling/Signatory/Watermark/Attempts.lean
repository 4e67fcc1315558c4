import Signatory.Watermark.MigratedV1

/-!
# Repeated attempts at a migration

An attempt may fail on a write or be killed; the next one decides by the mere existence of `watermark_v2` whether
to migrate.

* `filesOf_attempts`: whatever happened, the files in `watermark_v2` are files of the migration;
* `migrated_iff_firstCompletes`: a start after any attempts has everything exactly if the first of them that made
  the directory got all the files into it.
-/

namespace Signatory.Watermark

open Request Hashmap Lib.Machine

variable {Enc C : Type} [DecidableEq Enc] {PKH : Type} [ToComparable PKH Enc]

/-! ## What attempts leave behind -/

section Attempts

variable {cx : Codec Enc C} {chains : ChainMap Enc}

/-- The `.json` files of `watermark_v2` are files of a migration of `chains`. -/
def FilesOf (cx : Codec Enc C) (chains : ChainMap Enc) (disk : Disk C) : Prop :=
  ∀ stem node, (disk.v2.bind fun d => d.lookup (.json stem)) = some node →
    ∃ c data, stem = cx.chainString c ∧ chains.lookup c = some data ∧ node = .regular (cx.marshal data)

omit [DecidableEq Enc] in
lemma FilesOf.write {disk : Disk C} (h : FilesOf cx chains disk) {c : ChainID} (hc : c ∈ chains.keys)
    (o : Outcome C) : FilesOf cx chains (write cx disk ((chains.lookup c).getD ∅) c o).2 := by
  intro stem node hnode
  rw [Watermark.write, lookup_writeRename] at hnode
  split at hnode
  case isTrue hpath =>
    obtain ⟨data, hdata⟩ := Option.isSome_iff_exists.1 (AList.lookup_isSome.2 hc)
    refine ⟨c, data, FileName.json.inj hpath.2, hdata, ?_⟩
    rw [hdata] at hnode
    exact (Option.some.inj hnode).symm
  case isFalse => exact h stem node hnode

omit [DecidableEq Enc] in
/-- However far the loop gets, it leaves only files of the migration. -/
theorem FilesOf.writeAll {disk : Disk C} (h : FilesOf cx chains disk) (outcome : ChainID → Outcome C)
    (order : List ChainID) (hord : ∀ c ∈ order, c ∈ chains.keys) :
    FilesOf cx chains (writeAll cx chains outcome order disk).2 := by
  induction order generalizing disk with
  | nil => exact h
  | cons c order ih =>
    have hw := h.write (hord c List.mem_cons_self) (outcome c)
    rcases writeAll_cons cx chains outcome c order disk with ⟨-, -, he⟩ | ⟨-, -, he⟩
    · rw [he]
      exact ih hw fun c' hc' => hord c' (List.mem_cons_of_mem _ hc')
    · rw [he]
      exact hw

variable (PKH) (cx) in
/-- One attempt to start. -/
def attempt (disk : Disk C) (env : StartEnv C) : Option (Except Err (InMemory Enc)) × Disk C :=
  NewFileWatermark PKH cx env disk

/-- The chain `c` carries a watermark. -/
def Carries (chains : ChainMap Enc) (c : ChainID) : Prop :=
  ∃ pkh kind wm, ChainMap.find chains ⟨c, pkh, kind⟩ = some wm

variable (cx) in
/-- There is no `watermark_v2`, or it has a file for every chain that carries a watermark. -/
def Complete (chains : ChainMap Enc) (disk : Disk C) : Prop :=
  disk.v2 = none ∨ ∀ c, Carries chains c → (disk.v2.bind fun d => d.lookup (.json (cx.chainString c))) ≠ none

omit [DecidableEq Enc] in
variable (cx) in
lemma legacy_dirs_write (disk : Disk C) (data : DelegateMap Enc) (c : ChainID) (o : Outcome C) :
    (write cx disk data c o).2.v0 = disk.v0 ∧ (write cx disk data c o).2.v1 = disk.v1 := by
  unfold write
  cases o.stage <;> exact ⟨rfl, rfl⟩

omit [DecidableEq Enc] in
lemma legacy_dirs_writeAll (outcome : ChainID → Outcome C) (order : List ChainID) (disk : Disk C) :
    (writeAll cx chains outcome order disk).2.v0 = disk.v0 ∧
      (writeAll cx chains outcome order disk).2.v1 = disk.v1 := by
  induction order generalizing disk with
  | nil => exact ⟨rfl, rfl⟩
  | cons c order ih =>
    have hw := legacy_dirs_write cx disk ((chains.lookup c).getD ∅) c (outcome c)
    rcases writeAll_cons cx chains outcome c order disk with ⟨-, -, he⟩ | ⟨-, -, he⟩
    · rw [he, (ih _).1, (ih _).2]
      exact hw
    · rw [he]
      exact hw

lemma legacy_congr {disk disk' : Disk C} (h : disk'.v0 = disk.v0 ∧ disk'.v1 = disk.v1) :
    legacy PKH cx disk' = legacy PKH cx disk := by
  unfold legacy tryV1 tryV0
  rw [h.1, h.2]

/-- **Whatever the attempts did**, the legacy data are still there and the files of `watermark_v2` are files of
their migration. -/
theorem filesOf_attempts (hcx : cx.Lawful) {disk : Disk C} (hv2 : disk.v2 = none)
    (hleg : legacy PKH cx disk = some chains) (attempts : List (StartEnv C)) :
    legacy PKH cx (final (attempt PKH cx) disk attempts) = some chains ∧
      FilesOf cx chains (final (attempt PKH cx) disk attempts) := by
  refine inv_final (I := fun d => legacy PKH cx d = some chains ∧ FilesOf cx chains d) ⟨hleg, ?_⟩ ?_ attempts
  · intro stem node h
    simp [hv2] at h
  · rintro d env ⟨hd, hfiles⟩
    unfold attempt
    by_cases hdv2 : d.v2 = none
    · rcases newFile_of_no_v2 PKH env hdv2 with ⟨hsame, -⟩ | ⟨chains', hreads, hmig⟩
      · rw [hsame]
        exact ⟨hd, hfiles⟩
      · obtain rfl : chains' = chains := Option.some.inj (hreads.legacy_eq.symm.trans hd)
        rw [hmig, migrate_snd]
        refine ⟨(legacy_congr (legacy_dirs_writeAll _ _ d)).trans hd, ?_⟩
        exact hfiles.writeAll env.outcome _ fun c hc => (mem_rangeOrder chains').1 hc
    · rw [(newFile_of_v2 PKH env hcx hdv2).1]
      exact ⟨hd, hfiles⟩

lemma FilesOf.find (hcx : cx.Lawful) {disk : Disk C} (h : FilesOf cx chains disk) {k : Triple Enc}
    (hfile : (disk.v2.bind fun d => d.lookup (.json (cx.chainString k.chain))) ≠ none) :
    disk.find cx k = ChainMap.find chains k := by
  obtain ⟨node, hnode⟩ := Option.ne_none_iff_exists'.1 hfile
  obtain ⟨c, data, hstem, hdata, rfl⟩ := h _ _ hnode
  obtain rfl := hcx.chainString_inj hstem
  obtain ⟨ds, hds, hfind⟩ := hcx.roundTrip data
  simp [Disk.find, hnode, Node.decoded, hds, hfind, ChainMap.find, hdata]

/-- A start that returns a store has loaded every watermark of the legacy data exactly if the attempts before it
left no `watermark_v2` behind, or one with the files of all chains that carry a watermark. -/
theorem loaded_iff_complete (hcx : cx.Lawful) {disk : Disk C} (hv2 : disk.v2 = none)
    (hleg : legacy PKH cx disk = some chains) (attempts : List (StartEnv C)) {env : StartEnv C}
    {mem : InMemory Enc}
    (hok : (attempt PKH cx (final (attempt PKH cx) disk attempts) env).1 = some (.ok mem)) :
    (∀ k wm, ChainMap.find chains k = some wm → mem.lookup k = some wm) ↔
      Complete cx chains (final (attempt PKH cx) disk attempts) := by
  obtain ⟨hleg', hfiles⟩ := filesOf_attempts hcx hv2 hleg attempts
  generalize final (attempt PKH cx) disk attempts = d at hok hleg' hfiles
  by_cases hdv2 : d.v2 = none
  · -- this attempt migrates, and keeps in memory what it has read
    have hmem : mem = ⟨some chains⟩ := by
      rcases newFile_of_no_v2 PKH env hdv2 with ⟨-, -, hnone⟩ | ⟨chains', hreads, hmig⟩
      · rw [(hnone mem hok).2] at hleg'
        cases hleg'
      · obtain rfl : chains' = chains := Option.some.inj (hreads.legacy_eq.symm.trans hleg')
        unfold attempt at hok
        rw [hmig] at hok
        exact (migrate_ok (Prod.ext hok rfl)).1
    subst hmem
    exact ⟨fun _ => Or.inl hdv2, fun _ k wm h => h⟩
  · -- this attempt only loads
    have hmem := (newFile_of_v2 PKH env hcx hdv2).2 mem hok
    constructor
    · rintro hall
      refine Or.inr fun c hc => ?_
      obtain ⟨pkh, kind, wm, hwm⟩ := hc
      have hfind := hall _ _ hwm
      rw [hmem] at hfind
      intro hnone
      simp [Disk.find, hnone] at hfind
    · rintro (hnone | hcomplete) k wm hwm
      · exact absurd hnone hdv2
      · rw [hmem, hfiles.find hcx (hcomplete k.chain ⟨k.pkh, k.kind, wm, hwm⟩), hwm]

/-! ## Which attempts do harm -/

variable (PKH) (cx) in
/-- The attempt makes `watermark_v2`. -/
def MakesDir (disk : Disk C) (chains : ChainMap Enc) (env : StartEnv C) : Prop :=
  Reads PKH cx env disk chains ∧
    ∃ c ∈ visited env.outcome (rangeOrder chains env.order), (env.outcome c).makesDir = true

/-- The attempt gets the file of the chain `c` into place. -/
def Renames (chains : ChainMap Enc) (env : StartEnv C) (c : ChainID) : Prop :=
  c ∈ visited env.outcome (rangeOrder chains env.order) ∧ (env.outcome c).renames = true

variable (PKH) (cx) in
/-- The first attempt that makes `watermark_v2`, if there is one, gets the file of every chain that carries a
watermark into place. -/
def FirstCompletes (disk : Disk C) (chains : ChainMap Enc) : List (StartEnv C) → Prop
  | [] => True
  | env :: attempts =>
    (MakesDir PKH cx disk chains env → ∀ c, Carries chains c → Renames chains env c) ∧
      (¬ MakesDir PKH cx disk chains env → FirstCompletes disk chains attempts)

lemma attempts_of_v2 (hcx : cx.Lawful) {disk : Disk C} (hv2 : disk.v2 ≠ none) (attempts : List (StartEnv C)) :
    final (attempt PKH cx) disk attempts = disk := by
  refine inv_final (I := fun d => d = disk) rfl ?_ attempts
  rintro d env rfl
  exact (newFile_of_v2 PKH env hcx hv2).1

lemma attempt_of_makesDir {disk : Disk C} (hv2 : disk.v2 = none) {env : StartEnv C}
    (h : MakesDir PKH cx disk chains env) :
    (attempt PKH cx disk env).2 =
      (writeAll cx chains env.outcome (rangeOrder chains env.order) disk).2 := by
  rcases newFile_of_no_v2 PKH env hv2 with ⟨-, hno, -⟩ | ⟨chains', hreads, hmig⟩
  · exact absurd h.1 (hno chains)
  · obtain rfl : chains' = chains := Option.some.inj (hreads.legacy_eq.symm.trans h.1.legacy_eq)
    rw [attempt, hmig, migrate_snd]

lemma attempt_of_not_makesDir {disk : Disk C} (hv2 : disk.v2 = none) (hleg : legacy PKH cx disk = some chains)
    {env : StartEnv C} (h : ¬ MakesDir PKH cx disk chains env) : (attempt PKH cx disk env).2 = disk := by
  rcases newFile_of_no_v2 PKH env hv2 with ⟨hsame, -⟩ | ⟨chains', hreads, hmig⟩
  · exact hsame
  · obtain rfl : chains' = chains := Option.some.inj (hreads.legacy_eq.symm.trans hleg)
    rw [attempt, hmig, migrate_snd, writeAll_of_not_makesDir]
    intro c hc
    by_contra hmk
    exact h ⟨hreads, c, hc, by simpa using hmk⟩

theorem complete_iff_firstCompletes (hcx : cx.Lawful) {disk : Disk C} (hv2 : disk.v2 = none)
    (hleg : legacy PKH cx disk = some chains) (attempts : List (StartEnv C)) :
    Complete cx chains (final (attempt PKH cx) disk attempts) ↔ FirstCompletes PKH cx disk chains attempts := by
  induction attempts with
  | nil => exact ⟨fun _ => trivial, fun _ => Or.inl hv2⟩
  | cons env attempts ih =>
    rw [final_cons]
    unfold FirstCompletes
    by_cases hmk : MakesDir PKH cx disk chains env
    · -- from here on every attempt only loads
      have hd : (writeAll cx chains env.outcome (rangeOrder chains env.order) disk).2.v2 ≠ none :=
        v2_writeAll chains env.outcome _ (Or.inr hmk.2)
      rw [attempt_of_makesDir hv2 hmk, attempts_of_v2 hcx hd]
      simp only [hmk, not_true, false_implies, and_true, true_implies, Complete, hd, false_or]
      refine forall_congr' fun c => imp_congr_right fun _ => ?_
      have hfile := file_writeAll chains env.outcome hcx (rangeOrder chains env.order) disk c
      simpa [hv2, Renames] using hfile
    · rw [attempt_of_not_makesDir hv2 hleg hmk, ih]
      simp [hmk]

/-- **When a migration survives failed attempts.**  After any attempts, a start that returns a store has loaded
every watermark of the legacy data if and only if the first of them that made `watermark_v2`, if there was one,
got the file of every chain that carries a watermark into place. -/
theorem migrated_iff_firstCompletes (hcx : cx.Lawful) {disk : Disk C} (hv2 : disk.v2 = none)
    (hleg : legacy PKH cx disk = some chains) (attempts : List (StartEnv C)) {env : StartEnv C}
    {mem : InMemory Enc}
    (hok : (attempt PKH cx (final (attempt PKH cx) disk attempts) env).1 = some (.ok mem)) :
    (∀ k wm, ChainMap.find chains k = some wm → mem.lookup k = some wm) ↔
      FirstCompletes PKH cx disk chains attempts :=
  (loaded_iff_complete hcx hv2 hleg attempts hok).trans (complete_iff_firstCompletes hcx hv2 hleg attempts)

/-- A start whose first write ends with `o`. -/
def startWriting (o : Outcome C) : StartEnv C := { (smoothStart : StartEnv C) with outcome := fun _ => o }

end Attempts

/-- An attempt that could not even make the directory does no harm. -/
theorem migrated_iff_firstCompletes_start :
    ∃ mem, (attempt EncodedPublicKeyHash (Codec.unary _)
        (final (attempt EncodedPublicKeyHash (Codec.unary _)) (v1Disk ⟨10, none, 0, some 7⟩)
          [startWriting (.fails .start)]) smoothStart).1 = some (.ok mem) ∧
      mem.lookup ⟨0, 0, "block"⟩ = some ⟨10, 0, some 7⟩ := by
  have hleg : legacy EncodedPublicKeyHash (Codec.unary _) (v1Disk ⟨10, none, 0, some 7⟩) = some _ := rfl
  have hok : (attempt EncodedPublicKeyHash (Codec.unary _)
      (final (attempt EncodedPublicKeyHash (Codec.unary _)) (v1Disk ⟨10, none, 0, some 7⟩)
        [startWriting (.fails .start)]) smoothStart).1 = some (.ok _) := rfl
  have h := migrated_iff_firstCompletes (Codec.unary_lawful EncodedPublicKeyHash) rfl hleg _ hok
  refine ⟨_, hok, h.2 ⟨?_, fun _ => trivial⟩ _ _ rfl⟩
  rintro ⟨-, c, -, hmk⟩
  cases hmk

/-- The first attempt made `watermark_v2` and failed to write the file.  The second one returns a store without
the watermark that the legacy directory holds. -/
theorem migration_lost_after_mkdir :
    ∃ chains mem, legacy EncodedPublicKeyHash (Codec.unary _) (v1Disk ⟨10, none, 0, some 7⟩) = some chains ∧
      ChainMap.find chains ⟨0, 0, "block"⟩ = some ⟨10, 0, some 7⟩ ∧
      (attempt EncodedPublicKeyHash (Codec.unary _) (v1Disk ⟨10, none, 0, some 7⟩)
        (startWriting (.fails .mkdir))).1 = some (.error .storage) ∧
      (attempt EncodedPublicKeyHash (Codec.unary _)
        (final (attempt EncodedPublicKeyHash (Codec.unary _)) (v1Disk ⟨10, none, 0, some 7⟩)
          [startWriting (.fails .mkdir)]) smoothStart).1 = some (.ok mem) ∧
      mem.lookup ⟨0, 0, "block"⟩ = none := by
  refine ⟨_, ⟨some ∅⟩, rfl, ?_, rfl, rfl, rfl⟩
  rfl

end Signatory.Watermark

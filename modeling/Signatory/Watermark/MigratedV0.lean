import Signatory.Watermark.Migrate

/-!
# The migration of the oldest format

The directory `watermark` keeps, in a file for each chain, a map from kinds to public key hashes to watermarks.
`NewFileWatermark` regroups it and writes it to `watermark_v2`.  What is then held for a triple, in memory and by a
later `tryLoad`, is what the old file has for it: `migrated_v0_exact`.
-/

namespace Signatory.Watermark

open Request Hashmap

variable {Enc C : Type} [DecidableEq Enc] {PKH : Type} [ToComparable PKH Enc] {cx : Codec Enc C}

/-! ## What the old directory holds -/

/-- What a file of the oldest format has for a kind and a public key hash. -/
def Node.findV0 (cx : Codec Enc C) (pkh : Enc) (kind : String) : Node C → Option Watermark
  | .regular content =>
    (cx.unmarshalV0 content).bind fun kinds => (kinds.lookup kind).bind fun delegates => delegates.lookup pkh
  | .other => none

/-- The watermark that the directory has for a triple. -/
def Dir.findV0 (cx : Codec Enc C) (dir : Dir C) (k : Triple Enc) : Option Watermark :=
  (dir.lookup (.json (cx.chainString k.chain))).bind (Node.findV0 cx k.pkh k.kind)

lemma find_tryV0 [LawfulToComparable PKH Enc] (hcx : cx.Lawful) {faults : ReadFaults} {disk : Disk C} {dir : Dir C}
    (hv0 : disk.v0 = some dir) {chains : ChainMap Enc} (h : tryV0 PKH cx faults disk = .ok (some chains))
    (k : Triple Enc) : ChainMap.find chains k = dir.findV0 cx k := by
  obtain ⟨d, hd, hlookup⟩ := lookup_loadDir hcx h k.chain
  obtain rfl : dir = d := Option.some.inj (hv0.symm.trans hd)
  unfold ChainMap.find Dir.findV0
  rw [hlookup, Dir.chain]
  cases dir.lookup (.json (cx.chainString k.chain)) with
  | none => rfl
  | some node =>
    cases node with
    | other => rfl
    | regular content =>
      show ((cx.unmarshalV0 content).map (fromV0 PKH)).bind _ = (cx.unmarshalV0 content).bind _
      cases cx.unmarshalV0 content with
      | none => rfl
      | some kinds => exact find_fromV0 kinds k.pkh k.kind

/-! ## The new directory can be read -/

section Loadable

/-- Every `.json` file of the directory is that of a chain, with content that can be decoded. -/
def Dir.Loadable (cx : Codec Enc C) (dir : Dir C) : Prop :=
  ∀ stem node, dir.lookup (.json stem) = some node →
    ∃ chain content, stem = cx.chainString chain ∧ node = .regular content ∧ cx.unmarshal content ≠ none

lemma loadEntries_ok (hcx : cx.Lawful) (entries : List (Σ _ : FileName, Node C)) (out : ChainMap Enc)
    (h : ∀ stem node, ⟨.json stem, node⟩ ∈ entries →
      ∃ chain content, stem = cx.chainString chain ∧ node = .regular content ∧ cx.unmarshal content ≠ none) :
    ∃ chains, loadEntries cx cx.unmarshal (fun _ => false) entries out = .ok chains := by
  induction entries generalizing out with
  | nil => exact ⟨out, rfl⟩
  | cons e rest ih =>
    have hrest := fun out => ih out fun stem node hmem => h stem node (List.mem_cons_of_mem _ hmem)
    rcases e with ⟨name, node⟩
    match name, node with
    | .plain name, .regular content => exact hrest out
    | .plain name, .other => exact hrest out
    | .json stem, node =>
      obtain ⟨chain, content, rfl, rfl, hdecode⟩ := h stem node List.mem_cons_self
      obtain ⟨delegates, hdelegates⟩ := Option.ne_none_iff_exists'.1 hdecode
      simp only [loadEntries, (hcx.parse_iff _ chain).2 rfl, hdelegates]
      exact hrest _

lemma tryLoad_ok (hcx : cx.Lawful) {disk : Disk C} (h : ∀ dir, disk.v2 = some dir → dir.Loadable cx) :
    ∃ r, tryLoad cx noFaults disk = .ok r := by
  unfold tryLoad loadDir
  cases hv2 : disk.v2 with
  | none => exact ⟨none, rfl⟩
  | some dir =>
    obtain ⟨chains, hchains⟩ := loadEntries_ok hcx dir.entries ∅ fun stem node hmem =>
      h dir hv2 stem node ((List.mem_dlookup_iff dir.nodupKeys).2 hmem)
    refine ⟨some chains, ?_⟩
    simp only [noFaults, Bool.false_eq_true, if_false, hchains]
    rfl

/-- A write leaves the directory loadable, wherever it stops. -/
lemma loadable_write (hcx : cx.Lawful) {disk : Disk C} (h : ∀ dir, disk.v2 = some dir → dir.Loadable cx)
    (data : DelegateMap Enc) (chain : ChainID) (o : Outcome C) :
    ∀ dir, (write cx disk data chain o).2.v2 = some dir → dir.Loadable cx := by
  intro dir hdir stem node hnode
  have hfile := lookup_writeRename disk (.json (cx.chainString chain)) (cx.marshal data) o stem
  rw [show (disk.writeRename (.json (cx.chainString chain)) (cx.marshal data) o.stage).v2 = some dir from hdir,
    Option.bind_some, hnode] at hfile
  split_ifs at hfile with hnew
  · cases hfile
    obtain ⟨ds, hds, -⟩ := hcx.roundTrip data
    exact ⟨chain, _, FileName.json.inj hnew.2, rfl, by simp [hds]⟩
  · obtain ⟨old, hold, hlookup⟩ := Option.bind_eq_some_iff.1 hfile.symm
    exact h old hold stem node hlookup

lemma loadable_writeAll (hcx : cx.Lawful) (chains : ChainMap Enc) (outcome : ChainID → Outcome C)
    (order : List ChainID) {disk : Disk C} (h : ∀ dir, disk.v2 = some dir → dir.Loadable cx) :
    ∀ dir, (writeAll cx chains outcome order disk).2.v2 = some dir → dir.Loadable cx := by
  induction order generalizing disk with
  | nil => exact h
  | cons c order ih =>
    have hwrite := loadable_write hcx h ((chains.lookup c).getD ∅) c (outcome c)
    rcases writeAll_cons cx chains outcome c order disk with ⟨-, -, he⟩ | ⟨-, -, he⟩
    · rw [he]
      exact ih hwrite
    · rw [he]
      exact hwrite

lemma lookup_tryLoad (hcx : cx.Lawful) {faults : ReadFaults} {disk : Disk C} {r : Option (ChainMap Enc)}
    (h : tryLoad cx faults disk = .ok r) (k : Triple Enc) : InMemory.lookup ⟨r⟩ k = disk.find cx k := by
  cases r with
  | none =>
    unfold Disk.find
    rw [loadDir_none h]
    rfl
  | some chains => exact find_tryLoad hcx h k

end Loadable

/-! ## The migration -/

lemma newFile_of_v0 {env : StartEnv C} {disk disk' : Disk C} {dir : Dir C} {mem : InMemory Enc}
    (hv2 : disk.v2 = none) (hv1 : disk.v1 = none) (hv0 : disk.v0 = some dir)
    (h : NewFileWatermark PKH cx env disk = (some (.ok mem), disk')) :
    ∃ chains, tryV0 PKH cx env.v0 disk = .ok (some chains) ∧
      migrate cx env disk chains = (some (.ok mem), disk') := by
  have hmissing : ∀ (decode : C → Option (DelegateMap Enc)) (faults : ReadFaults),
      loadDir cx decode faults none = if faults.readDir then .error .storage else .ok none := fun _ _ => rfl
  unfold NewFileWatermark tryLoad tryV1 at h
  rw [hv2, hv1, hmissing, hmissing] at h
  cases hload : env.load.readDir with
  | true => simp [hload] at h
  | false =>
    cases hread : env.v1.readDir with
    | true => simp [hload, hread] at h
    | false =>
      simp only [hload, hread, Bool.false_eq_true, if_false] at h
      cases htry : tryV0 PKH cx env.v0 disk with
      | error e => simp [htry] at h
      | ok r =>
        cases r with
        | none =>
          rw [loadDir_none htry] at hv0
          cases hv0
        | some chains =>
          rw [htry] at h
          exact ⟨chains, rfl, h⟩

/-- **The oldest format is migrated exactly.**  Whatever the directory `watermark` contains: after a start that migrates
it without an error, the map in memory has for each chain, public key hash and kind what the file of the chain had, and
nothing else.  The directory `watermark_v2` can be read, and any read that succeeds has the same. -/
theorem migrated_v0_exact [LawfulToComparable PKH Enc] (hcx : cx.Lawful) {env : StartEnv C} {disk disk' : Disk C}
    {dir : Dir C} {mem : InMemory Enc} (hv2 : disk.v2 = none) (hv1 : disk.v1 = none) (hv0 : disk.v0 = some dir)
    (h : NewFileWatermark PKH cx env disk = (some (.ok mem), disk')) :
    (∀ k, mem.lookup k = dir.findV0 cx k) ∧ (∃ r, tryLoad cx noFaults disk' = .ok r) ∧
      ∀ faults r, tryLoad cx faults disk' = .ok r → ∀ k, InMemory.lookup ⟨r⟩ k = dir.findV0 cx k := by
  obtain ⟨chains, htry, hmigrate⟩ := newFile_of_v0 hv2 hv1 hv0 h
  obtain ⟨rfl, hw⟩ := migrate_ok hmigrate
  have hfind := find_tryV0 hcx hv0 htry
  refine ⟨hfind, tryLoad_ok hcx ?_, ?_⟩
  · have hdisk : disk' = (writeAll cx chains env.outcome (rangeOrder chains env.order) disk).2 := by rw [hw]
    rw [hdisk]
    refine loadable_writeAll hcx chains env.outcome _ ?_
    intro d hd
    rw [hv2] at hd
    cases hd
  · intro faults r hload k
    rw [lookup_tryLoad hcx hload, find_migrated hcx hv2 hw, hfind]

/-- An old directory with one chain, where two keys have signed blocks and one of them an attestation. -/
def v0Dir : Dir (Content EncodedPublicKeyHash) :=
  AList.singleton (.json "") (.regular (.v0 (AList.insert "block"
    (AList.insert 1 ⟨11, 0, some 8⟩ (AList.singleton 0 ⟨10, 0, some 7⟩))
    (AList.singleton "attestation" (AList.singleton 0 ⟨9, 2, none⟩)))))

theorem migrated_v0_exact_two_keys : ∃ mem disk' r,
    NewFileWatermark EncodedPublicKeyHash (Codec.unary _) smoothStart ⟨some v0Dir, none, none⟩ =
        (some (.ok mem), disk') ∧
      tryLoad (Codec.unary _) noFaults disk' = .ok r ∧
      mem.lookup ⟨0, 0, "attestation"⟩ = some ⟨9, 2, none⟩ ∧
      InMemory.lookup ⟨r⟩ ⟨0, 0, "attestation"⟩ = some ⟨9, 2, none⟩ ∧
      InMemory.lookup ⟨r⟩ ⟨0, 1, "attestation"⟩ = none := by
  have hstart : NewFileWatermark EncodedPublicKeyHash (Codec.unary _) smoothStart ⟨some v0Dir, none, none⟩ =
      (some (.ok _), _) := rfl
  obtain ⟨hmem, ⟨r, hr⟩, hload⟩ :=
    migrated_v0_exact (Codec.unary_lawful EncodedPublicKeyHash) rfl rfl rfl hstart
  exact ⟨_, _, r, hstart, hr, (hmem _).trans (by decide), (hload _ r hr _).trans (by decide),
    (hload _ r hr _).trans (by decide)⟩

end Signatory.Watermark

import Signatory.Watermark.Mem

/-!
# The directories of the file watermark

What `watermark/file.go` and `watermark/migration.go` do to the disk, and how it may go wrong.  A directory
maps names to nodes; of a name only the `.json` suffix and what stands before it matter.

A write makes the directory, fills a temporary file and renames it (`utils.WriteRename`).  `Outcome` says how
one write ends: it succeeds, or it stops at a `Stage`, either with an error that is reported or because the
process is killed there.  An error at the stage `renamed` is one of `Close`, after the file is in place.  The
temporary file of a failed write is left behind.  A read fails where `ReadFaults` says so.

The texts of chain IDs and the contents of files come from gotez and `encoding/json` and are the parameter
`Codec`; `Codec.Lawful` is what is assumed of them.

* `lookup_loadDir`: what a directory without faults holds for a chain;
* `find_write`: after a write, whatever its outcome, the disk holds the new data for the chain if the
  rename was reached, and what it held before otherwise.
-/

namespace Signatory.Watermark

open Request Hashmap

/-- `v1Watermark` of `migration.go`. -/
structure V1Watermark where
  level : Int32
  round : Option Int32
  order : ℤ
  hash : Option Digest
  deriving DecidableEq, Repr

/-- Chain IDs as text (`String`, `b58.ParseChainID`) and maps as file contents of type `C`
(`json.MarshalIndent`, `json.Decoder.Decode`). -/
structure Codec (Enc C : Type) where
  chainString : ChainID → String
  parseChainID : String → Option ChainID
  marshal : DelegateMap Enc → C
  unmarshal : C → Option (DelegateMap Enc)
  unmarshalV0 : C → Option (GoMap String (HashMap Enc Watermark))
  unmarshalV1 : C → Option (HashMap Enc V1Watermark)

/-! ## The file system -/

/-- The name of a directory entry: one with the suffix `.json`, or any other. -/
inductive FileName where
  | json (stem : String)
  | plain (name : String)
  deriving DecidableEq, Repr

/-- A regular file, or something else. -/
inductive Node (C : Type) where
  | regular (content : C)
  | other

abbrev Dir (C : Type) := GoMap FileName (Node C)

/-- The directories `watermark`, `watermark_v1` and `watermark_v2`; `none` is one that does not exist. -/
structure Disk (C : Type) where
  v0 : Option (Dir C)
  v1 : Option (Dir C)
  v2 : Option (Dir C)

/-- How far a write got; `temp` has a temporary file with some content. -/
inductive Stage (C : Type) where
  | start
  | mkdir
  | temp (rand : ℕ) (part : C)
  | renamed

inductive Outcome (C : Type) where
  | ok
  | fails (stage : Stage C)
  | killed (stage : Stage C)

namespace Outcome

variable {C : Type}

/-- What the caller is told; nothing when the process is gone. -/
def reply : Outcome C → Option (Except Err Unit)
  | .ok => some (.ok ())
  | .fails _ => some (.error .storage)
  | .killed _ => none

def stage : Outcome C → Stage C
  | .ok => .renamed
  | .fails stage | .killed stage => stage

/-- Whether the directory has been made. -/
def makesDir (o : Outcome C) : Bool :=
  match o.stage with
  | .start => false
  | _ => true

/-- Whether the new file is in place. -/
def renames (o : Outcome C) : Bool :=
  match o.stage with
  | .renamed => true
  | _ => false

end Outcome

section Write

variable {Enc C : Type}

/-- `MkdirAll` and `WriteRename`, up to a stage.  `CreateTemp` puts digits behind the name, so the temporary
file has no suffix `.json`. -/
def Disk.writeRename (disk : Disk C) (path : FileName) (data : C) : Stage C → Disk C
  | .start => disk
  | .mkdir => { disk with v2 := some (disk.v2.getD ∅) }
  | .temp rand part =>
    { disk with v2 := some ((disk.v2.getD ∅).insert (.plain s!"watermark{rand}") (.regular part)) }
  | .renamed => { disk with v2 := some ((disk.v2.getD ∅).insert path (.regular data)) }

/-- `write`, with the instrumentation of `writeWatermarkData` left out. -/
def write (cx : Codec Enc C) (disk : Disk C) (data : DelegateMap Enc) (chain : ChainID) (o : Outcome C) :
    Option (Except Err Unit) × Disk C :=
  (o.reply, disk.writeRename (.json (cx.chainString chain)) (cx.marshal data) o.stage)

/-- `writeAll`, which visits the chains in the order given by `order`. -/
def writeAll (cx : Codec Enc C) (chains : ChainMap Enc) (outcome : ChainID → Outcome C) :
    List ChainID → Disk C → Option (Except Err Unit) × Disk C
  | [], disk => (some (.ok ()), disk)
  | chain :: order, disk =>
    let data := (chains.lookup chain).getD ∅
    match write cx disk data chain (outcome chain) with
    | (some (.ok ()), disk') => writeAll cx chains outcome order disk'
    | (reply, disk') => (reply, disk')

end Write

/-! ## Reading a directory -/

/-- Which steps of a read fail: listing the directory, or opening, reading or closing a file. -/
structure ReadFaults where
  readDir : Bool
  file : FileName → Bool

section Load

variable {Enc C : Type} (cx : Codec Enc C)

/-- The loop over the entries that `tryLoad`, `tryV0` and `tryV1` share; `decode` reads one file. -/
def loadEntries (decode : C → Option (DelegateMap Enc)) (fails : FileName → Bool) :
    List (Σ _ : FileName, Node C) → ChainMap Enc → Except Err (ChainMap Enc)
  | [], out => .ok out
  | ⟨.json stem, .regular content⟩ :: rest, out =>
    match cx.parseChainID stem, fails (.json stem), decode content with
    | some chainID, false, some delegates => loadEntries decode fails rest (out.insert chainID delegates)
    | _, _, _ => .error .storage
  | _ :: rest, out => loadEntries decode fails rest out

/-- A directory that does not exist is no error, and no data. -/
def loadDir (decode : C → Option (DelegateMap Enc)) (faults : ReadFaults) (dir : Option (Dir C)) :
    Except Err (Option (ChainMap Enc)) :=
  if faults.readDir then .error .storage
  else match dir with
    | none => .ok none
    | some d => (loadEntries cx decode faults.file d.entries ∅).map some

/-- `tryLoad`. -/
def tryLoad (faults : ReadFaults) (disk : Disk C) : Except Err (Option (ChainMap Enc)) :=
  loadDir cx cx.unmarshal faults disk.v2

end Load

/-! ## What a directory holds -/

section Lookup

variable {Enc C : Type} [DecidableEq Enc]

/-- A chain ID has one text, and a map survives the round trip through a file: the same watermarks are found
in it. -/
structure Codec.Lawful (cx : Codec Enc C) : Prop where
  parse_iff : ∀ s c, cx.parseChainID s = some c ↔ s = cx.chainString c
  roundTrip : ∀ ds, ∃ ds', cx.unmarshal (cx.marshal ds) = some ds' ∧
    ∀ pkh kind, DelegateMap.find ds' pkh kind = DelegateMap.find ds pkh kind

/-- What a file holds. -/
def Node.decoded (decode : C → Option (DelegateMap Enc)) : Node C → Option (DelegateMap Enc)
  | .regular content => decode content
  | .other => none

/-- What a directory holds for a chain. -/
def Dir.chain (cx : Codec Enc C) (decode : C → Option (DelegateMap Enc)) (dir : Dir C) (c : ChainID) :
    Option (DelegateMap Enc) :=
  (dir.lookup (.json (cx.chainString c))).bind (Node.decoded decode)

variable {cx : Codec Enc C} {decode : C → Option (DelegateMap Enc)}

lemma Codec.Lawful.chainString_inj (hcx : cx.Lawful) {c c' : ChainID}
    (h : cx.chainString c = cx.chainString c') : c = c' := by
  have hc := (hcx.parse_iff _ c).2 rfl
  rw [h, (hcx.parse_iff _ c').2 rfl] at hc
  exact (Option.some.inj hc).symm

/-- The loop takes the file of a chain, if there is one, and keeps what it had otherwise. -/
lemma lookup_loadEntries (hcx : cx.Lawful) {fails : FileName → Bool} {c : ChainID}
    (entries : List (Σ _ : FileName, Node C)) {out chains : ChainMap Enc} (hnd : entries.NodupKeys)
    (h : loadEntries cx decode fails entries out = .ok chains) :
    chains.lookup c =
      ((entries.dlookup (.json (cx.chainString c))).bind (Node.decoded decode)).or (out.lookup c) := by
  induction entries generalizing out with
  | nil =>
    obtain rfl := Except.ok.inj h
    simp
  | cons e rest ih =>
    obtain ⟨hfresh, hnd'⟩ := List.nodupKeys_cons.1 hnd
    rcases e with ⟨name, node⟩
    -- every entry but a regular `.json` file is skipped, and holds nothing for the chain
    have hskip : loadEntries cx decode fails rest out = .ok chains →
        (name = .json (cx.chainString c) → node.decoded decode = none) →
        chains.lookup c =
          (((⟨name, node⟩ :: rest).dlookup (.json (cx.chainString c))).bind (Node.decoded decode)).or
            (out.lookup c) := by
      intro h' hnone
      rw [ih hnd' h']
      by_cases hn : name = .json (cx.chainString c)
      · subst hn
        rw [List.dlookup_cons_eq, List.dlookup_eq_none.2 hfresh]
        simp [hnone rfl]
      · rw [List.dlookup_cons_ne _ _ (Ne.symm hn)]
    match name, node, h with
    | .plain name, .regular content, h => exact hskip h (by simp)
    | .plain name, .other, h => exact hskip h (by simp)
    | .json stem, .other, h => exact hskip h (fun _ => rfl)
    | .json stem, .regular content, h =>
      simp only [loadEntries] at h
      split at h
      case h_2 => cases h
      case h_1 chainID delegates hparse hread hdecode =>
        obtain rfl := (hcx.parse_iff _ _).1 hparse
        rw [ih hnd' h, GoMap.lookup_set]
        by_cases hc : c = chainID
        · subst hc
          rw [List.dlookup_cons_eq, List.dlookup_eq_none.2 hfresh]
          simp [Node.decoded, hdecode]
        · have hne : FileName.json (cx.chainString c) ≠ .json (cx.chainString chainID) := by
            intro e
            exact hc (hcx.chainString_inj (FileName.json.inj e))
          rw [List.dlookup_cons_ne _ _ hne, if_neg hc]

/-- **What is loaded** for a chain is what its file holds. -/
theorem lookup_loadDir (hcx : cx.Lawful) {faults : ReadFaults} {dir : Option (Dir C)} {chains : ChainMap Enc}
    (h : loadDir cx decode faults dir = .ok (some chains)) (c : ChainID) :
    ∃ d, dir = some d ∧ chains.lookup c = d.chain cx decode c := by
  unfold loadDir at h
  split at h
  · cases h
  · cases dir with
    | none => cases h
    | some d =>
      refine ⟨d, rfl, ?_⟩
      cases hl : loadEntries cx decode faults.file d.entries ∅ with
      | error e => simp [hl, Except.map] at h
      | ok chains' =>
        obtain rfl : chains' = chains := by simpa [hl, Except.map] using h
        rw [lookup_loadEntries hcx d.entries d.nodupKeys hl, AList.lookup_empty, Option.or_none]
        rfl

omit [DecidableEq Enc] in
lemma loadDir_none {faults : ReadFaults} {dir : Option (Dir C)}
    (h : loadDir cx decode faults dir = .ok none) : dir = none := by
  unfold loadDir at h
  split at h
  · cases h
  · cases dir with
    | none => rfl
    | some d =>
      cases hl : loadEntries cx decode faults.file d.entries ∅ <;> simp [hl, Except.map] at h

/-! ## What the disk holds for a triple -/

omit [DecidableEq Enc] in
/-- A write touches the file it renames, and no other `.json` file. -/
lemma lookup_writeRename (disk : Disk C) (path : FileName) (data : C) (o : Outcome C) (stem : String) :
    (disk.writeRename path data o.stage).v2.bind (fun d => d.lookup (.json stem)) =
      if o.renames = true ∧ .json stem = path then some (.regular data)
      else disk.v2.bind fun d => d.lookup (.json stem) := by
  have hdir : (disk.v2.getD ∅).lookup (.json stem) = disk.v2.bind fun d => d.lookup (.json stem) := by
    cases disk.v2 <;> rfl
  unfold Outcome.renames
  cases o.stage with
  | start => simp [Disk.writeRename]
  | mkdir => simp [Disk.writeRename, hdir]
  | temp rand part => simp [Disk.writeRename, hdir]
  | renamed => simp [Disk.writeRename, GoMap.lookup_set, hdir]

variable (cx) in
/-- The watermark that the next start would load for a triple. -/
def Disk.find (disk : Disk C) (k : Triple Enc) : Option Watermark :=
  ((disk.v2.bind fun d => d.lookup (.json (cx.chainString k.chain))).bind (Node.decoded cx.unmarshal)).bind
    fun ds => DelegateMap.find ds k.pkh k.kind

lemma find_tryLoad (hcx : cx.Lawful) {faults : ReadFaults} {disk : Disk C} {chains : ChainMap Enc}
    (h : tryLoad cx faults disk = .ok (some chains)) (k : Triple Enc) :
    ChainMap.find chains k = disk.find cx k := by
  obtain ⟨d, hd, hlookup⟩ := lookup_loadDir hcx h k.chain
  simp only [ChainMap.find, Disk.find, hd, hlookup, Dir.chain, Option.bind_some]

lemma Outcome.makesDir_of_renames {o : Outcome C} (h : o.renames = true) : o.makesDir = true := by
  unfold Outcome.renames at h
  unfold Outcome.makesDir
  cases hs : o.stage <;> simp_all

section MakesDir

variable {disk : Disk C} {o : Outcome C} (data : DelegateMap Enc) (chain : ChainID)

omit [DecidableEq Enc] in
lemma write_of_not_makesDir (h : o.makesDir = false) : (write cx disk data chain o).2 = disk := by
  unfold Outcome.makesDir at h
  unfold write
  cases hs : o.stage <;> simp_all [Disk.writeRename]

omit [DecidableEq Enc] in
lemma v2_write (h : disk.v2 ≠ none ∨ o.makesDir = true) : (write cx disk data chain o).2.v2 ≠ none := by
  unfold Outcome.makesDir at h
  unfold write
  cases hs : o.stage <;> simp_all [Disk.writeRename]

end MakesDir

/-- **A write changes the disk at the rename, and nowhere else.** -/
theorem find_write (hcx : cx.Lawful) (disk : Disk C) (data : DelegateMap Enc) (chain : ChainID)
    (o : Outcome C) (k : Triple Enc) :
    (write cx disk data chain o).2.find cx k =
      if o.renames = true ∧ k.chain = chain then DelegateMap.find data k.pkh k.kind else disk.find cx k := by
  have hchain : FileName.json (cx.chainString k.chain) = .json (cx.chainString chain) ↔ k.chain = chain :=
    ⟨fun e => hcx.chainString_inj (FileName.json.inj e), fun e => by rw [e]⟩
  unfold Disk.find write
  rw [lookup_writeRename]
  simp only [hchain]
  split
  · obtain ⟨ds, hds, hfind⟩ := hcx.roundTrip data
    simp [Node.decoded, hds, hfind]
  · rfl

end Lookup

/-! ## A codec that is lawful -/

/-- File contents that are the maps themselves. -/
inductive Content (Enc : Type) where
  | v2 (delegates : DelegateMap Enc)
  | v1 (delegates : HashMap Enc V1Watermark)
  | v0 (kinds : GoMap String (HashMap Enc Watermark))

/-- Chain IDs in unary, and file contents as they are. -/
def Codec.unary (Enc : Type) : Codec Enc (Content Enc) where
  chainString c := String.ofList (List.replicate c.toNat 'x')
  parseChainID s :=
    let c := BitVec.ofNat 32 s.length
    if s = String.ofList (List.replicate c.toNat 'x') then some c else none
  marshal := .v2
  unmarshal | .v2 delegates => some delegates | _ => none
  unmarshalV0 | .v0 kinds => some kinds | _ => none
  unmarshalV1 | .v1 delegates => some delegates | _ => none

lemma Codec.unary_lawful (Enc : Type) [DecidableEq Enc] : (Codec.unary Enc).Lawful := by
  refine ⟨fun s c => ?_, fun ds => ⟨ds, rfl, fun _ _ => rfl⟩⟩
  simp only [Codec.unary, Option.ite_none_right_eq_some, Option.some.injEq]
  constructor
  · rintro ⟨h, rfl⟩
    exact h
  · rintro rfl
    simp

end Signatory.Watermark

import Signatory.Watermark.Legacy

/-!
# `watermark/file.go`: the store on disk

`NewFileWatermark` loads `watermark_v2`, or migrates an older directory if it does not exist;
`File.IsSafeToSign` validates in memory and then writes the file of the chain.  A system (`Sys`) is the disk
and the process that may be running on it.  It takes three inputs: a start, a call with the outcome of its
write, and a kill.  A reply is `none` when there is no process to give it, or none is left.

Memory is changed before the disk is, and a write stores everything memory holds for a chain, so neither
follows the other exactly.  The two lemmas on which the claims about runs rest say how they move:

* `newFile_of_v2`: a start on an existing `watermark_v2` writes nothing and loads what the disk holds;
* `call_cases`: what a call does to memory and to the disk.
-/

namespace Signatory.Watermark

open Request Hashmap Lib.Machine

/-- What the system does to one start: the faults of its reads, the order in which `writeAll` visits the
chains, and the outcome of each write. -/
structure StartEnv (C : Type) where
  load : ReadFaults
  v1 : ReadFaults
  v0 : ReadFaults
  stat0 : Bool
  stat1 : Bool
  order : List ChainID
  outcome : ChainID → Outcome C

section Model

variable {Enc C : Type} [DecidableEq Enc] (PKH : Type) [ToComparable PKH Enc] (cx : Codec Enc C)

/-- A `range` loop visits the keys in any order. -/
def rangeOrder (chains : ChainMap Enc) (order : List ChainID) : List ChainID :=
  if order.Perm chains.keys then order else chains.keys

/-- The end of the migration: write everything. -/
def migrate (env : StartEnv C) (disk : Disk C) (chains : ChainMap Enc) :
    Option (Except Err (InMemory Enc)) × Disk C :=
  match writeAll cx chains env.outcome (rangeOrder chains env.order) disk with
  | (some (.ok ()), disk') => (some (.ok ⟨some chains⟩), disk')
  | (some (.error e), disk') => (some (.error e), disk')
  | (none, disk') => (none, disk')

def NewFileWatermark (env : StartEnv C) (disk : Disk C) : Option (Except Err (InMemory Enc)) × Disk C :=
  match tryLoad cx env.load disk with
  | .error e => (some (.error e), disk)
  | .ok (some chains) =>
    -- load ok; that legacy data still exist is only a warning
    match checkExist env.stat0 disk.v0, checkExist env.stat1 disk.v1 with
    | .ok _, .ok _ => (some (.ok ⟨some chains⟩), disk)
    | .error e, _ => (some (.error e), disk)
    | _, .error e => (some (.error e), disk)
  | .ok none =>
    -- do migration
    match tryV1 PKH cx env.v1 disk with
    | .error e => (some (.error e), disk)
    | .ok (some chains) => migrate cx env disk chains
    | .ok none =>
      match tryV0 PKH cx env.v0 disk with
      | .error e => (some (.error e), disk)
      | .ok (some chains) => migrate cx env disk chains
      | .ok none => (some (.ok ⟨none⟩), disk)

variable {PKH}

/-- `File.IsSafeToSign`: the memory and the disk afterwards, and the reply. -/
def File.IsSafeToSign (mem : InMemory Enc) (disk : Disk C) (c : Call PKH) (o : Outcome C) :
    Option (Except Err Unit) × InMemory Enc × Disk C :=
  match c.req.asWithWatermark with
  | none => (some (.ok ()), mem, disk) -- watermark is not required
  | some m =>
    match mem.isSafeToSignUnlocked c.pkh c.req c.digest with
    | (.error e, mem') => (some (.error e), mem', disk)
    | (.ok (), mem') =>
      let data := (mem'.chains.bind fun chains => chains.lookup m.chainID).getD ∅
      let (reply, disk') := write cx disk data m.chainID o
      (reply, mem', disk')

variable (PKH) in
inductive Input (C : Type) where
  | start (env : StartEnv C)
  | call (c : Call PKH) (o : Outcome C)
  | kill

variable (Enc C) in
structure Sys where
  disk : Disk C
  proc : Option (InMemory Enc)

/-- The process that a reply leaves behind: none when it was killed on the way. -/
def survivor (reply : Option (Except Err Unit)) (mem : InMemory Enc) : Option (InMemory Enc) :=
  reply.map fun _ => mem

def Sys.step (s : Sys Enc C) (i : Input PKH C) : Option (Except Err Unit) × Sys Enc C :=
  match i with
  | .start env =>
    match NewFileWatermark PKH cx env s.disk with
    | (some (.ok mem), disk') => (some (.ok ()), ⟨disk', some mem⟩)
    | (some (.error e), disk') => (some (.error e), ⟨disk', none⟩)
    | (none, disk') => (none, ⟨disk', none⟩)
  | .call c o =>
    match s.proc with
    | none => (none, s)
    | some mem =>
      match File.IsSafeToSign cx mem s.disk c o with
      | (reply, mem', disk') => (reply, ⟨disk', survivor reply mem'⟩)
  | .kill => (none, ⟨s.disk, none⟩)

end Model

/-! ## A start -/

section Start

variable {Enc C : Type} [DecidableEq Enc] (PKH : Type) [ToComparable PKH Enc] {cx : Codec Enc C}
  {disk : Disk C} (env : StartEnv C)

theorem newFile_of_v2 (hcx : cx.Lawful) (h : disk.v2 ≠ none) :
    (NewFileWatermark PKH cx env disk).2 = disk ∧
      ∀ mem, (NewFileWatermark PKH cx env disk).1 = some (.ok mem) → ∀ k, mem.lookup k = disk.find cx k := by
  unfold NewFileWatermark
  cases hload : tryLoad cx env.load disk with
  | error e => simp
  | ok loaded =>
    cases loaded with
    | none => exact absurd (loadDir_none hload) h
    | some chains =>
      have hfind := find_tryLoad hcx hload
      cases checkExist env.stat0 disk.v0 with
      | error e => simp
      | ok b0 =>
        cases checkExist env.stat1 disk.v1 with
        | error e => simp
        | ok b1 =>
          refine ⟨rfl, ?_⟩
          rintro mem ⟨⟩ k
          exact hfind k

end Start

/-! ## A call -/

section Call

variable {Enc C : Type} [DecidableEq Enc] {PKH : Type} [ToComparable PKH Enc] {cx : Codec Enc C}
  {c : Call PKH} {m : WithWatermark} (mem : InMemory Enc) (disk : Disk C) (o : Outcome C)

lemma find_getD (k : Triple Enc) :
    DelegateMap.find ((mem.chains.bind fun chains => chains.lookup k.chain).getD ∅) k.pkh k.kind = mem.lookup k := by
  unfold InMemory.lookup ChainMap.find
  cases mem.chains with
  | none => rfl
  | some chains =>
    simp only [Option.bind_some]
    cases chains.lookup k.chain <;> rfl

/-- **The two ways of a watermarked call.**  Refused, it changes no watermark.  Accepted by the validation,
it replaces the watermark of its triple in memory, and the write takes the disk's watermarks of the chain from
memory if it gets as far as the rename. -/
theorem call_cases (hcx : cx.Lawful) (h : c.req.asWithWatermark = some m) :
    (mem.admits (tripleOf c.pkh m) (NewWatermark m c.digest) = false ∧
        ∃ mem', File.IsSafeToSign cx mem disk c o = (some (.error .ErrWatermark), mem', disk) ∧
          ∀ k, mem'.lookup k = mem.lookup k) ∨
      (mem.admits (tripleOf c.pkh m) (NewWatermark m c.digest) = true ∧
        ∃ mem' disk', File.IsSafeToSign cx mem disk c o = (o.reply, mem', disk') ∧
          (disk.v2 ≠ none ∨ o.renames = true → disk'.v2 ≠ none) ∧
          (∀ k, mem'.lookup k =
            if k = tripleOf c.pkh m then some (NewWatermark m c.digest) else mem.lookup k) ∧
          ∀ k, disk'.find cx k =
            if o.renames = true ∧ k.chain = m.chainID then mem'.lookup k else disk.find cx k) := by
  have hanswer := step_answer (w := mem) h
  have hlookup := step_lookup (w := mem) h
  unfold InMemory.IsSafeToSign at hanswer hlookup
  unfold File.IsSafeToSign
  simp only [h]
  generalize mem.isSafeToSignUnlocked c.pkh c.req c.digest = r at hanswer hlookup
  obtain ⟨verdict, mem'⟩ := r
  cases hadm : mem.admits (tripleOf c.pkh m) (NewWatermark m c.digest) with
  | false =>
    obtain rfl : verdict = .error .ErrWatermark := by simpa [hadm] using hanswer
    exact Or.inl ⟨rfl, mem', rfl, fun k => by simpa [hadm] using hlookup k⟩
  | true =>
    obtain rfl : verdict = .ok () := by simpa [hadm] using hanswer
    refine Or.inr ⟨rfl, mem', _, rfl, fun hv2 => ?_, fun k => by simpa [hadm] using hlookup k, fun k => ?_⟩
    · exact v2_write _ _ (hv2.imp id Outcome.makesDir_of_renames)
    rw [find_write hcx]
    by_cases hk : k.chain = m.chainID
    · rw [← hk, find_getD]
    · simp [hk]

end Call

end Signatory.Watermark

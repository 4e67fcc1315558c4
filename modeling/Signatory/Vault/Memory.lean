import Signatory.Lib.Listing
import Signatory.Lib.Machine
import Signatory.Signer.Policy

/-!
# `pkg/vault/memory`: unlocking and importing

`Unlock` looks at the flag under the lock, decrypts the raw data without it, and then stores the keys under the lock
again, in place of those that are there.  A run interleaves these steps of any number of `Unlock` calls with calls of
`ImportKey` and `List`; the raw data itself never changes.

`imports_kept_iff` says which runs lose no key: those in which no `Unlock` stores its keys after an import.
-/

namespace Signatory.Memory

open Lib Lib.Machine
open Signer (Error)

/-! ## The vault -/

/-- Where a key was made: which of the keys given to `New`, of the raw data, or of the imports it is. -/
inductive Origin where
  | given (i : ℕ)
  | raw (i : ℕ)
  | imported (n : ℕ)
  deriving DecidableEq

/-- A `*PrivateKey`; pointers are told apart by their origin. -/
structure PrivateKey (Priv : Type) where
  Key : Priv
  ID : String
  origin : Origin
  deriving DecidableEq

structure UnparsedKey where
  Data : String
  ID : String

/-- A `keyRef`, or a `popKeyRef`. -/
structure KeyReference (Priv : Type) where
  key : PrivateKey Priv
  pop : Bool
  deriving DecidableEq

structure Vault (Priv : Type) where
  raw : List UnparsedKey
  keys : List (PrivateKey Priv)
  name : String
  unlocked : Bool

variable {Priv : Type}

def vaultName (name : String) : String := if name = "" then "Mem" else name

def NewUnparsed (data : List UnparsedKey) (name : String) : Vault Priv :=
  { raw := data, keys := [], name := vaultName name, unlocked := false }

def New (keys : List (Priv × String)) (name : String) : Vault Priv where
  raw := []
  keys := keys.zipIdx.map fun k => ⟨k.1.1, k.1.2, .given k.2⟩
  name := vaultName name
  unlocked := true

/-- `fmt.Errorf("(%s): %w", v.name, err)`. -/
def Vault.wrap (v : Vault Priv) (err : Error) : Error := { err with text := "(" ++ v.name ++ "): " ++ err.text }

variable (isBLS : Priv → Bool)

def newKeyRef (key : PrivateKey Priv) : KeyReference Priv := ⟨key, isBLS key.Key⟩

/-- The iterator reads the slice that was there when it was made; its state is the index. -/
def Vault.List (v : Vault Priv) : Listing.Iterator ℕ (KeyReference Priv) Error where
  stopped _ := false
  turn i :=
    match v.keys[i]? with
    | none => .returns .done i
    | some k => .returns (.found (newKeyRef isBLS k)) (i + 1)

/-! ## Calls in progress -/

/-- The vault with the calls of `Unlock` that are past the first locked section, each with the keys that it has
decrypted.  `imported` and `succeeded` remember what has been returned. -/
structure Sys (Priv : Type) where
  vault : Vault Priv
  calls : List (Option (List (PrivateKey Priv))) := []
  imported : List (PrivateKey Priv) := []
  succeeded : Bool := false

inductive Input (Priv : Type) where
  | unlock
  | decrypt (call : ℕ) (priv : Except Error Priv)
  | store (call : ℕ)
  | importKey (priv : Priv) (name : Except Error String)
  | list

inductive Answer (Priv : Type) where
  | none
  | unlocked (r : Except Error Unit)
  | imported (r : Except Error (KeyReference Priv))
  | iterator (it : Listing.Iterator ℕ (KeyReference Priv) Error)

/-- The keys of a call, and the entry that it decrypts next. -/
def Sys.decrypting (s : Sys Priv) (call : ℕ) : Option (List (PrivateKey Priv) × UnparsedKey) := do
  let keys ← (s.calls[call]?).join
  let entry ← s.vault.raw[keys.length]?
  pure (keys, entry)

/-- The keys of a call that has decrypted all entries. -/
def Sys.ready (s : Sys Priv) (call : ℕ) : Option (List (PrivateKey Priv)) :=
  (s.calls[call]?).join.filter fun keys => keys.length = s.vault.raw.length

def step (s : Sys Priv) : Input Priv → Answer Priv × Sys Priv
  | .unlock =>
    if s.vault.unlocked then (.unlocked (.ok ()), { s with succeeded := true })
    else (.none, { s with calls := s.calls ++ [some []] })
  | .decrypt call priv =>
    match s.decrypting call, priv with
    | none, _ => (.none, s)
    | some _, .error err => (.unlocked (.error (s.vault.wrap err)), { s with calls := s.calls.set call none })
    | some (keys, entry), .ok priv =>
      (.none, { s with calls := s.calls.set call (some (keys ++ [⟨priv, entry.ID, .raw keys.length⟩])) })
  | .store call =>
    match s.ready call with
    | none => (.none, s)
    | some keys =>
      (.unlocked (.ok ()), { s with
        vault := { s.vault with keys := keys, unlocked := true }
        calls := s.calls.set call none
        succeeded := true })
  | .importKey _ (.error err) => (.imported (.error (s.vault.wrap err)), s)
  | .importKey priv (.ok id) =>
    let key : PrivateKey Priv := ⟨priv, id, .imported s.imported.length⟩
    (.imported (.ok (newKeyRef isBLS key)), { s with
      vault := { s.vault with keys := s.vault.keys ++ [key] }
      imported := s.imported ++ [key] })
  | .list => (.iterator (s.vault.List isBLS), s)

/-! ## What an iterator yields -/

/-- An iterator that is made now yields every imported key, and after an `Unlock` that succeeded each key of the raw
data once. -/
def Kept (s : Sys Priv) : Prop :=
  ∃ ks, (s.vault.List isBLS).Lists 0 ks ∧ (∀ k ∈ s.imported, newKeyRef isBLS k ∈ ks) ∧
    (s.succeeded = true → ∀ i < s.vault.raw.length, (ks.map fun k => k.key.origin).count (.raw i) = 1)

variable {isBLS}

/-- The entries that are left at an index. -/
def Left (isBLS : Priv → Bool) (keys : List (PrivateKey Priv)) (i : ℕ)
    (es : List (Listing.Entry (KeyReference Priv))) : Prop :=
  es = (keys.drop i).map fun k => .found (newKeyRef isBLS k)

lemma list_follows (v : Vault Priv) : Listing.Follows (v.List isBLS) (Left isBLS v.keys) := by
  rintro i es rfl
  refine Or.inr ⟨rfl, ?_⟩
  show Listing.Reads _ _ _ (match v.keys[i]? with | none => _ | some k => _)
  by_cases hi : i < v.keys.length
  · rw [List.getElem?_eq_getElem hi, List.drop_eq_getElem_cons hi]
    exact Listing.Reads.found _ rfl
  · rw [List.getElem?_eq_none (by omega), List.drop_eq_nil_of_le (by omega)]
    apply Listing.Reads.done
    show [] = _
    rw [List.drop_eq_nil_of_le (by omega), List.map_nil]

/-- **An iterator yields the keys that were there.** -/
lemma lists_iff (v : Vault Priv) (ks : List (KeyReference Priv)) :
    (v.List isBLS).Lists 0 ks ↔ ks = v.keys.map (newKeyRef isBLS) := by
  have hfounds : ∀ keys : List (PrivateKey Priv),
      Listing.founds (keys.map fun k => .found (newKeyRef isBLS k)) = keys.map (newKeyRef isBLS) := by
    intro keys
    induction keys with
    | nil => rfl
    | cons k keys ih => rw [List.map_cons, Listing.founds_found, ih, List.map_cons]
  have hleft : Left isBLS v.keys 0 (v.keys.map fun k => .found (newKeyRef isBLS k)) := by
    show _ = _
    rw [List.drop_zero]
  rw [(list_follows v).lists_iff hleft, hfounds]
  constructor
  · rintro ⟨-, h⟩
    exact h.symm
  · intro h
    exact ⟨by simp, h.symm⟩

lemma kept_iff (s : Sys Priv) : Kept isBLS s ↔ (∀ k ∈ s.imported, k ∈ s.vault.keys) ∧
    (s.succeeded = true → ∀ i < s.vault.raw.length, (s.vault.keys.map PrivateKey.origin).count (.raw i) = 1) := by
  have hmem : ∀ k, newKeyRef isBLS k ∈ s.vault.keys.map (newKeyRef isBLS) ↔ k ∈ s.vault.keys := by
    intro k
    refine List.mem_map_of_injective fun a b hab => ?_
    exact congrArg KeyReference.key hab
  unfold Kept
  simp only [lists_iff, exists_eq_left, hmem, List.map_map]
  rfl

/-! ## Runs -/

section Runs

/-- How a vault is made. -/
inductive Creation (Priv : Type) where
  | unparsed (data : List UnparsedKey) (name : String)
  | parsed (keys : List (Priv × String)) (name : String)

def Creation.vault : Creation Priv → Vault Priv
  | .unparsed data name => NewUnparsed data name
  | .parsed keys name => New keys name

/-- An `Unlock` stores its keys only while nothing has been imported. -/
def Timely (s : Sys Priv) (i : Input Priv) : Prop := ∀ call, i = .store call → s.ready call ≠ none → s.imported = []

/-- What holds as long as all stores are timely. -/
structure Inv (s : Sys Priv) : Prop where
  calls : ∀ keys, some keys ∈ s.calls → keys.map PrivateKey.origin = (List.range keys.length).map Origin.raw
  imported : ∀ k ∈ s.imported, ∃ n, k.origin = .imported n
  keys : ∃ base, s.vault.keys = base ++ s.imported ∧ (s.vault.unlocked = true →
    ∀ i < s.vault.raw.length, (base.map PrivateKey.origin).count (.raw i) = 1)
  succeeded : s.succeeded = true → s.vault.unlocked = true

variable {s : Sys Priv}

lemma inv_create (c : Creation Priv) : Inv { vault := c.vault } := by
  refine ⟨?_, ?_, ⟨c.vault.keys, by simp, ?_⟩, ?_⟩
  · intro keys hkeys
    cases hkeys
  · intro k hk
    cases hk
  · cases c with
    | unparsed data name =>
      intro hunlocked
      cases hunlocked
    | parsed keys name =>
      intro _ i hi
      cases hi
  · intro hsucceeded
    cases hsucceeded

lemma Inv.kept (h : Inv s) : Kept isBLS s := by
  obtain ⟨base, hkeys, honce⟩ := h.keys
  have hnone : ∀ i, (s.imported.map PrivateKey.origin).count (.raw i) = 0 := by
    intro i
    apply List.count_eq_zero_of_not_mem
    intro hmem
    obtain ⟨k, hk, hraw⟩ := List.mem_map.1 hmem
    obtain ⟨n, hn⟩ := h.imported k hk
    rw [hraw] at hn
    cases hn
  rw [kept_iff, hkeys]
  constructor
  · intro k hk
    exact List.mem_append_right _ hk
  · intro hsucceeded i hi
    rw [List.map_append, List.count_append, hnone, honce (h.succeeded hsucceeded) i hi]

lemma mem_of_call {call : ℕ} {keys : List (PrivateKey Priv)} (h : (s.calls[call]?).join = some keys) :
    some keys ∈ s.calls :=
  List.mem_of_getElem? (Option.join_eq_some_iff.1 h)

lemma ready_cases {call : ℕ} {keys : List (PrivateKey Priv)} (h : s.ready call = some keys) :
    some keys ∈ s.calls ∧ keys.length = s.vault.raw.length := by
  obtain ⟨hcall, hlength⟩ := Option.filter_eq_some_iff.1 h
  exact ⟨mem_of_call hcall, by simpa using hlength⟩

lemma decrypting_cases {call : ℕ} {keys : List (PrivateKey Priv)} {entry : UnparsedKey}
    (h : s.decrypting call = some (keys, entry)) : some keys ∈ s.calls := by
  unfold Sys.decrypting at h
  obtain ⟨keys', hcall, h⟩ := Option.bind_eq_some_iff.1 h
  obtain ⟨entry', -, h⟩ := Option.bind_eq_some_iff.1 h
  cases h
  exact mem_of_call hcall

lemma calls_set {calls : List (Option (List (PrivateKey Priv)))} {call : ℕ} {c : Option (List (PrivateKey Priv))}
    (h : ∀ keys, some keys ∈ calls → keys.map PrivateKey.origin = (List.range keys.length).map Origin.raw)
    (hc : ∀ keys, c = some keys → keys.map PrivateKey.origin = (List.range keys.length).map Origin.raw) :
    ∀ keys, some keys ∈ calls.set call c →
      keys.map PrivateKey.origin = (List.range keys.length).map Origin.raw := by
  intro keys hkeys
  rcases List.mem_or_eq_of_mem_set hkeys with hmem | heq
  · exact h keys hmem
  · exact hc keys heq.symm

lemma count_raw {keys : List (PrivateKey Priv)}
    (h : keys.map PrivateKey.origin = (List.range keys.length).map Origin.raw) {i : ℕ} (hi : i < keys.length) :
    (keys.map PrivateKey.origin).count (.raw i) = 1 := by
  rw [h]
  apply List.count_eq_one_of_mem
  · exact List.nodup_range.map fun a b hab => Origin.raw.inj hab
  · exact List.mem_map_of_mem (List.mem_range.2 hi)

/-- **One step.** -/
lemma Inv.step (h : Inv s) (i : Input Priv) (hi : Timely s i) : Inv (Memory.step isBLS s i).2 := by
  cases i with
  | unlock =>
    unfold Memory.step
    dsimp only
    split
    next hunlocked => exact ⟨h.calls, h.imported, h.keys, fun _ => hunlocked⟩
    · refine ⟨?_, h.imported, h.keys, h.succeeded⟩
      intro keys hkeys
      rcases List.mem_append.1 hkeys with hkeys | hkeys
      · exact h.calls keys hkeys
      · obtain rfl : keys = [] := by simpa using hkeys
        rfl
  | decrypt call priv =>
    unfold Memory.step
    dsimp only
    split
    · exact h
    · exact ⟨calls_set h.calls (by simp), h.imported, h.keys, h.succeeded⟩
    next keys entry priv hcall =>
      refine ⟨calls_set h.calls ?_, h.imported, h.keys, h.succeeded⟩
      rintro _ ⟨⟩
      rw [List.map_append, h.calls keys (decrypting_cases hcall), List.length_append, List.length_singleton,
        List.range_succ, List.map_append]
      rfl
  | store call =>
    unfold Memory.step
    dsimp only
    split
    · exact h
    next keys hready =>
      obtain ⟨hcall, hlength⟩ := ready_cases hready
      have hnone : s.imported = [] := hi call rfl (by simp [hready])
      refine ⟨calls_set h.calls (by simp), h.imported, ⟨keys, ?_, ?_⟩, fun _ => rfl⟩
      · show keys = keys ++ s.imported
        rw [hnone, List.append_nil]
      · intro _ i hi
        exact count_raw (h.calls keys hcall) (by rw [hlength]; exact hi)
  | importKey priv name =>
    cases name with
    | error err => exact h
    | ok id =>
      obtain ⟨base, hkeys, honce⟩ := h.keys
      refine ⟨h.calls, ?_, ⟨base, ?_, honce⟩, h.succeeded⟩
      · intro k hk
        rcases List.mem_append.1 hk with hk | hk
        · exact h.imported k hk
        · obtain rfl := List.mem_singleton.1 hk
          exact ⟨_, rfl⟩
      · show s.vault.keys ++ _ = base ++ (s.imported ++ _)
        rw [hkeys, List.append_assoc]
  | list => exact h

/-- A store after an import loses the imported key. -/
lemma Inv.timely (h : Inv s) {i : Input Priv} (hkept : Kept isBLS (Memory.step isBLS s i).2) : Timely s i := by
  rintro call rfl hready
  obtain ⟨keys, hkeys⟩ := Option.ne_none_iff_exists'.1 hready
  obtain ⟨hcall, -⟩ := ready_cases hkeys
  have hstored : (Memory.step isBLS s (.store call)).2 =
      { s with
        vault := { s.vault with keys := keys, unlocked := true }
        calls := s.calls.set call none
        succeeded := true } := by
    simp only [Memory.step, hkeys]
  rw [hstored, kept_iff] at hkept
  apply List.eq_nil_iff_forall_not_mem.2
  intro k hk
  obtain ⟨n, hn⟩ := h.imported k hk
  have hraw : k.origin ∈ keys.map PrivateKey.origin := List.mem_map_of_mem (hkept.1 k hk)
  rw [h.calls keys hcall, hn] at hraw
  obtain ⟨i, -, hi⟩ := List.mem_map.1 hraw
  cases hi

/-- **Which runs lose no key.**  From a vault that is made either way, an iterator made at any point of a run yields
every key imported by then, and once an `Unlock` has succeeded every key of the raw data exactly once, if and only if no
`Unlock` of the run stores its keys after an import. -/
theorem imports_kept_iff (isBLS : Priv → Bool) (c : Creation Priv) (is : List (Input Priv)) :
    (∀ n, Kept isBLS (final (step isBLS) { vault := c.vault } (is.take n))) ↔
      Along (step isBLS) Timely { vault := c.vault } is := by
  rw [← along_states_iff (inv_create c).kept]
  refine along_congr (I := Inv) ?_ ?_ (inv_create c) is
  · intro s i h
    exact ⟨h.timely, fun hi => (h.step i hi).kept⟩
  · intro s i h hkept
    exact h.step i (h.timely hkept)

end Runs

/-! ## A key that is lost -/

/-- A vault with one entry of raw data. -/
def sealed : Vault String := NewUnparsed [⟨"edesk", "raw"⟩] ""

/-- A key is imported, and then the vault is unlocked. -/
def importThenUnlock : List (Input String) :=
  [.importKey "edsk1" (.ok "new"), .unlock, .decrypt 0 (.ok "edsk2"), .store 0]

def afterUnlock : Sys String := final (step fun _ => false) { vault := sealed } importThenUnlock

/-- The import has returned its key and `Unlock` no error, and the iterator yields the other key only. -/
theorem import_lost :
    afterUnlock.imported = [⟨"edsk1", "new", .imported 0⟩] ∧ afterUnlock.succeeded = true ∧
      (afterUnlock.vault.List fun _ => false).Lists 0 [⟨⟨"edsk2", "raw", .raw 0⟩, false⟩] ∧
      ¬ Kept (fun _ => false) afterUnlock := by
  refine ⟨rfl, rfl, (lists_iff _ _).2 rfl, fun hkept => ?_⟩
  have hmem := ((kept_iff _).1 hkept).1 ⟨"edsk1", "new", .imported 0⟩ (by decide)
  exact absurd hmem (by decide)

end Signatory.Memory

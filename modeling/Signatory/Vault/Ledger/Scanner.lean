import Mathlib.Data.Multiset.AddSub
import Signatory.Vault.Ledger.Operations

/-!
# `pkg/vault/ledger`: finding a device

`scanner` asks a transport for its devices, opens them one by one and asks each for its version and its root key, which
it is named after.  What the transport and the devices answer is left open: the scanner is a dialogue with them.

* `scanner_keeps_handles`: whatever is answered, only open handles are used and closed, and all that were opened are
  closed in the end, but for the one that `open` returns (and one that a panic leaves behind);
* `open_first_match`: `open` returns the first device that answers and has the name that was asked for.
-/

namespace Signatory.Vault.Ledger

open Lib Lib.Bounds Lib.Dialogue
open Tezosapp (APDUCommand CurveCheck PublicKeyError Version)
open Signer (Bytes Error)

/-! ## The transport -/

/-- The methods of `ledger.Transport`, and those of the exchangers that it opens; `H` are the exchangers. -/
inductive TransportCall (H : Type) where
  | Enumerate
  | Open (path : String)
  | Exchange (h : H) (req : APDUCommand)
  | Close (h : H)

/-- What the methods return.  Of the devices only the paths are read. -/
def TransportCall.Answer {H : Type} : TransportCall H → Type
  | .Enumerate => Except Error (List String)
  | .Open _ => Except Error H
  | .Exchange _ _ => Tezosapp.Reply
  | .Close _ => Except Error Unit

abbrev Scanning (H α : Type) := Dialogue (TransportCall H) TransportCall.Answer α

variable {H : Type}

def enumerate : Scanning H (Except Error (List String)) := question TransportCall.Enumerate

def openExchanger (path : String) : Scanning H (Except Error H) := question (TransportCall.Open path)

def close (h : H) : Scanning H (Except Error Unit) := question (TransportCall.Close h)

/-- A method of the application, on an exchanger. -/
def onHandle {α : Type} (h : H) (p : Session α) : Scanning H α := p.relabel (.Exchange h) fun _ reply => reply

inductive ScanError where
  | io (err : Error)
  | app (err : PublicKeyError)
  | text (s : String)

structure DeviceInfo where
  Path : String
  Version : Version
  ID : String
  ShortID : String

/-- What the names of a device are made of: the encoding of the hash of its root key, the words that the mnemonic takes
from it, and the beginning of the hash in hexadecimal digits. -/
structure Naming where
  check : CurveCheck
  encode : Cryptoutils.PublicKey → Except Error Bytes
  mnemonic : Bytes → String
  short : Cryptoutils.PublicKey → String

/-- What may end in a panic, or return a value or an error. -/
abbrev Outcome (α : Type) := Except Panic (Except ScanError α)

/-! ## The scanner -/

section Scanner

variable (naming : Naming)

/-- A return with an error; the deferred function closes the device. -/
def closeAndFail {α : Type} (h : H) (err : ScanError) : Scanning H (Outcome α) := do
  let _ ← close h
  pure (.ok (.error err))

/-- The public key that a device is named after. -/
def rootKey (check : CurveCheck) : Session Tezosapp.Outcome :=
  Tezosapp.GetPublicKey check Tezosapp.DerivationED25519 Tezosapp.TezosBIP32Root false

/-- `openPath`.  The deferred function looks at `err`, which a panic does not set. -/
def openPath (path : String) : Scanning H (Outcome (H × DeviceInfo)) := do
  match ← openExchanger path with
  | .error err => pure (.ok (.error (.io err)))
  | .ok h =>
    match ← onHandle h Tezosapp.GetVersion with
    | .error err => closeAndFail h (.app err)
    | .ok ver =>
      match ← onHandle h (rootKey naming.check) with
      | .error panic => pure (.error panic)
      | .ok (.error err) => closeAndFail h (.app err)
      | .ok (.ok rootPK) =>
        match naming.encode rootPK with
        | .error err => closeAndFail h (.io err)
        | .ok buf => pure (.ok (.ok (h, ⟨path, ver, naming.mnemonic buf, naming.short rootPK⟩)))

/-- The device is the one that was asked for. -/
def DeviceInfo.Named (dev : DeviceInfo) (id : String) : Prop := id = "" ∨ dev.ShortID = id ∨ dev.ID = id

instance (dev : DeviceInfo) (id : String) : Decidable (dev.Named id) := by unfold DeviceInfo.Named; infer_instance

/-- The loop of `open`. -/
def openLoop (id : String) : List String → Scanning H (Outcome H)
  | [] => pure (.ok (.error (.text ("can't find a device with id " ++ id))))
  | path :: devs => do
    match ← openPath naming path with
    | .error panic => pure (.error panic)
    | .ok (.error _) => openLoop id devs
    | .ok (.ok (h, dev)) =>
      if dev.Named id then pure (.ok (.ok h))
      else do
        match ← close h with
        | .error err => pure (.ok (.error (.io err)))
        | .ok () => openLoop id devs

/-- `scanner.open`, with the mutex held. -/
def scannerOpen (id : String) : Scanning H (Outcome H) := do
  match ← enumerate with
  | .error err => pure (.ok (.error (.io err)))
  | .ok [] => pure (.ok (.error (.text "no Ledger devices found")))
  | .ok devs => openLoop naming id devs

/-- The loop of `scan`. -/
def scanLoop (res : List DeviceInfo) : List String → Scanning H (Outcome (List DeviceInfo))
  | [] => pure (.ok (.ok res))
  | path :: devs => do
    match ← openPath naming path with
    | .error panic => pure (.error panic)
    | .ok (.error _) => scanLoop res devs
    | .ok (.ok (h, dev)) => do
      let _ ← close h
      scanLoop (res ++ [dev]) devs

/-- `scanner.scan`, with the mutex held. -/
def scannerScan : Scanning H (Outcome (List DeviceInfo)) := do
  match ← enumerate with
  | .error err => pure (.ok (.error (.io err)))
  | .ok devs => scanLoop naming [] devs

/-- The functions of `tools.go`: a method of the application on a device with a name.  The device is closed when the
function returns, and when it panics. -/
def withDevice {α : Type} (id : String) (method : Session α) : Scanning H (Outcome α) := do
  match ← scannerOpen naming id with
  | .error panic => pure (.error panic)
  | .ok (.error err) => pure (.ok (.error err))
  | .ok (.ok h) => do
    let r ← onHandle h method
    let _ ← close h
    pure (.ok (.ok r))

end Scanner

/-! ## Handles -/

section Handles

variable [DecidableEq H]

/-- The open handles: an open one may be used and closed, and no other. -/
def handles : Ghost (TransportCall H) TransportCall.Answer (Multiset H) where
  may g
    | .Enumerate => True
    | .Open _ => True
    | .Exchange h _ => h ∈ g
    | .Close h => h ∈ g
  next g
    | .Enumerate, _ => g
    | .Open _, .ok h => h ::ₘ g
    | .Open _, .error _ => g
    | .Exchange _ _, _ => g
    | .Close h, _ => g.erase h

variable {naming : Naming} {g : Multiset H}

lemma sat_onHandle {α : Type} {h : H} (hh : h ∈ g) (p : Session α) {Q : α → Multiset H → Prop} (hQ : ∀ a, Q a g) :
    (onHandle h p).Sat handles Q g :=
  Sat.relabel (fun _ => hh) (fun _ _ => rfl) p hQ

lemma sat_close {h : H} {Q : Except Error Unit → Multiset H → Prop} (hQ : ∀ r, Q r g) :
    (close h).Sat handles Q (h ::ₘ g) := by
  refine Sat.question (Multiset.mem_cons_self h g) fun r => ?_
  show Q r ((h ::ₘ g).erase h)
  rw [Multiset.erase_cons_head]
  exact hQ r

/-- What is open when a call has ended: as before, with what it returns, or with one more after a panic. -/
def Balanced {α : Type} (held : α → Multiset H) (g : Multiset H) (r : Outcome α) (g' : Multiset H) : Prop :=
  match r with
  | .error _ => ∃ h, g' = h ::ₘ g
  | .ok (.error _) => g' = g
  | .ok (.ok a) => g' = held a + g

lemma sat_closeAndFail {α : Type} {h : H} {err : ScanError} {held : α → Multiset H} :
    (closeAndFail h err : Scanning H (Outcome α)).Sat handles (Balanced held g) (h ::ₘ g) :=
  Sat.bind (sat_close fun _ => rfl)

lemma sat_openPath (path : String) :
    (openPath naming path : Scanning H _).Sat handles (Balanced (fun r => {r.1}) g) g := by
  refine Sat.bind (Sat.question trivial fun opened => ?_)
  cases opened with
  | error err => exact rfl
  | ok h =>
    refine Sat.bind (sat_onHandle (Multiset.mem_cons_self h g) _ fun ver => ?_)
    cases ver with
    | error err => exact sat_closeAndFail
    | ok ver =>
      refine Sat.bind (sat_onHandle (Multiset.mem_cons_self h g) _ fun rootPK => ?_)
      cases rootPK with
      | error panic => exact ⟨h, rfl⟩
      | ok rootPK =>
        cases rootPK with
        | error err => exact sat_closeAndFail
        | ok rootPK =>
          dsimp only
          cases naming.encode rootPK with
          | error err => exact sat_closeAndFail
          | ok buf => exact rfl

lemma sat_openLoop (id : String) (devs : List String) :
    (openLoop naming id devs : Scanning H _).Sat handles (Balanced (fun h => {h}) g) g := by
  induction devs with
  | nil => exact rfl
  | cons path devs ih =>
    refine Sat.bind (Sat.mono (sat_openPath path) fun r g' hr => ?_)
    match r, hr with
    | .error panic, hr => exact hr
    | .ok (.error err), hr => exact hr ▸ ih
    | .ok (.ok (h, dev)), hr =>
      obtain rfl : g' = h ::ₘ g := hr
      dsimp only
      split
      · exact rfl
      · refine Sat.bind (sat_close fun closed => ?_)
        cases closed with
        | error err => exact rfl
        | ok u => exact ih

lemma sat_scannerOpen (id : String) :
    (scannerOpen naming id : Scanning H _).Sat handles (Balanced (fun h => {h}) g) g := by
  refine Sat.bind (Sat.question trivial fun devs => ?_)
  match devs with
  | .error err => exact rfl
  | .ok [] => exact rfl
  | .ok (path :: devs) => exact sat_openLoop id (path :: devs)

lemma sat_scanLoop (res : List DeviceInfo) (devs : List String) :
    (scanLoop naming res devs : Scanning H _).Sat handles (Balanced (fun _ => 0) g) g := by
  induction devs generalizing res with
  | nil => exact (zero_add g).symm
  | cons path devs ih =>
    refine Sat.bind (Sat.mono (sat_openPath path) fun r g' hr => ?_)
    match r, hr with
    | .error panic, hr => exact hr
    | .ok (.error err), hr => exact hr ▸ ih res
    | .ok (.ok (h, dev)), hr =>
      obtain rfl : g' = h ::ₘ g := hr
      exact Sat.bind (sat_close fun _ => ih (res ++ [dev]))

lemma sat_scannerScan : (scannerScan naming : Scanning H _).Sat handles (Balanced (fun _ => 0) g) g := by
  refine Sat.bind (Sat.question trivial fun devs => ?_)
  match devs with
  | .error err => exact rfl
  | .ok devs => exact sat_scanLoop [] devs

lemma sat_withDevice {α : Type} (id : String) (method : Session α) :
    (withDevice naming id method : Scanning H _).Sat handles (Balanced (fun _ => 0) g) g := by
  refine Sat.bind (Sat.mono (sat_scannerOpen id) fun r g' hr => ?_)
  match r, hr with
  | .error panic, hr => exact hr
  | .ok (.error err), hr => exact hr
  | .ok (.ok h), hr =>
    obtain rfl : g' = h ::ₘ g := hr
    refine Sat.bind (sat_onHandle (Multiset.mem_cons_self h g) _ fun a => ?_)
    exact Sat.bind (sat_close fun _ => (zero_add g).symm)

/-- **No handle is lost.**  Whatever the transport and the devices answer: the scanner and the commands use and close
open handles only.  `open` leaves one handle more open, which it returns, or none if it fails; `scan` and the commands
leave none.  The exception is a panic in the parsing of the root key, after which one handle stays open. -/
theorem scanner_keeps_handles (naming : Naming) (g : Multiset H) :
    (∀ id log r, Plays (scannerOpen naming id) log r →
        handles.Allowed g log ∧ Balanced (fun h => {h}) g r (handles.after g log)) ∧
      (∀ log r, Plays (scannerScan naming) log r →
        handles.Allowed g log ∧ Balanced (fun _ => 0) g r (handles.after g log)) ∧
      ∀ (α : Type) id (method : Session α) log r, Plays (withDevice naming id method) log r →
        handles.Allowed g log ∧ Balanced (fun _ => 0) g r (handles.after g log) :=
  ⟨fun id _ _ h => (sat_scannerOpen id).plays h, fun _ _ h => sat_scannerScan.plays h,
    fun _ id method _ _ h => (sat_withDevice id method).plays h⟩

/-- All devices have the same names. -/
def sameNames : Naming where
  check := Tezosapp.reducedCheck
  encode _ := .ok []
  mnemonic _ := "major-squirrel-thick-hedgehog"
  short _ := "3944f7a0"

/-- The version and the root key of a device. -/
def goodDevice (h : ℕ) : List (Σ c : TransportCall ℕ, c.Answer) :=
  [⟨.Exchange h ⟨0x80, 0, 0, 0, [], none, true⟩, .ok ⟨[1, 2, 4, 7], 0x9000⟩⟩,
    ⟨.Exchange h ⟨0x80, 9, 0, 0, [], none, true⟩, .ok ⟨[], 0x9000⟩⟩,
    ⟨.Exchange h ⟨0x80, 2, 0, 0, [2, 0x80, 0, 0, 44, 0x80, 0, 6, 0xc1], none, false⟩,
      .ok ⟨33 :: 2 :: List.replicate 32 5, 0x9000⟩⟩]

/-- Of two devices the first cannot be opened. -/
def secondDevice : List (Σ c : TransportCall ℕ, c.Answer) :=
  [⟨.Enumerate, .ok ["a", "b"]⟩, ⟨.Open "a", .error { text := "busy" }⟩, ⟨.Open "b", .ok 3⟩] ++ goodDevice 3

lemma plays_secondDevice : Plays (scannerOpen sameNames "3944f7a0") secondDevice (.ok (.ok 3)) :=
  .ask (.ask (.ask (.ask (.ask (.ask (.done _))))))

theorem scanner_keeps_handles_second : handles.after {7} secondDevice = {3} + ({7} : Multiset ℕ) :=
  ((scanner_keeps_handles sameNames {7}).1 _ _ _ plays_secondDevice).2

end Handles

/-! ## The device that is found -/

section Found

variable {naming : Naming} {id : String}

/-- What is said about a device that is passed over: it does not answer as it should, or it has another name and is
closed. -/
inductive Skipped (naming : Naming) (id path : String) : List (Σ c : TransportCall H, c.Answer) → Prop
  | failed {log : List (Σ c : TransportCall H, c.Answer)} {err : ScanError}
      (plays : Plays (openPath naming path) log (.ok (.error err))) : Skipped naming id path log
  | other {log : List (Σ c : TransportCall H, c.Answer)} {h : H} {dev : DeviceInfo}
      (plays : Plays (openPath naming path) log (.ok (.ok (h, dev)))) (name : ¬ dev.Named id) :
      Skipped naming id path (log ++ [⟨.Close h, .ok ()⟩])

lemma openLoop_found {devs : List String} {log : List (Σ c : TransportCall H, c.Answer)} {h : H}
    (hp : Plays (openLoop naming id devs) log (.ok (.ok h))) :
    ∃ pre path post skips last dev, devs = pre ++ path :: post ∧ log = skips.flatten ++ last ∧
      List.Forall₂ (Skipped naming id) pre skips ∧ Plays (openPath naming path) last (.ok (.ok (h, dev))) ∧
      dev.Named id := by
  induction devs generalizing log with
  | nil => cases hp
  | cons path devs ih =>
    obtain ⟨l₁, l₂, r, rfl, hpath, hrest⟩ := hp.of_bind
    match r, hpath, hrest with
    | .error panic, _, hrest => cases hrest
    | .ok (.error err), hpath, hrest =>
      obtain ⟨pre, path', post, skips, last, dev, rfl, rfl, hskips, hlast, hnamed⟩ := ih hrest
      exact ⟨path :: pre, path', post, l₁ :: skips, last, dev, rfl, by simp, .cons (.failed hpath) hskips, hlast,
        hnamed⟩
    | .ok (.ok (h', dev)), hpath, hrest =>
      dsimp only at hrest
      split at hrest
      next hnamed =>
        cases hrest
        exact ⟨[], path, devs, [], l₁, dev, rfl, by simp, .nil, hpath, hnamed⟩
      next hnamed =>
        obtain ⟨l₃, l₄, closed, rfl, hclose, hnext⟩ := hrest.of_bind
        cases hclose with
        | ask hdone =>
          cases hdone
          cases closed with
          | error err => cases hnext
          | ok u =>
            obtain ⟨pre, path', post, skips, last, dev', rfl, rfl, hskips, hlast, hnamed'⟩ := ih hnext
            exact ⟨path :: pre, path', post, (l₁ ++ [⟨.Close h', .ok ()⟩]) :: skips, last, dev', rfl, by simp,
              .cons (.other hpath hnamed) hskips, hlast, hnamed'⟩

/-- **The first match.**  When `open` returns a device, it is the first one in the order of the transport that answers
as it should and has the name; all before it were passed over. -/
theorem open_first_match {log : List (Σ c : TransportCall H, c.Answer)} {h : H}
    (hp : Plays (scannerOpen naming id) log (.ok (.ok h))) :
    ∃ pre path post skips last dev, log = ⟨.Enumerate, .ok (pre ++ path :: post)⟩ :: (skips.flatten ++ last) ∧
      List.Forall₂ (Skipped naming id) pre skips ∧ Plays (openPath naming path) last (.ok (.ok (h, dev))) ∧
      dev.Named id := by
  obtain ⟨l₁, l₂, devs, rfl, henum, hloop⟩ := hp.of_bind
  cases henum with
  | ask hdone =>
    cases hdone
    match devs, hloop with
    | .error err, hloop => cases hloop
    | .ok [], hloop => cases hloop
    | .ok (first :: devs), hloop =>
      obtain ⟨pre, path, post, skips, last, dev, hdevs, rfl, hskips, hlast, hnamed⟩ := openLoop_found hloop
      exact ⟨pre, path, post, skips, last, dev, by rw [← hdevs]; rfl, hskips, hlast, hnamed⟩

theorem open_first_match_second :
    ∃ pre path post skips last dev, secondDevice = ⟨.Enumerate, .ok (pre ++ path :: post)⟩ :: (skips.flatten ++ last) ∧
      List.Forall₂ (Skipped sameNames "3944f7a0") pre skips ∧
      Plays (openPath sameNames path) last (.ok (.ok (3, dev))) ∧ dev.Named "3944f7a0" :=
  open_first_match plays_secondDevice

end Found

end Signatory.Vault.Ledger

import Mathlib.Data.List.DropRight
import Signatory.Lib.Machine
import Signatory.Vault.Ledger.PublicKey
import Signatory.Vault.Ledger.Transports

/-!
# `pkg/vault/ledger/tezosapp`: the operations as dialogues

Every method of `App` is a dialogue with the device: what is sent depends on what was answered.  `App.Sign` and
`App.GetPublicKey` are what these dialogues are with a given list of replies (`run_sign`, `run_getPublicKey`).

`sign_over_transports`: through HID packets or over a connection, the application on the device gets the APDUs of
`App.Sign`, and a signature that is returned is its answer to the complete message.
-/

namespace Signatory.Vault.Ledger.Tezosapp

open Lib Lib.Bounds Lib.Machine
open Signer (Bytes Error)

/-! ## The methods -/

/-- `Exchange`, and the checks that all methods begin with. -/
def command (apdu : APDUCommand) : Session (Except PublicKeyError APDUResponse) :=
  .ask apdu fun reply => .done (match reply with
    | .error err => .error (.transport err)
    | .ok res => if res.SW ≠ errOk then .error (.status res.SW) else .ok res)

def insVersion : UInt8 := 0

def insReset : UInt8 := 6

def insQueryMainHWM : UInt8 := 8

def insGit : UInt8 := 9

def insQueryAllHWM : UInt8 := 11

def insDeauthorize : UInt8 := 12

structure Version where
  AppClass : UInt8
  Major : UInt8
  Minor : UInt8
  Patch : UInt8
  Git : Bytes
  deriving DecidableEq

/-- `strings.TrimRight` of zeros. -/
def trimRight (data : Bytes) : Bytes := data.rdropWhile (· = 0)

def GetVersion : Session (Except PublicKeyError Version) := do
  match ← command { Cla := claTezos, Ins := insVersion, ForceLc := true } with
  | .error err => pure (.error err)
  | .ok res =>
    match res.Data with
    | appClass :: major :: minor :: patch :: _ => do
      match ← command { Cla := claTezos, Ins := insGit, ForceLc := true } with
      | .error err => pure (.error err)
      | .ok res => pure (.ok ⟨appClass, major, minor, patch, trimRight res.Data⟩)
    | _ => pure (.error (.text "invalid version length"))

/-- A command that is answered by a public key. -/
def askKey (check : CurveCheck) (derivation : DerivationType) (apdu : APDUCommand) : Session Outcome := do
  match ← command apdu with
  | .error err => pure (.ok (.error err))
  | .ok res => pure (parsePublicKey check res.Data derivation)

def GetPublicKey (check : CurveCheck) (derivation : DerivationType) (path : BIP32) (prompt : Bool) : Session Outcome :=
  match pathValid path with
  | .error err => pure (.ok (.error err))
  | .ok () =>
    askKey check derivation
      { Cla := claTezos
        Ins := if prompt then insPromptPublicKey else insGetPublicKey
        P2 := derivation
        Data := path.Bytes }

def SetupBaking (check : CurveCheck) (hwm : Option HWM) (derivation : DerivationType) (path : BIP32) :
    Session Outcome :=
  let hwm := hwm.getD { ChainID := Vector.replicate 4 0, Main := 0, Test := 0 }
  match pathValid path with
  | .error err => pure (.ok (.error err))
  | .ok () =>
    askKey check derivation
      { Cla := claTezos
        Ins := insSetup
        P2 := derivation
        Data := hwm.ChainID.toList ++ wordBytes hwm.Main ++ wordBytes hwm.Test ++ path.Bytes }

def DeauthorizeBaking : Session (Except PublicKeyError Unit) := do
  let r ← command { Cla := claTezos, Ins := insDeauthorize, ForceLc := true }
  pure (r.map fun _ => ())

/-- Four bytes as a word. -/
def wordOf (a b c d : UInt8) : UInt32 := a.toUInt32 <<< 24 ||| b.toUInt32 <<< 16 ||| c.toUInt32 <<< 8 ||| d.toUInt32

/-- The test network is second and the chain third, where `SetupBaking` has the chain first. -/
def GetHighWatermarks : Session (Except PublicKeyError HWM) := do
  match ← command { Cla := claTezos, Ins := insQueryAllHWM, ForceLc := true } with
  | .error err => pure (.error err)
  | .ok res =>
    match res.Data with
    | m₃ :: m₂ :: m₁ :: m₀ :: t₃ :: t₂ :: t₁ :: t₀ :: c₀ :: c₁ :: c₂ :: c₃ :: _ =>
      pure (.ok { Main := wordOf m₃ m₂ m₁ m₀, Test := wordOf t₃ t₂ t₁ t₀, ChainID := #v[c₀, c₁, c₂, c₃] })
    | data => pure (.error (.text ("invalid reply length: " ++ toString data.length)))

def GetHighWatermark : Session (Except PublicKeyError UInt32) := do
  match ← command { Cla := claTezos, Ins := insQueryMainHWM, ForceLc := true } with
  | .error err => pure (.error err)
  | .ok res =>
    match res.Data with
    | a :: b :: c :: d :: _ => pure (.ok (wordOf a b c d))
    | data => pure (.error (.text ("invalid reply length: " ++ toString data.length)))

def SetHighWatermark (hwm : UInt32) : Session (Except PublicKeyError Unit) := do
  let r ← command { Cla := claTezos, Ins := insReset, Data := wordBytes hwm }
  pure (r.map fun _ => ())

section Sign

variable (data : Bytes)

/-- The loop of `Sign`. -/
def signRest (off : ℕ) (apdu : APDUCommand) (res : APDUResponse) : Session (Except AppError APDUResponse) :=
  if off < data.length then
    .ask (pieceAt data off apdu) fun reply =>
      match reply with
      | .error err => .done (.error (.transport err))
      | .ok res =>
        if res.SW ≠ errOk then .done (.error (.status res.SW))
        else signRest (off + pieceSize data off) (pieceAt data off apdu) res
  else .done (.ok res)
termination_by data.length - off
decreasing_by
  unfold pieceSize maxAPDUSize
  split_ifs <;> omega

def Sign (derivation : DerivationType) (path : BIP32) : Session (Except AppError Signature) :=
  .ask (pathCommand derivation path) fun reply =>
    match reply with
    | .error err => .done (.error (.transport err))
    | .ok res =>
      if res.SW ≠ errOk then .done (.error (.status res.SW))
      else do
        let r ← signRest data 0 { pathCommand derivation path with P1 := p1Next } res
        pure (r.bind fun res => signatureOf derivation res.Data)

end Sign

/-! ## With given replies -/

/-- The replies are given; what is sent is kept. -/
def script (replies : ℕ → Reply) (sent : List APDUCommand) (req : APDUCommand) : Option (Reply × List APDUCommand) :=
  some (replies sent.length, sent ++ [req])

variable {replies : ℕ → Reply} {data : Bytes}

lemma run_signRest (off : ℕ) (apdu : APDUCommand) (res : APDUResponse) (sent : List APDUCommand) :
    (signRest data off apdu res).run (script replies) sent =
      some ((signLoop replies data sent.length off apdu res).2,
        sent ++ (signLoop replies data sent.length off apdu res).1) := by
  induction off, apdu, res using signRest.induct data generalizing sent with
  | case1 off apdu res hoff ih =>
    rw [signRest, signLoop, if_pos hoff, if_pos hoff, Dialogue.run_ask, script, Option.bind_some]
    dsimp only
    cases hreply : replies sent.length with
    | error err => rfl
    | ok res' =>
      dsimp only
      by_cases hsw : res'.SW ≠ errOk
      · rw [if_pos hsw, if_pos hsw]
        rfl
      · rw [if_neg hsw, if_neg hsw, ih res', List.length_append, List.length_singleton]
        simp
  | case2 off apdu res hoff =>
    rw [signRest, signLoop, if_neg hoff, if_neg hoff]
    simp

theorem run_sign (derivation : DerivationType) (path : BIP32) :
    (Sign data derivation path).run (script replies) [] =
      some ((App.Sign replies data derivation path).2, (App.Sign replies data derivation path).1) := by
  rw [Sign, App.Sign, Dialogue.run_ask, script, Option.bind_some]
  dsimp only [List.length_nil]
  cases replies 0 with
  | error err => rfl
  | ok res =>
    dsimp only
    by_cases hsw : res.SW ≠ errOk
    · rw [if_pos hsw, if_pos hsw]
      rfl
    · rw [if_neg hsw, if_neg hsw, Dialogue.run_bind, run_signRest]
      rfl

lemma run_askKey (check : CurveCheck) (derivation : DerivationType) (apdu : APDUCommand) :
    (askKey check derivation apdu).run (script replies) [] =
      some ((askPublicKey check derivation apdu (replies 0)).2,
        (askPublicKey check derivation apdu (replies 0)).1) := by
  unfold askKey command askPublicKey
  rw [Dialogue.bind_ask, Dialogue.run_ask, script, Option.bind_some]
  dsimp only [List.length_nil]
  cases replies 0 with
  | error err => rfl
  | ok res =>
    dsimp only
    by_cases hsw : res.SW ≠ errOk
    · rw [if_pos hsw, if_pos hsw]
      rfl
    · rw [if_neg hsw, if_neg hsw]
      rfl

theorem run_getPublicKey (check : CurveCheck) (derivation : DerivationType) (path : BIP32) (prompt : Bool) :
    (GetPublicKey check derivation path prompt).run (script replies) [] =
      some ((App.GetPublicKey check derivation path prompt (replies 0)).2,
        (App.GetPublicKey check derivation path prompt (replies 0)).1) := by
  unfold GetPublicKey App.GetPublicKey
  cases pathValid path with
  | error err => rfl
  | ok u => exact run_askKey _ _ _

theorem run_setupBaking (check : CurveCheck) (hwm : Option HWM) (derivation : DerivationType) (path : BIP32) :
    (SetupBaking check hwm derivation path).run (script replies) [] =
      some ((App.SetupBaking check hwm derivation path (replies 0)).2,
        (App.SetupBaking check hwm derivation path (replies 0)).1) := by
  unfold SetupBaking App.SetupBaking
  cases pathValid path with
  | error err => rfl
  | ok u => exact run_askKey _ _ _

/-- A signature is made of the reply to the last APDU, and the message was complete with it. -/
lemma sign_ok {derivation : DerivationType} {path : BIP32} {sent : List APDUCommand} {sig : Signature}
    (h : App.Sign replies data derivation path = (sent, .ok sig)) :
    ∃ cs, sent = pathCommand derivation path :: cs ∧ messageOf cs = data ∧
      ∃ res, replies cs.length = .ok res ∧ res.SW = errOk ∧ SignatureIn derivation res.Data sig := by
  unfold App.Sign at h
  cases hreply : replies 0 with
  | error err => simp [hreply] at h
  | ok res =>
    simp only [hreply] at h
    by_cases hsw : res.SW = errOk
    case neg => simp [hsw] at h
    case pos =>
      rw [if_neg (not_not.2 hsw)] at h
      obtain ⟨rfl, hr⟩ := Prod.mk.inj h
      refine ⟨_, rfl, ?_⟩
      by_cases hdata : data = []
      · -- nothing is sent after the path
        subst hdata
        rw [signLoop, if_neg (by simp)] at hr ⊢
        exact ⟨rfl, res, hreply, hsw, signatureOf_ok_iff.1 hr⟩
      · have hloop : FromPiece replies derivation 1 (data.drop 0)
            (signLoop replies data 1 0 { pathCommand derivation path with P1 := p1Next } res) :=
          signLoop_fromPiece res (List.length_pos_iff.2 hdata) rfl ⟨rfl, rfl, rfl, rfl, rfl⟩
        rw [List.drop_zero] at hloop
        generalize signLoop replies data 1 0 { pathCommand derivation path with P1 := p1Next } res = run at hloop hr ⊢
        obtain ⟨cs, r⟩ := run
        have hlast : 1 + (cs.length - 1) = cs.length := by
          have := List.length_pos_iff.2 hloop.sent
          dsimp only at this
          omega
        have hends := hloop.ends
        dsimp only at hends hr ⊢
        rw [hlast] at hends
        generalize replies cs.length = reply at hends ⊢
        cases hends with
        | transport err => cases hr
        | status hstatus => cases hr
        | complete hok hall => exact ⟨hall, _, rfl, hok, signatureOf_ok_iff.1 hr⟩

lemma sign_first (replies : ℕ → Reply) (data : Bytes) (derivation : DerivationType) (path : BIP32) :
    ∃ cs, (App.Sign replies data derivation path).1 = pathCommand derivation path :: cs := by
  unfold App.Sign
  cases replies 0 with
  | error err => exact ⟨[], rfl⟩
  | ok res =>
    dsimp only
    split
    · exact ⟨[], rfl⟩
    · exact ⟨_, rfl⟩

/-! ## Through a transport -/

/-- An application that keeps what it gets. -/
def recording {δ : Type} (app : δ → Bytes → APDUResponse × δ) (s : δ × List Bytes) (b : Bytes) :
    APDUResponse × δ × List Bytes :=
  ((app s.1 b).1, (app s.1 b).2, s.2 ++ [b])

/-- The answers of an application to some APDUs. -/
def answersOf {δ : Type} (app : δ → Bytes → APDUResponse × δ) (d : δ) (bs : List Bytes) : List APDUResponse :=
  (events app d bs).map Prod.snd

/-- A dialogue with a device is a dialogue with the replies of the device, and the device gets what is sent. -/
lemma run_script_of_device {δ α : Type} (app : δ → Bytes → APDUResponse × δ) (p : Session α) (d : δ)
    (sent : List APDUCommand) :
    ∃ (a : α) (d' : δ) (sent' : List APDUCommand),
      p.run (device (recording app)) (d, sent.map APDUCommand.Bytes) =
        some (a, d', (sent ++ sent').map APDUCommand.Bytes) ∧
      ∀ replies : ℕ → Reply,
        (∀ i res, (answersOf app d (sent'.map APDUCommand.Bytes))[i]? = some res →
          replies (sent.length + i) = .ok res) →
        p.run (script replies) sent = some (a, sent ++ sent') := by
  induction p generalizing d sent with
  | done a => exact ⟨a, d, [], by simp, fun _ _ => by simp⟩
  | ask req k ih =>
    obtain ⟨a, d', sent', hdevice, hscript⟩ := ih (.ok (app d req.Bytes).1) (app d req.Bytes).2 (sent ++ [req])
    refine ⟨a, d', req :: sent', ?_, fun replies hreplies => ?_⟩
    · rw [List.append_cons, ← hdevice]
      simp [device, recording]
    · have hfirst : replies sent.length = .ok (app d req.Bytes).1 := hreplies 0 _ rfl
      rw [List.append_cons, ← hscript replies fun i res h => ?_]
      · rw [Dialogue.run_ask, script, hfirst]
        rfl
      · rw [List.length_append, List.length_singleton, Nat.add_assoc, Nat.add_comm 1 i]
        exact hreplies (i + 1) res h

lemma length_bytes_le {c : APDUCommand} (h : c.Raw = none) : c.Bytes.length ≤ c.Data.length + 5 := by
  unfold APDUCommand.Bytes
  rw [h]
  dsimp only
  split_ifs <;> simp

lemma asks_signRest (off : ℕ) (apdu : APDUCommand) (res : APDUResponse) (hraw : apdu.Raw = none) :
    (signRest data off apdu res).Asks fun req => req.Bytes.length ≤ 65535 := by
  induction off, apdu, res using signRest.induct data with
  | case1 off apdu res hoff ih =>
    have hpiece : (pieceAt data off apdu).Raw = none := by
      unfold pieceAt
      dsimp only
      split_ifs <;> exact hraw
    have hsize : (pieceAt data off apdu).Data.length ≤ 230 := by
      have hspec := (pieceSize_spec hoff).2.1
      unfold pieceAt
      dsimp only
      split_ifs <;> exact (List.length_take_le _ _).trans hspec
    have hlen := length_bytes_le hpiece
    rw [signRest, if_pos hoff]
    refine ⟨by omega, fun reply => ?_⟩
    cases reply with
    | error err => trivial
    | ok res' =>
      dsimp only
      split
      · trivial
      · exact ih res' hpiece
  | case2 off apdu res hoff =>
    rw [signRest, if_neg hoff]
    trivial

lemma asks_sign (derivation : DerivationType) {path : BIP32} (hpath : path.Bytes.length ≤ 65530) :
    (Sign data derivation path).Asks fun req => req.Bytes.length ≤ 65535 := by
  have hlen := length_bytes_le (c := pathCommand derivation path) rfl
  have hdata : (pathCommand derivation path).Data = path.Bytes := rfl
  refine ⟨by rw [hdata] at hlen; omega, fun reply => ?_⟩
  cases reply with
  | error err => trivial
  | ok res =>
    dsimp only
    split
    · trivial
    · exact (asks_signRest 0 _ res rfl).bind fun r => trivial

/-- **Signing through a transport.**  Whatever the message, in HID packets and over a connection that cuts its answers
in any way, the application on the device gets the path and then the same APDUs, and the same is returned.  If a
signature is returned, then the pieces that the application got are the whole message, and the signature is its answer
to the last of them. -/
theorem sign_over_transports {δ : Type} {app : δ → Bytes → APDUResponse × δ}
    (happ : ∀ d b, (app d b).1.Data.length ≤ 65533) (channel : UInt16) {cut : Bytes → List Bytes}
    (hcut : ∀ b, (cut b).flatten = b) (derivation : DerivationType) {path : BIP32} (hpath : path.Bytes.length ≤ 65530)
    (data : Bytes) (d : δ) :
    ∃ cs r d',
      (Sign data derivation path).run (hid (recording app) channel) ((d, []), []) =
        some (r, (d', (pathCommand derivation path :: cs).map APDUCommand.Bytes), []) ∧
      (∃ rest, (Sign data derivation path).run (tcp (recording app) cut) ((d, []), []) =
          some (r, (d', (pathCommand derivation path :: cs).map APDUCommand.Bytes), Tcp.stream rest) ∧
        rest.flatten = []) ∧
      ∀ sig, r = .ok sig → messageOf cs = data ∧
        ∃ res, (answersOf app d ((pathCommand derivation path :: cs).map APDUCommand.Bytes)).getLast? = some res ∧
          res.SW = errOk ∧ SignatureIn derivation res.Data sig := by
  obtain ⟨r, d', sent, hdevice, hscript⟩ := run_script_of_device app (Sign data derivation path) d []
  have hrecording : ∀ s b, (recording app s b).1.Data.length ≤ 65533 := fun s b => happ s.1 b
  obtain ⟨_, _, hdevice', hhid, rest, htcp, hrest⟩ :=
    transport_transparent channel hcut hrecording (asks_sign derivation hpath) (d, [])
  obtain ⟨rfl, rfl⟩ := Prod.mk.inj (Option.some.inj (hdevice.symm.trans hdevice'))
  -- the replies of the device, as a list that `App.Sign` is given
  set answers := answersOf app d (sent.map APDUCommand.Bytes) with hanswers
  let replies : ℕ → Reply := fun i => (answers[i]?.map .ok).getD (.error { text := "" })
  have hrun := hscript replies fun i res h => by
    rw [List.length_nil, Nat.zero_add]
    simp only [replies, h, Option.map_some, Option.getD_some]
  rw [run_sign, List.nil_append] at hrun
  obtain ⟨hr, hsent⟩ := Prod.mk.inj (Option.some.inj hrun)
  obtain ⟨cs, hcs⟩ := sign_first replies data derivation path
  obtain rfl : sent = pathCommand derivation path :: cs := hsent.symm.trans hcs
  refine ⟨cs, r, d', hhid, ⟨rest, htcp, hrest⟩, fun sig hsig => ?_⟩
  obtain ⟨cs', hcs', hall, res, hres, hsw, hsigned⟩ := sign_ok (Prod.ext hsent (hr.trans hsig))
  obtain rfl : cs = cs' := (List.cons.inj hcs').2
  refine ⟨hall, res, ?_, hsw, hsigned⟩
  have hlength : answers.length = cs.length + 1 := by
    rw [hanswers, answersOf, List.length_map, ← List.length_map Prod.fst, map_fst_events]
    simp
  have hget : answers[cs.length]? = some res := by
    simp only [replies] at hres
    cases hlast : answers[cs.length]? with
    | none => simp [hlast] at hres
    | some res' => simpa [hlast] using hres
  rw [List.getLast?_eq_getElem?, hlength]
  exact hget

/-- An application that accepts everything and returns a signature of 64 bytes each time. -/
def willingApp (n : ℕ) (_ : Bytes) : APDUResponse × ℕ := (⟨List.replicate 64 7, errOk⟩, n + 1)

/-- A message of two pieces, and a connection that delivers one byte at a time. -/
theorem sign_over_transports_two_pieces :
    ∃ cs r d', (Sign (List.replicate 460 1) DerivationED25519 [0x8000002c]).run (hid (recording willingApp) 0x101)
        ((0, []), []) = some (r, (d', (pathCommand DerivationED25519 [0x8000002c] :: cs).map APDUCommand.Bytes), []) ∧
      ∃ rest, (Sign (List.replicate 460 1) DerivationED25519 [0x8000002c]).run
          (tcp (recording willingApp) fun b => b.map fun x => [x]) ((0, []), []) =
        some (r, (d', (pathCommand DerivationED25519 [0x8000002c] :: cs).map APDUCommand.Bytes), Tcp.stream rest) := by
  have happ : ∀ d b, (willingApp d b).1.Data.length ≤ 65533 := fun _ _ => by
    rw [willingApp, List.length_replicate]
    decide
  have hcut : ∀ b : Bytes, (b.map fun x => [x]).flatten = b := fun b => by
    rw [← List.flatMap_def, List.flatMap_singleton']
  have hpath : (BIP32.Bytes [0x8000002c]).length ≤ 65530 := by decide
  obtain ⟨cs, r, d', hhid, ⟨rest, htcp, -⟩, -⟩ :=
    sign_over_transports happ 0x101 hcut DerivationED25519 hpath (List.replicate 460 1) 0
  exact ⟨cs, r, d', hhid, rest, htcp⟩

end Signatory.Vault.Ledger.Tezosapp

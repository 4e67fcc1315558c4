import Signatory.Lib.Bounds
import Signatory.Vault.Ledger.Bip32

/-!
# `pkg/vault/ledger/tezosapp`: public keys

The reply to a path has the length of what follows, a tag, and the key.  `GetPublicKey_total` says which replies end the
program, and what is known of a key that is returned.
-/

namespace Signatory.Vault.Ledger.Tezosapp

open Lib Lib.Bounds Lib.BigEndian
open Signer (Bytes Error)

/-! ## Replies -/

def tagCompressed : UInt8 := 2

def tagUncompressed : UInt8 := 4

/-- The coordinates are those of a point, modulo the prime of the curve. -/
def OnCurve (c : Cryptoutils.Curve) (x y : ℕ) : Prop :=
  (y * y) % c.Params.p = (x * x * x + c.Params.a * x + c.Params.b) % c.Params.p

/-- `IsOnCurve` of the packages that the curves are from.  They may differ on coordinates that are not reduced. -/
structure CurveCheck where
  IsOnCurve : Cryptoutils.Curve → ℕ → ℕ → Bool
  sound : ∀ {c x y}, IsOnCurve c x y = true → OnCurve c x y

/-- The check with reduced coordinates. -/
def reducedCheck : CurveCheck where
  IsOnCurve := Cryptoutils.Curve.IsOnCurve
  sound := by
    intro c x y h
    simp only [Cryptoutils.Curve.IsOnCurve, Bool.and_eq_true, beq_iff_eq] at h
    exact h.2

inductive PublicKeyError where
  | transport (err : Error)
  | status (sw : UInt16)
  | text (s : String)
  deriving DecidableEq

/-- What may end in a panic, or return a public key or an error. -/
abbrev Outcome := Except Panic (Except PublicKeyError Cryptoutils.PublicKey)

/-- The key of a point, from its coordinates. -/
def pointOf (check : CurveCheck) (curve : Cryptoutils.Curve) (key : Bytes) : Outcome := do
  let x := ofBytes (← slice key 0 32)
  let y := ofBytes (← slice key 32 key.length)
  if !check.IsOnCurve curve x y then pure (.error (.text ("point is not on " ++ curve.Params.name)))
  else pure (.ok (.ecdsa { curve := curve, x := x, y := y }))

/-- The `switch` of `parsePublicKey`. -/
def keyOf (check : CurveCheck) (derivation : DerivationType) (comp : UInt8) (key : Bytes) : Outcome :=
  if derivation = DerivationED25519 ∨ derivation = DerivationBIP32ED25519 then
    if comp ≠ tagCompressed then pure (.error (.text ("invalid compression tag: " ++ toString comp.toNat)))
    else if key.length ≠ 32 then pure (.error (.text ("invalid public key length: " ++ toString key.length)))
    else pure (.ok (.ed25519 key))
  else if derivation = DerivationSECP256K1 ∨ derivation = DerivationSECP256R1 then
    if comp ≠ tagUncompressed then pure (.error (.text ("invalid compression tag: " ++ toString comp.toNat)))
    else if key.length ≠ 64 then pure (.error (.text ("invalid public key length: " ++ toString key.length)))
    else pointOf check (if derivation = DerivationSECP256K1 then Cryptoutils.Curve.S256 else Cryptoutils.Curve.P256) key
  else pure (.error (.text ("invalid derivation type: " ++ toString derivation.toNat)))

def parsePublicKey (check : CurveCheck) (data : Bytes) (derivation : DerivationType) : Outcome :=
  if data.length < 2 then pure (.error (.text "public key reply is too short"))
  else do
    let ln ← index data 0
    let comp ← index data 1
    if (ln.toNat : ℤ) > data.length - 1 then pure (.error (.text "invalid public key reply length"))
    else do
      let key ← slice data 2 (ln.toNat + 1)
      keyOf check derivation comp key

/-! ## Commands -/

def insGetPublicKey : UInt8 := 2

def insPromptPublicKey : UInt8 := 3

def insSetup : UInt8 := 10

def pathValid (path : BIP32) : Except PublicKeyError Unit :=
  if ∃ p ∈ path, p &&& BIP32H = 0 then .error (.text "only hardened derivation supported") else .ok ()

/-- A command for a public key, with the reply to it. -/
def askPublicKey (check : CurveCheck) (derivation : DerivationType) (apdu : APDUCommand) (reply : Reply) :
    List APDUCommand × Outcome :=
  ([apdu],
    match reply with
    | .error err => .ok (.error (.transport err))
    | .ok res => if res.SW ≠ errOk then .ok (.error (.status res.SW)) else parsePublicKey check res.Data derivation)

/-- The APDUs that are sent, and the outcome. -/
def App.GetPublicKey (check : CurveCheck) (derivation : DerivationType) (path : BIP32) (prompt : Bool) (reply : Reply) :
    List APDUCommand × Outcome :=
  match pathValid path with
  | .error err => ([], .ok (.error err))
  | .ok () =>
    askPublicKey check derivation
      { Cla := claTezos
        Ins := if prompt then insPromptPublicKey else insGetPublicKey
        P2 := derivation
        Data := path.Bytes } reply

structure HWM where
  ChainID : Vector UInt8 4
  Main : UInt32
  Test : UInt32

/-- Without a watermark, zeros are sent. -/
def App.SetupBaking (check : CurveCheck) (hwm : Option HWM) (derivation : DerivationType) (path : BIP32)
    (reply : Reply) : List APDUCommand × Outcome :=
  let hwm := hwm.getD { ChainID := Vector.replicate 4 0, Main := 0, Test := 0 }
  match pathValid path with
  | .error err => ([], .ok (.error err))
  | .ok () =>
    askPublicKey check derivation
      { Cla := claTezos
        Ins := insSetup
        P2 := derivation
        Data := hwm.ChainID.toList ++ wordBytes hwm.Main ++ wordBytes hwm.Test ++ path.Bytes } reply

/-! ## What is asked of a reply -/

/-- After the length there is a tag, and then the key; the length counts both and is within the reply. -/
def Carries (data : Bytes) (tag : UInt8) (key : Bytes) : Prop :=
  ∃ ln rest, data = ln :: tag :: rest ∧ ln.toNat ≤ rest.length + 1 ∧ key = rest.take (ln.toNat - 1)

/-- A public key is the one of a reply. -/
inductive Genuine (derivation : DerivationType) (data : Bytes) : Cryptoutils.PublicKey → Prop
  | ed25519 {key : Bytes} (type : derivation = DerivationED25519 ∨ derivation = DerivationBIP32ED25519)
      (carries : Carries data 2 key) (length : key.length = 32) : Genuine derivation data (.ed25519 key)
  | ecdsa {key : Bytes} {curve : Cryptoutils.Curve} {x y : ℕ}
      (type : derivation = DerivationSECP256K1 ∧ curve = .S256 ∨ derivation = DerivationSECP256R1 ∧ curve = .P256)
      (carries : Carries data 4 key) (length : key.length = 64)
      (coordinates : x = ofBytes (key.take 32) ∧ y = ofBytes (key.drop 32)) (onCurve : OnCurve curve x y) :
      Genuine derivation data (.ecdsa { curve := curve, x := x, y := y })

/-- The length leaves no room for the tag. -/
def NoTag (data : Bytes) : Prop := ∃ tag rest, data = 0 :: tag :: rest

/-- The reply to a path is accepted, and its length leaves no room for the tag. -/
def RepliesNoTag (path : BIP32) (reply : Reply) : Prop :=
  pathValid path = .ok () ∧ ∃ res, reply = .ok res ∧ res.SW = errOk ∧ NoTag res.Data

/-! ## Keys -/

section Key

variable {check : CurveCheck} {derivation : DerivationType} {data : Bytes} {pub : Cryptoutils.PublicKey}

/-- The key is sliced after its length was checked. -/
lemma pointOf_ok {key : Bytes} (hlength : key.length = 64) (check : CurveCheck) (curve : Cryptoutils.Curve) :
    ∃ r, pointOf check curve key = .ok r ∧ ∀ pub, r = .ok pub →
      ∃ x y, pub = .ecdsa { curve := curve, x := x, y := y } ∧ (x = ofBytes (key.take 32) ∧ y = ofBytes (key.drop 32)) ∧
        OnCurve curve x y := by
  have hx : slice key 0 32 = .ok (key.take 32) := slice_ok key (Nat.zero_le 32) (by rw [hlength]; decide)
  have hy : slice key 32 key.length = .ok (key.drop 32) := by
    have h := slice_ok key (by omega : 32 ≤ key.length) le_rfl
    rwa [List.take_length] at h
  unfold pointOf
  rw [hx, hy]
  dsimp only [bind, Except.bind]
  split
  next => exact ⟨_, rfl, nofun⟩
  next hon =>
    rw [Bool.not_eq_true', Bool.not_eq_false] at hon
    refine ⟨_, rfl, fun pub hpub => ⟨_, _, (Except.ok.inj hpub).symm, ⟨rfl, rfl⟩, check.sound hon⟩⟩

lemma keyOf_ok (check : CurveCheck) (derivation : DerivationType) (data : Bytes) (comp : UInt8) (key : Bytes) :
    ∃ r, keyOf check derivation comp key = .ok r ∧
      ∀ pub, r = .ok pub → Carries data comp key → Genuine derivation data pub := by
  unfold keyOf
  split
  next htype =>
    split
    next => exact ⟨_, rfl, nofun⟩
    next hcomp =>
      split
      next => exact ⟨_, rfl, nofun⟩
      next hlength =>
        refine ⟨_, rfl, fun pub hpub hcarries => ?_⟩
        cases hpub
        rw [not_not.1 hcomp] at hcarries
        exact Genuine.ed25519 htype hcarries (not_not.1 hlength)
  next =>
    split
    next htype =>
      split
      next => exact ⟨_, rfl, nofun⟩
      next hcomp =>
        split
        next => exact ⟨_, rfl, nofun⟩
        next hlength =>
          obtain ⟨r, hr, hpoint⟩ := pointOf_ok (not_not.1 hlength) check
            (if derivation = DerivationSECP256K1 then Cryptoutils.Curve.S256 else Cryptoutils.Curve.P256)
          refine ⟨r, hr, fun pub hpub hcarries => ?_⟩
          obtain ⟨x, y, rfl, hcoordinates, hon⟩ := hpoint pub hpub
          rw [not_not.1 hcomp] at hcarries
          refine Genuine.ecdsa ?_ hcarries (not_not.1 hlength) hcoordinates hon
          rcases htype with rfl | rfl
          · exact Or.inl ⟨rfl, rfl⟩
          · exact Or.inr ⟨rfl, rfl⟩
    next => exact ⟨_, rfl, nofun⟩

lemma parsePublicKey_short (h : data.length < 2) :
    parsePublicKey check data derivation = .ok (.error (.text "public key reply is too short")) := if_pos h

lemma parsePublicKey_cons (check : CurveCheck) (ln comp : UInt8) (rest : Bytes) (derivation : DerivationType) :
    parsePublicKey check (ln :: comp :: rest) derivation =
      if ln.toNat ≤ rest.length + 1 then slice (ln :: comp :: rest) 2 (ln.toNat + 1) >>= keyOf check derivation comp
      else .ok (.error (.text "invalid public key reply length")) := by
  have hlong : ¬ (ln :: comp :: rest).length < 2 := by simp
  have hlength : (ln.toNat : ℤ) > (ln :: comp :: rest).length - 1 ↔ ¬ ln.toNat ≤ rest.length + 1 := by
    simp only [List.length_cons]
    omega
  rw [parsePublicKey, if_neg hlong]
  show (if (ln.toNat : ℤ) > (ln :: comp :: rest).length - 1 then _ else _) = _
  rw [if_congr hlength rfl rfl, ite_not]
  rfl

/-- **The outcomes for a reply.** -/
lemma parsePublicKey_cases (check : CurveCheck) (data : Bytes) (derivation : DerivationType) :
    (NoTag data ∧ parsePublicKey check data derivation = .error .slice) ∨
      (¬ NoTag data ∧ ∃ r, parsePublicKey check data derivation = .ok r ∧ ∀ pub, r = .ok pub →
        Genuine derivation data pub) := by
  match data with
  | [] => exact Or.inr ⟨nofun, _, parsePublicKey_short (by simp), nofun⟩
  | [_] => exact Or.inr ⟨nofun, _, parsePublicKey_short (by simp), nofun⟩
  | ln :: comp :: rest =>
    rw [parsePublicKey_cons]
    by_cases hzero : ln = 0
    · subst hzero
      refine Or.inl ⟨⟨comp, rest, rfl⟩, ?_⟩
      have hpanic : slice (0 :: comp :: rest) 2 ((0 : UInt8).toNat + 1) = .error .slice := slice_of_lt _ (by decide)
      rw [if_pos (by simp), hpanic]
      rfl
    · have hpos : ln.toNat ≠ 0 := fun h => hzero (UInt8.toNat_inj.1 h)
      refine Or.inr ⟨fun ⟨tag, rest', h⟩ => hzero (List.cons.inj h).1, ?_⟩
      split
      next hle =>
        have hkey : slice (ln :: comp :: rest) 2 (ln.toNat + 1) = .ok (rest.take (ln.toNat - 1)) := by
          have h := slice_ok (ln :: comp :: rest) (by omega : 2 ≤ ln.toNat + 1) (by simpa using hle)
          obtain ⟨n, hn⟩ := Nat.exists_eq_succ_of_ne_zero hpos
          rw [hn] at h ⊢
          exact h
        obtain ⟨r, hr, hgenuine⟩ := keyOf_ok check derivation (ln :: comp :: rest) comp (rest.take (ln.toNat - 1))
        refine ⟨r, ?_, fun pub hpub => hgenuine pub hpub ⟨ln, rest, rfl, hle, rfl⟩⟩
        rw [hkey]
        exact hr
      next => exact ⟨_, rfl, nofun⟩

end Key

lemma askPublicKey_cases (check : CurveCheck) (derivation : DerivationType) (apdu : APDUCommand) (reply : Reply) :
    ((∃ res, reply = .ok res ∧ res.SW = errOk ∧ NoTag res.Data) ∧
        (askPublicKey check derivation apdu reply).2 = .error .slice) ∨
      (¬ (∃ res, reply = .ok res ∧ res.SW = errOk ∧ NoTag res.Data) ∧
        ∃ r, (askPublicKey check derivation apdu reply).2 = .ok r ∧ ∀ pub, r = .ok pub →
          ∃ res, reply = .ok res ∧ res.SW = errOk ∧ Genuine derivation res.Data pub) := by
  cases reply with
  | error err => exact Or.inr ⟨by simp, _, rfl, nofun⟩
  | ok res =>
    by_cases hsw : res.SW = errOk
    · have hask : (askPublicKey check derivation apdu (.ok res)).2 = parsePublicKey check res.Data derivation :=
        if_neg (not_not.2 hsw)
      rw [hask]
      rcases parsePublicKey_cases check res.Data derivation with ⟨hno, hparse⟩ | ⟨hno, r, hparse, hgenuine⟩
      · exact Or.inl ⟨⟨res, rfl, hsw, hno⟩, hparse⟩
      · refine Or.inr ⟨?_, r, hparse, fun pub hpub => ⟨res, rfl, hsw, hgenuine pub hpub⟩⟩
        rintro ⟨res', hres, -, hno'⟩
        cases hres
        exact hno hno'
    · refine Or.inr ⟨?_, _, if_pos hsw, nofun⟩
      rintro ⟨res', hres, hsw', -⟩
      cases hres
      exact hsw hsw'

/-- **Which replies end the program.**  One that leaves no room for the tag does, and a key that is returned is the one
of the reply. -/
theorem GetPublicKey_total (check : CurveCheck) (derivation : DerivationType) (path : BIP32) (prompt : Bool)
    (reply : Reply) :
    ((∃ r, (App.GetPublicKey check derivation path prompt reply).2 = .ok r) ↔ ¬ RepliesNoTag path reply) ∧
      ∀ pub, (App.GetPublicKey check derivation path prompt reply).2 = .ok (.ok pub) →
        ∃ res, reply = .ok res ∧ res.SW = errOk ∧ Genuine derivation res.Data pub := by
  unfold RepliesNoTag App.GetPublicKey
  cases pathValid path with
  | error err => exact ⟨⟨fun _ => by simp, fun _ => ⟨_, rfl⟩⟩, nofun⟩
  | ok u =>
    dsimp only
    rcases askPublicKey_cases check derivation _ reply with ⟨hno, hask⟩ | ⟨hno, r, hask, hgenuine⟩
    · rw [hask]
      exact ⟨⟨nofun, fun h => absurd ⟨rfl, hno⟩ h⟩, nofun⟩
    · rw [hask]
      refine ⟨⟨fun _ h => hno h.2, fun _ => ⟨r, rfl⟩⟩, fun pub hpub => ?_⟩
      exact hgenuine pub (Except.ok.inj hpub)

/-- A reply of two bytes with the length 0. -/
theorem GetPublicKey_panics :
    (App.GetPublicKey reducedCheck DerivationED25519 (TezosBIP32Root ++ [BIP32H]) false
      (.ok { Data := [0, 2], SW := 0x9000 })).2 = .error .slice := by
  rfl

end Signatory.Vault.Ledger.Tezosapp

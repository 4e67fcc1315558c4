import Signatory.Cryptoutils.Elliptic
import Signatory.Lib.Der
import Signatory.Lib.Fragments
import Signatory.Signer.Policy

/-!
# `pkg/vault/ledger/tezosapp`: signing with the Tezos application

`App.Sign` sends the path in one APDU and the message in others, until the message is complete or the device refuses.
The replies of the device are any sequence, and a call is the list of the APDUs that it sends with what it returns.
`sign_fragmented` says that messages are cut without loss, and that a signature comes from the reply to the piece that
completes the message.
-/

namespace Signatory.Vault.Ledger.Tezosapp

open Lib Lib.Fragments
open Signer (Bytes Error)

/-! ## APDUs -/

structure APDUCommand where
  Cla : UInt8
  Ins : UInt8
  P1 : UInt8 := 0
  P2 : UInt8 := 0
  Data : Bytes := []
  Raw : Option Bytes := none
  ForceLc : Bool := false
  deriving DecidableEq

def APDUCommand.Bytes (a : APDUCommand) : Bytes :=
  match a.Raw with
  | some raw => raw
  | none =>
    [a.Cla, a.Ins, a.P1, a.P2] ++
      (if a.ForceLc ∨ a.Data.length ≠ 0 then [UInt8.ofNat (a.Data.length % 256)] else []) ++ a.Data

structure APDUResponse where
  Data : Bytes
  SW : UInt16
  deriving DecidableEq

/-- What `Exchange` returns. -/
abbrev Reply := Except Error APDUResponse

def claTezos : UInt8 := 0x80

def insSign : UInt8 := 4

def errOk : UInt16 := 0x9000

/-- `DerivationType`; a `uint8` that is none of the constants is one as well. -/
abbrev DerivationType := UInt8

def DerivationED25519 : DerivationType := 0

def DerivationSECP256K1 : DerivationType := 1

def DerivationSECP256R1 : DerivationType := 2

def DerivationBIP32ED25519 : DerivationType := 3

abbrev BIP32 := List UInt32

/-- The bytes of a word, most significant first. -/
def wordBytes (p : UInt32) : Bytes := [(p >>> 24).toUInt8, (p >>> 16).toUInt8, (p >>> 8).toUInt8, p.toUInt8]

def BIP32.Bytes (b : BIP32) : Bytes := UInt8.ofNat (b.length % 256) :: b.flatMap wordBytes

/-! ## Signatures -/

inductive Signature where
  | ed25519 (data : Bytes)
  | ecdsa (R S : ℤ) (curve : Cryptoutils.Curve)
  deriving DecidableEq

inductive AppError where
  | transport (err : Error)
  | status (sw : UInt16)
  | signatureLength (n : ℕ)
  | asn1
  | derivation (d : DerivationType)
  deriving DecidableEq

/-- `asn1.Unmarshal` into a structure of two `*big.Int`; what follows them is passed over. -/
def unmarshal (data : Bytes) : Option (ℤ × ℤ) := do
  let (body, _) ← Der.read 0x30 data
  let (r, body) ← Der.read 0x02 body
  let (s, _) ← Der.read 0x02 body
  pure (← Der.readBigInteger r, ← Der.readBigInteger s)

/-- The parity flag interferes with ASN.1. -/
def clearParity : Bytes → Bytes
  | [] => []
  | b :: data => (b &&& 0xfe) :: data

/-- The end of `Sign`. -/
def signatureOf (derivation : DerivationType) (data : Bytes) : Except AppError Signature :=
  if derivation = DerivationED25519 ∨ derivation = DerivationBIP32ED25519 then
    if data.length ≠ 64 then .error (.signatureLength data.length) else .ok (.ed25519 data)
  else if derivation = DerivationSECP256K1 ∨ derivation = DerivationSECP256R1 then
    let curve := if derivation = DerivationSECP256K1 then Cryptoutils.Curve.S256 else Cryptoutils.Curve.P256
    match unmarshal (clearParity data) with
    | none => .error .asn1
    | some (r, s) => .ok (.ecdsa r s curve)
  else .error (.derivation derivation)

/-! ## The application -/

def maxAPDUSize : ℕ := 230

def p1Next : UInt8 := 0x01

def p1Last : UInt8 := 0x80

section Sign

variable (replies : ℕ → Reply) (data : Bytes)

/-- The size of the piece at `off`. -/
def pieceSize (off : ℕ) : ℕ := if maxAPDUSize > data.length - off then data.length - off else maxAPDUSize

/-- The APDU with the piece at `off`, made from the one before. -/
def pieceAt (off : ℕ) (apdu : APDUCommand) : APDUCommand :=
  let apdu := { apdu with Data := (data.drop off).take (pieceSize data off) }
  if off + pieceSize data off = data.length then { apdu with P1 := apdu.P1 ||| p1Last } else apdu

/-- The loop; `n` APDUs have been sent, and `res` is the last response. -/
def signLoop (n off : ℕ) (apdu : APDUCommand) (res : APDUResponse) :
    List APDUCommand × Except AppError APDUResponse :=
  if off < data.length then
    let apdu := pieceAt data off apdu
    match replies n with
    | .error err => ([apdu], .error (.transport err))
    | .ok res =>
      if res.SW ≠ errOk then ([apdu], .error (.status res.SW))
      else
        let rest := signLoop (n + 1) (off + pieceSize data off) apdu res
        (apdu :: rest.1, rest.2)
  else ([], .ok res)
termination_by data.length - off
decreasing_by
  unfold pieceSize maxAPDUSize
  split_ifs <;> omega

def pathCommand (derivation : DerivationType) (path : BIP32) : APDUCommand :=
  { Cla := claTezos, Ins := insSign, P2 := derivation, Data := path.Bytes }

def App.Sign (derivation : DerivationType) (path : BIP32) : List APDUCommand × Except AppError Signature :=
  let apdu := pathCommand derivation path
  match replies 0 with
  | .error err => ([apdu], .error (.transport err))
  | .ok res =>
    if res.SW ≠ errOk then ([apdu], .error (.status res.SW))
    else
      let rest := signLoop replies data 1 0 { apdu with P1 := p1Next } res
      (apdu :: rest.1, rest.2.bind fun res => signatureOf derivation res.Data)

end Sign

/-! ## What is asked of a call -/

/-- The success status. -/
def Accepted (reply : Reply) : Prop := ∃ res, reply = .ok res ∧ res.SW = errOk

/-- The bytes of the message in some APDUs. -/
def messageOf (cs : List APDUCommand) : Bytes := cs.flatMap APDUCommand.Data

/-- Two integers in a sequence of DER; what follows them, in the sequence or after it, is passed over. -/
def IsDerPair (data : Bytes) (r s : ℤ) : Prop :=
  ∃ br bs more rest, (Der.element 0x02 br ++ (Der.element 0x02 bs ++ more)).length < 2 ^ 32 ∧
    data = Der.element 0x30 (Der.element 0x02 br ++ (Der.element 0x02 bs ++ more)) ++ rest ∧
    Der.readBigInteger br = some r ∧ Der.readBigInteger bs = some s

/-- **The signature in a reply**: its 64 bytes for the Edwards curves, and for the others a pair of integers, once the
lowest bit of the first byte is cleared. -/
def SignatureIn (derivation : DerivationType) (data : Bytes) : Signature → Prop
  | .ed25519 sig =>
    (derivation = DerivationED25519 ∨ derivation = DerivationBIP32ED25519) ∧ data.length = 64 ∧ sig = data
  | .ecdsa r s curve =>
    ((derivation = DerivationSECP256K1 ∧ curve = .S256) ∨ (derivation = DerivationSECP256R1 ∧ curve = .P256)) ∧
      IsDerPair (clearParity data) r s

/-- The APDUs `first :: cs` are sent for a message, and `r` is returned. -/
structure Fragmented (replies : ℕ → Reply) (derivation : DerivationType) (path : BIP32) (data : Bytes)
    (first : APDUCommand) (cs : List APDUCommand) (r : Except AppError Signature) : Prop where
  path : first = { Cla := claTezos, Ins := insSign, P1 := 0, P2 := derivation, Data := path.Bytes }
  pieces : ∀ c ∈ cs, c.Data ≠ [] ∧ c.Data.length ≤ 230
  inOrder : messageOf cs <+: data
  /-- The piece that completes the message is marked, and no other one. -/
  marked : ∀ i c, cs[i]? = some c → c.P1 = if messageOf (cs.take (i + 1)) = data then 0x81 else 0x01
  wire : ∀ c ∈ cs, c.Bytes = claTezos :: insSign :: c.P1 :: derivation :: UInt8.ofNat c.Data.length :: c.Data
  /-- Every reply but the last one was the success status. -/
  goesOn : ∀ i < cs.length, Accepted (replies i)
  /-- The last one is too only if the message is complete. -/
  complete : Accepted (replies cs.length) → messageOf cs = data
  stops : ¬ Accepted (replies cs.length) → ∃ err, r = .error err
  signature : ∀ sig, r = .ok sig → messageOf cs = data ∧
    ∃ res, replies cs.length = .ok res ∧ res.SW = errOk ∧ SignatureIn derivation res.Data sig

/-! ## The signature -/

lemma unmarshal_iff {data : Bytes} {r s : ℤ} : unmarshal data = some (r, s) ↔ IsDerPair data r s := by
  constructor
  · intro h
    obtain ⟨⟨body, rest⟩, hseq, h⟩ := Option.bind_eq_some_iff.1 h
    obtain ⟨⟨br, body'⟩, hfirst, h⟩ := Option.bind_eq_some_iff.1 h
    obtain ⟨⟨bs, more⟩, hsecond, h⟩ := Option.bind_eq_some_iff.1 h
    obtain ⟨r', hr, h⟩ := Option.bind_eq_some_iff.1 h
    obtain ⟨s', hs, h⟩ := Option.bind_eq_some_iff.1 h
    obtain ⟨rfl, rfl⟩ := Prod.mk.inj (Option.some.inj h)
    obtain ⟨-, hlen, rfl⟩ := Der.read_iff.1 hseq
    obtain ⟨-, -, rfl⟩ := Der.read_iff.1 hfirst
    obtain ⟨-, -, rfl⟩ := Der.read_iff.1 hsecond
    exact ⟨br, bs, more, rest, hlen, rfl, hr, hs⟩
  · rintro ⟨br, bs, more, rest, hlen, rfl, hr, hs⟩
    have hparts := hlen
    simp only [List.length_append, Der.element, List.length_cons] at hparts
    have htag : Der.LowTag 0x02 := by decide
    have hseq := Der.read_element (show Der.LowTag 0x30 by decide) hlen rest
    have hfirst := Der.read_element htag (show br.length < 2 ^ 32 by omega) (Der.element 0x02 bs ++ more)
    have hsecond := Der.read_element htag (show bs.length < 2 ^ 32 by omega) more
    simp only [unmarshal, hseq, hfirst, hsecond, hr, hs, Option.bind_eq_bind, Option.bind_some, Option.pure_def]

/-- **The end of `Sign`** returns what the reply holds. -/
lemma signatureOf_ok_iff {derivation : DerivationType} {data : Bytes} {sig : Signature} :
    signatureOf derivation data = .ok sig ↔ SignatureIn derivation data sig := by
  constructor
  · intro h
    unfold signatureOf at h
    split at h
    next hed =>
      split at h
      next => cases h
      next hlen =>
        cases h
        exact ⟨hed, not_not.1 hlen, rfl⟩
    next =>
      split at h
      next hec =>
        dsimp only at h
        split at h
        next => cases h
        next r s hpair =>
          cases h
          refine ⟨?_, unmarshal_iff.1 hpair⟩
          rcases hec with rfl | rfl
          · exact Or.inl ⟨rfl, rfl⟩
          · exact Or.inr ⟨rfl, if_neg (by decide)⟩
      next => cases h
  · intro h
    cases sig with
    | ed25519 sig =>
      obtain ⟨hed, hlen, rfl⟩ := h
      rw [signatureOf, if_pos hed, if_neg (not_not.2 hlen)]
    | ecdsa r s curve =>
      obtain ⟨hec, hpair⟩ := h
      rw [← unmarshal_iff] at hpair
      rcases hec with ⟨rfl, rfl⟩ | ⟨rfl, rfl⟩
      · rw [signatureOf, if_neg (by decide), if_pos (by decide), hpair]
        rfl
      · rw [signatureOf, if_neg (by decide), if_pos (by decide), hpair]
        rfl

/-! ## The loop -/

section Loop

variable {replies : ℕ → Reply} {data : Bytes}

/-- An APDU of the loop. -/
structure IsPiece (derivation : DerivationType) (c : APDUCommand) : Prop where
  Cla : c.Cla = claTezos
  Ins : c.Ins = insSign
  P2 : c.P2 = derivation
  Raw : c.Raw = none
  ForceLc : c.ForceLc = false

/-- A piece, and whether it is marked as the last one. -/
def pieceOf (c : APDUCommand) : Bytes × Bool := (c.Data, decide (c.P1 = 0x81))

/-- What a reply to the last of some APDUs leads to. -/
inductive Ends (cs : List APDUCommand) (rest : Bytes) : Reply → Except AppError APDUResponse → Prop
  | transport (err : Error) : Ends cs rest (.error err) (.error (.transport err))
  | status {res : APDUResponse} (h : res.SW ≠ errOk) : Ends cs rest (.ok res) (.error (.status res.SW))
  | complete {res : APDUResponse} (h : res.SW = errOk) (hall : messageOf cs = rest) : Ends cs rest (.ok res) (.ok res)

lemma Ends.cons {cs : List APDUCommand} {rest : Bytes} {reply : Reply} {r : Except AppError APDUResponse}
    (h : Ends cs rest reply r) (c : APDUCommand) : Ends (c :: cs) (c.Data ++ rest) reply r := by
  cases h with
  | transport err => exact Ends.transport err
  | status hsw => exact Ends.status hsw
  | complete hsw hall =>
    refine Ends.complete hsw ?_
    show c.Data ++ messageOf cs = c.Data ++ rest
    rw [hall]

/-- What holds of the loop, with the bytes `rest` of the message still to be sent. -/
structure FromPiece (replies : ℕ → Reply) (derivation : DerivationType) (n : ℕ) (rest : Bytes)
    (run : List APDUCommand × Except AppError APDUResponse) : Prop where
  cut : Cut maxAPDUSize rest (run.1.map pieceOf)
  isPiece : ∀ c ∈ run.1, IsPiece derivation c ∧ (c.P1 = 0x01 ∨ c.P1 = 0x81)
  sent : run.1 ≠ []
  goesOn : ∀ i, i + 1 < run.1.length → Accepted (replies (n + i))
  ends : Ends run.1 rest (replies (n + (run.1.length - 1))) run.2

lemma pieceSize_spec {off : ℕ} (h : off < data.length) :
    0 < pieceSize data off ∧ pieceSize data off ≤ maxAPDUSize ∧ pieceSize data off ≤ (data.drop off).length := by
  rw [List.length_drop]
  unfold pieceSize maxAPDUSize
  split_ifs <;> omega

lemma pieceAt_eq {off : ℕ} {apdu : APDUCommand} (hp1 : apdu.P1 = p1Next) :
    pieceAt data off apdu = { apdu with
      P1 := if off + pieceSize data off = data.length then 0x81 else 0x01
      Data := (data.drop off).take (pieceSize data off) } := by
  unfold pieceAt
  dsimp only
  split_ifs with h
  · rw [hp1]
    rfl
  · cases apdu
    cases hp1
    rfl

variable {derivation : DerivationType} {n off : ℕ} {apdu : APDUCommand}

lemma pieceOf_pieceAt (h : off < data.length) (hp1 : apdu.P1 = p1Next) : pieceOf (pieceAt data off apdu) =
    ((data.drop off).take (pieceSize data off), decide (pieceSize data off = (data.drop off).length)) := by
  have hend : off + pieceSize data off = data.length ↔ pieceSize data off = (data.drop off).length := by
    rw [List.length_drop]
    omega
  rw [pieceAt_eq hp1]
  unfold pieceOf
  by_cases hlast : pieceSize data off = (data.drop off).length
  · rw [if_pos (hend.2 hlast), decide_eq_true hlast]
    rfl
  · rw [if_neg (fun he => hlast (hend.1 he)), decide_eq_false hlast]
    rfl

lemma isPiece_pieceAt (hp1 : apdu.P1 = p1Next) (h : IsPiece derivation apdu) :
    IsPiece derivation (pieceAt data off apdu) ∧
      ((pieceAt data off apdu).P1 = 0x01 ∨ (pieceAt data off apdu).P1 = 0x81) := by
  rw [pieceAt_eq hp1]
  refine ⟨⟨h.Cla, h.Ins, h.P2, h.Raw, h.ForceLc⟩, ?_⟩
  dsimp only
  split_ifs
  · exact Or.inr rfl
  · exact Or.inl rfl

lemma fromPiece_last (hoff : off < data.length) (hp1 : apdu.P1 = p1Next) (hpiece : IsPiece derivation apdu)
    {r : Except AppError APDUResponse} (h : Ends [pieceAt data off apdu] (data.drop off) (replies n) r) :
    FromPiece replies derivation n (data.drop off) ([pieceAt data off apdu], r) := by
  obtain ⟨hpos, hmax, hle⟩ := pieceSize_spec hoff
  refine ⟨?_, ?_, by simp, by simp, h⟩
  · rw [List.map_singleton, pieceOf_pieceAt hoff hp1]
    exact Cut.take hpos hmax hle (Cut.begun _) fun _ => rfl
  · intro c hc
    obtain rfl := List.mem_singleton.1 hc
    exact isPiece_pieceAt hp1 hpiece

lemma FromPiece.cons (hoff : off < data.length) (hp1 : apdu.P1 = p1Next) (hpiece : IsPiece derivation apdu)
    (hnot : off + pieceSize data off ≠ data.length) (hreply : Accepted (replies n))
    {run : List APDUCommand × Except AppError APDUResponse}
    (h : FromPiece replies derivation (n + 1) (data.drop (off + pieceSize data off)) run) :
    FromPiece replies derivation n (data.drop off) (pieceAt data off apdu :: run.1, run.2) := by
  obtain ⟨hpos, hmax, hle⟩ := pieceSize_spec hoff
  have hdrop : data.drop (off + pieceSize data off) = (data.drop off).drop (pieceSize data off) := by
    rw [List.drop_drop]
  have hlen : run.1.length ≠ 0 := by
    intro hzero
    exact h.sent (List.eq_nil_of_length_eq_zero hzero)
  refine ⟨?_, ?_, by simp, ?_, ?_⟩
  · rw [List.map_cons, pieceOf_pieceAt hoff hp1]
    refine Cut.take hpos hmax hle (hdrop ▸ h.cut) ?_
    intro hall
    rw [List.length_drop] at hall
    omega
  · intro c hc
    rcases List.mem_cons.1 hc with rfl | hc
    · exact isPiece_pieceAt hp1 hpiece
    · exact h.isPiece c hc
  · intro i hi
    rw [List.length_cons] at hi
    cases i with
    | zero => exact hreply
    | succ i =>
      have hgoes := h.goesOn i (by omega)
      rwa [show n + 1 + i = n + (i + 1) by omega] at hgoes
  · have hwhole : (pieceAt data off apdu).Data ++ data.drop (off + pieceSize data off) = data.drop off := by
      rw [hdrop, pieceAt_eq hp1, List.take_append_drop]
    have hends := h.ends.cons (pieceAt data off apdu)
    rw [hwhole, show n + 1 + (run.1.length - 1) = n + ((pieceAt data off apdu :: run.1).length - 1) by
      rw [List.length_cons]; omega] at hends
    exact hends

/-- **The loop.** -/
theorem signLoop_fromPiece (res : APDUResponse) (hoff : off < data.length) (hp1 : apdu.P1 = p1Next)
    (hpiece : IsPiece derivation apdu) :
    FromPiece replies derivation n (data.drop off) (signLoop replies data n off apdu res) := by
  induction hk : data.length - off using Nat.strong_induction_on generalizing n off apdu res with
  | _ k ih =>
    obtain ⟨hpos, -, hle⟩ := pieceSize_spec hoff
    rw [signLoop, if_pos hoff]
    dsimp only
    cases hreply : replies n with
    | error err =>
      apply fromPiece_last hoff hp1 hpiece
      rw [hreply]
      exact Ends.transport err
    | ok res' =>
      dsimp only
      by_cases hsw : res'.SW = errOk
      · rw [if_neg (not_not.2 hsw)]
        by_cases hlast : off + pieceSize data off = data.length
        · -- the loop is left, and the last reply is the one that is looked at
          rw [signLoop, if_neg (by omega)]
          apply fromPiece_last hoff hp1 hpiece
          rw [hreply]
          refine Ends.complete hsw ?_
          show (pieceAt data off apdu).Data ++ [] = data.drop off
          rw [pieceAt_eq hp1, List.append_nil]
          exact List.take_of_length_le (by rw [List.length_drop]; omega)
        · have hp1' : (pieceAt data off apdu).P1 = p1Next := by
            rw [pieceAt_eq hp1]
            exact if_neg hlast
          rw [List.length_drop] at hle
          refine FromPiece.cons hoff hp1 hpiece hlast ⟨res', hreply, hsw⟩ ?_
          exact ih (data.length - (off + pieceSize data off)) (by omega) res' (by omega) hp1'
            (isPiece_pieceAt hp1 hpiece).1 rfl
      · rw [if_pos hsw]
        apply fromPiece_last hoff hp1 hpiece
        rw [hreply]
        exact Ends.status hsw

end Loop

/-! ## The call -/

section Call

variable {replies : ℕ → Reply} {derivation : DerivationType} {path : BIP32} {data : Bytes}

lemma fragmented_refused (h : ¬ Accepted (replies 0)) (err : AppError) :
    Fragmented replies derivation path data (pathCommand derivation path) [] (.error err) := by
  refine ⟨rfl, by simp, by simp [messageOf], by simp, by simp, by simp, ?_, ?_, ?_⟩
  · intro hreply
    exact absurd hreply h
  · intro _
    exact ⟨err, rfl⟩
  · intro sig hsig
    cases hsig

lemma messageOf_eq (cs : List APDUCommand) : messageOf cs = joined (cs.map pieceOf) := by
  unfold messageOf joined
  rw [List.flatMap_map]
  rfl

lemma bytes_of_isPiece {c : APDUCommand} (h : IsPiece derivation c) (hne : c.Data ≠ [])
    (hle : c.Data.length ≤ maxAPDUSize) :
    c.Bytes = claTezos :: insSign :: c.P1 :: derivation :: UInt8.ofNat c.Data.length :: c.Data := by
  have hlen : c.Data.length ≠ 0 := by
    intro hzero
    exact hne (List.eq_nil_of_length_eq_zero hzero)
  have hmod : c.Data.length % 256 = c.Data.length := by
    unfold maxAPDUSize at hle
    omega
  unfold APDUCommand.Bytes
  rw [h.Raw]
  dsimp only
  rw [if_pos (Or.inr hlen), hmod, h.Cla, h.Ins, h.P2]
  rfl

/-- The piece that completes the message is marked, and no other one. -/
lemma FromPiece.mark_eq {run : List APDUCommand × Except AppError APDUResponse} {n : ℕ}
    (h : FromPiece replies derivation n data run) {i : ℕ} {c : APDUCommand} (hc : run.1[i]? = some c) :
    c.P1 = if messageOf (run.1.take (i + 1)) = data then 0x81 else 0x01 := by
  have hpiece : (run.1.map pieceOf)[i]? = some (pieceOf c) := by rw [List.getElem?_map, hc, Option.map_some]
  have hflag := h.cut.flag_iff hpiece
  rw [← List.map_take, ← messageOf_eq] at hflag
  have hmark : c.P1 = 0x81 ↔ messageOf (run.1.take (i + 1)) = data := by
    rw [← hflag]
    exact decide_eq_true_iff.symm
  by_cases hwhole : messageOf (run.1.take (i + 1)) = data
  · rw [if_pos hwhole]
    exact hmark.2 hwhole
  · rw [if_neg hwhole]
    rcases (h.isPiece c (List.mem_of_getElem? hc)).2 with hnext | hlast
    · exact hnext
    · exact absurd (hmark.1 hlast) hwhole

lemma fragmented_of_fromPiece (hreply : Accepted (replies 0))
    {run : List APDUCommand × Except AppError APDUResponse} (h : FromPiece replies derivation 1 data run) :
    Fragmented replies derivation path data (pathCommand derivation path) run.1
      (run.2.bind fun res => signatureOf derivation res.Data) := by
  have hpieces : ∀ c ∈ run.1, c.Data ≠ [] ∧ c.Data.length ≤ maxAPDUSize := by
    intro c hc
    exact h.cut.mem (pieceOf c) (List.mem_map_of_mem hc)
  have hlen : run.1.length ≠ 0 := by
    intro hzero
    exact h.sent (List.eq_nil_of_length_eq_zero hzero)
  have hends := h.ends
  rw [show 1 + (run.1.length - 1) = run.1.length by omega] at hends
  refine ⟨rfl, hpieces, ?_, ?_, ?_, ?_, ?_, ?_, ?_⟩
  · rw [messageOf_eq]
    exact h.cut.joined_prefix_whole
  · intro i c hc
    exact h.mark_eq hc
  · intro c hc
    exact bytes_of_isPiece (h.isPiece c hc).1 (hpieces c hc).1 (hpieces c hc).2
  · intro i hi
    cases i with
    | zero => exact hreply
    | succ i =>
      rw [show i + 1 = 1 + i by omega]
      exact h.goesOn i hi
  · rintro ⟨res, hres, hsw⟩
    rw [hres] at hends
    generalize run.2 = r at hends
    cases hends with
    | status hbad => exact absurd hsw hbad
    | complete _ hall => exact hall
  · intro hbad
    generalize hrep : replies run.1.length = reply at hends hbad
    generalize run.2 = r at hends
    cases hends with
    | transport err => exact ⟨_, rfl⟩
    | status hsw => exact ⟨_, rfl⟩
    | complete hsw _ => exact absurd ⟨_, rfl, hsw⟩ hbad
  · intro sig hsig
    generalize hrep : replies run.1.length = reply at hends
    generalize run.2 = r at hends hsig
    cases hends with
    | transport err => cases hsig
    | status hsw => cases hsig
    | complete hsw hall => exact ⟨hall, _, rfl, hsw, signatureOf_ok_iff.1 hsig⟩

/-- **Messages are cut without loss.**  For every derivation, path and message that is not empty, and whatever the
device replies, the path is sent first, and then the pieces of the message, as described by `Fragmented`. -/
theorem sign_fragmented (replies : ℕ → Reply) (derivation : DerivationType) (path : BIP32) {data : Bytes}
    (hdata : data ≠ []) :
    ∃ first cs r, App.Sign replies data derivation path = (first :: cs, r) ∧
      Fragmented replies derivation path data first cs r := by
  unfold App.Sign
  cases hreply : replies 0 with
  | error err =>
    refine ⟨_, _, _, rfl, fragmented_refused ?_ _⟩
    rintro ⟨res, hres, -⟩
    rw [hreply] at hres
    cases hres
  | ok res =>
    dsimp only
    by_cases hsw : res.SW = errOk
    · rw [if_neg (not_not.2 hsw)]
      have hlen : 0 < data.length := List.length_pos_iff.2 hdata
      have hloop : FromPiece replies derivation 1 (data.drop 0)
          (signLoop replies data 1 0 { pathCommand derivation path with P1 := p1Next } res) :=
        signLoop_fromPiece res hlen rfl ⟨rfl, rfl, rfl, rfl, rfl⟩
      rw [List.drop_zero] at hloop
      exact ⟨_, _, _, rfl, fragmented_of_fromPiece ⟨res, hreply, hsw⟩ hloop⟩
    · rw [if_pos hsw]
      refine ⟨_, _, _, rfl, fragmented_refused ?_ _⟩
      rintro ⟨res', hres', hok⟩
      rw [hreply] at hres'
      cases hres'
      exact hsw hok

end Call

/-- A device that accepts every APDU and returns a signature of 64 bytes each time. -/
def willing : ℕ → Reply := fun _ => .ok ⟨List.replicate 64 7, errOk⟩

/-- A message of two pieces of the full size, and its signature. -/
theorem sign_fragmented_two_pieces :
    (App.Sign willing (List.replicate 460 1) DerivationED25519 [0x8000002c]).1.map (fun c => (c.P1, c.Data.length)) =
        [(0x00, 5), (0x01, 230), (0x81, 230)] ∧
      ∃ first cs, App.Sign willing (List.replicate 460 1) DerivationED25519 [0x8000002c] =
          (first :: cs, .ok (.ed25519 (List.replicate 64 7))) ∧
        messageOf cs = List.replicate 460 1 ∧
        ∃ res, willing cs.length = .ok res ∧ res.SW = errOk ∧
          SignatureIn DerivationED25519 res.Data (.ed25519 (List.replicate 64 7)) := by
  have hdata : List.replicate 460 (1 : UInt8) ≠ [] := by decide +kernel
  obtain ⟨first, cs, r, hrun, hfragmented⟩ := sign_fragmented willing DerivationED25519 [0x8000002c] hdata
  have hr : r = .ok (.ed25519 (List.replicate 64 7)) := by
    rw [← show (App.Sign willing (List.replicate 460 1) DerivationED25519 [0x8000002c]).2 = r by rw [hrun]]
    decide +kernel
  subst hr
  exact ⟨by decide +kernel, first, cs, hrun, hfragmented.signature _ rfl⟩

end Signatory.Vault.Ledger.Tezosapp

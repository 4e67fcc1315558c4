import Signatory.Vault.Ledger.KeyId
import Signatory.Vault.Ledger.PublicKey

/-!
# `pkg/vault/ledger`: the APDUs of a path

The number of components and the number of bytes are written in one byte each, and a path of a key id may have any
length.  `path_apdus_fit` says for which paths the two numbers are right.
-/

namespace Signatory.Vault.Ledger.Tezosapp

open Lib Lib.Ascii
open Signer (Bytes Error)

/-- The loop of `BIP32FromBytes`; `nil` is returned where the bytes end too early. -/
def readComponents : ℕ → Bytes → Option BIP32
  | 0, _ => some []
  | n + 1, a :: b :: c :: d :: data =>
    (readComponents n data).map fun path =>
      ((a.toUInt32 <<< 24) ||| (b.toUInt32 <<< 16) ||| (c.toUInt32 <<< 8) ||| d.toUInt32) :: path
  | _ + 1, _ => none

def BIP32FromBytes : Bytes → Option BIP32
  | [] => none
  | ln :: data => readComponents ln.toNat data

/-! ## Paths as bytes -/

lemma or_of_bytes {a b c d : ℕ} (ha : a < 256) (hb : b < 256) (hc : c < 256) (hd : d < 256) :
    (a * 2 ^ 24 % 2 ^ 32 ||| b * 2 ^ 16 % 2 ^ 32 ||| c * 2 ^ 8 % 2 ^ 32 ||| d) =
      2 ^ 24 * a + (2 ^ 16 * b + (2 ^ 8 * c + d)) := by
  have ha' : a * 2 ^ 24 % 2 ^ 32 = 2 ^ 24 * a := by rw [Nat.mod_eq_of_lt (by omega), Nat.mul_comm]
  have hb' : b * 2 ^ 16 % 2 ^ 32 = 2 ^ 16 * b := by rw [Nat.mod_eq_of_lt (by omega), Nat.mul_comm]
  have hc' : c * 2 ^ 8 % 2 ^ 32 = 2 ^ 8 * c := by rw [Nat.mod_eq_of_lt (by omega), Nat.mul_comm]
  rw [ha', hb', hc', Nat.or_assoc, Nat.or_assoc, ← Nat.two_pow_add_eq_or_of_lt hd c,
    ← Nat.two_pow_add_eq_or_of_lt (by omega) b, ← Nat.two_pow_add_eq_or_of_lt (by omega) a]

lemma ofWordBytes (p : UInt32) :
    ((p >>> 24).toUInt8.toUInt32 <<< 24 ||| (p >>> 16).toUInt8.toUInt32 <<< 16 ||| (p >>> 8).toUInt8.toUInt32 <<< 8 |||
      p.toUInt8.toUInt32) = p := by
  have h24 : (24 : UInt32).toNat % 32 = 24 := rfl
  have h16 : (16 : UInt32).toNat % 32 = 16 := rfl
  have h8 : (8 : UInt32).toNat % 32 = 8 := rfl
  rw [← UInt32.toNat_inj]
  simp only [UInt32.toNat_or, UInt32.toNat_shiftLeft, UInt8.toNat_toUInt32, UInt32.toNat_toUInt8,
    UInt32.toNat_shiftRight, h24, h16, h8, Nat.shiftRight_eq_div_pow, Nat.shiftLeft_eq]
  have hlt := p.toNat_lt
  have hbyte (n : ℕ) : n % 2 ^ 8 < 256 := Nat.mod_lt n (by decide)
  rw [or_of_bytes (hbyte _) (hbyte _) (hbyte _) (hbyte _)]
  omega

/-- The components that are read are those that were written, whatever follows them. -/
lemma readComponents_bytes (path : BIP32) (after : Bytes) :
    readComponents path.length (path.flatMap wordBytes ++ after) = some path := by
  induction path with
  | nil => rfl
  | cons p path ih =>
    rw [List.flatMap_cons, List.append_assoc]
    show (readComponents path.length (path.flatMap wordBytes ++ after)).map _ = _
    rw [ih, Option.map_some, ofWordBytes]

lemma length_pathBytes (path : BIP32) : path.Bytes.length = 4 * path.length + 1 := by
  rw [BIP32.Bytes, List.length_cons, List.length_flatMap]
  simp [wordBytes, Nat.mul_comm]

/-- **A path of less than 256 components is read back.** -/
lemma BIP32FromBytes_Bytes {path : BIP32} (h : path.length < 256) : BIP32FromBytes path.Bytes = some path := by
  have hlength : (UInt8.ofNat (path.length % 256)).toNat = path.length := by
    rw [UInt8.toNat_ofNat']
    omega
  show readComponents (UInt8.ofNat (path.length % 256)).toNat (path.flatMap wordBytes) = some path
  rw [hlength]
  simpa using readComponents_bytes path []

/-! ## What is asked of an APDU -/

/-- An APDU with `skip` bytes before the path: the length byte counts the data, and the path is read back from it. -/
def IsPathApdu (skip : ℕ) (path : BIP32) (c : APDUCommand) : Prop :=
  ∃ lc data, c.Bytes = [c.Cla, c.Ins, c.P1, c.P2] ++ lc :: data ∧ lc.toNat = data.length ∧
    BIP32FromBytes (data.drop skip) = some path

/-- The first APDU that is sent is the one of the path, or the path is rejected and nothing is sent. -/
def Represents (skip : ℕ) (path : BIP32) (sent : List APDUCommand) (rejected : Prop) : Prop :=
  (sent = [] ∧ rejected) ∨ ∃ c rest, sent = c :: rest ∧ IsPathApdu skip path c

lemma represents_cons {skip : ℕ} {path : BIP32} {c : APDUCommand} {rest : List APDUCommand} {rejected : Prop} :
    Represents skip path (c :: rest) rejected ↔ IsPathApdu skip path c := by
  constructor
  · rintro (⟨hnil, -⟩ | ⟨c', rest', hsent, hpath⟩)
    · exact absurd hnil (List.cons_ne_nil c rest)
    · rw [(List.cons.inj hsent).1]
      exact hpath
  · intro hpath
    exact Or.inr ⟨c, rest, rfl, hpath⟩

/-- **When an APDU represents its path**: as long as all its bytes can be counted. -/
lemma isPathApdu_iff {skip : ℕ} {before : Bytes} (hskip : before.length = skip) {c : APDUCommand} {path : BIP32}
    (hraw : c.Raw = none) (hdata : c.Data = before ++ path.Bytes) :
    IsPathApdu skip path c ↔ skip + 4 * path.length + 1 < 256 := by
  subst hskip
  have hlength : c.Data.length = before.length + 4 * path.length + 1 := by
    rw [hdata, List.length_append, length_pathBytes]
    omega
  have hbytes : c.Bytes = [c.Cla, c.Ins, c.P1, c.P2] ++ UInt8.ofNat (c.Data.length % 256) :: c.Data := by
    rw [APDUCommand.Bytes, hraw]
    dsimp only
    rw [if_pos (Or.inr (by omega)), List.append_assoc]
    rfl
  have hcount : (UInt8.ofNat (c.Data.length % 256)).toNat = c.Data.length % 256 := by
    rw [UInt8.toNat_ofNat']
    omega
  constructor
  · rintro ⟨lc, data, hc, hlc, -⟩
    rw [hbytes] at hc
    obtain ⟨rfl, rfl⟩ := List.cons.inj (List.append_cancel_left hc)
    omega
  · intro hfits
    refine ⟨_, _, hbytes, by omega, ?_⟩
    rw [hdata, List.drop_left]
    exact BIP32FromBytes_Bytes (by omega)

/-! ## Commands for a path -/

section Commands

variable {path : BIP32} (check : CurveCheck) (derivation : DerivationType) (reply : Reply)

lemma pathValid_ok (h : ∀ p ∈ path, p &&& BIP32H ≠ 0) : pathValid path = .ok () := by
  refine if_neg ?_
  rintro ⟨p, hp, hplain⟩
  exact h p hp hplain

lemma getPublicKey_represents_iff (h : ∀ p ∈ path, p &&& BIP32H ≠ 0) (prompt : Bool) (rejected : Prop) :
    Represents 0 path (App.GetPublicKey check derivation path prompt reply).1 rejected ↔ path.length ≤ 63 := by
  rw [App.GetPublicKey, pathValid_ok h]
  apply represents_cons.trans
  rw [isPathApdu_iff (List.length_nil) rfl rfl]
  omega

lemma sign_represents_iff (replies : ℕ → Reply) (data : Bytes) (path : BIP32) (rejected : Prop) :
    Represents 0 path (App.Sign replies data derivation path).1 rejected ↔ path.length ≤ 63 := by
  obtain ⟨rest, hsent⟩ : ∃ rest, (App.Sign replies data derivation path).1 = pathCommand derivation path :: rest := by
    unfold App.Sign
    dsimp only
    split
    next => exact ⟨[], rfl⟩
    next res _ =>
      split
      next => exact ⟨[], rfl⟩
      next => exact ⟨_, rfl⟩
  rw [hsent]
  apply represents_cons.trans
  rw [isPathApdu_iff (List.length_nil) rfl rfl]
  omega

lemma setupBaking_represents_iff (h : ∀ p ∈ path, p &&& BIP32H ≠ 0) (hwm : Option HWM) (rejected : Prop) :
    Represents 12 path (App.SetupBaking check hwm derivation path reply).1 rejected ↔ path.length ≤ 60 := by
  rw [App.SetupBaking, pathValid_ok h]
  apply represents_cons.trans
  rw [isPathApdu_iff _ rfl rfl]
  · omega
  · simp [wordBytes]

end Commands

end Signatory.Vault.Ledger.Tezosapp

namespace Signatory.Vault.Ledger

open Lib Lib.Ascii Tezosapp
open Signer (Bytes)

/-- **Which paths are represented.**  No path is rejected for its length; up to 63 components are counted right, or 60
after a watermark. -/
theorem path_apdus_fit {lowerRunes : Bytes → Bytes} {s : Bytes} {k : KeyID}
    (h : parseKeyID lowerRunes s = .ok (.ok k)) (check : CurveCheck) (prompt : Bool) (reply : Reply)
    (replies : ℕ → Reply) (data : Bytes) (hwm : Option HWM) :
    (Represents 0 k.path (App.GetPublicKey check k.dt k.path prompt reply).1
        (∃ err, (App.GetPublicKey check k.dt k.path prompt reply).2 = .ok (.error err)) ↔ k.path.length ≤ 63) ∧
      (Represents 0 k.path (App.Sign replies data k.dt k.path).1
        (∃ err, (App.Sign replies data k.dt k.path).2 = .error err) ↔ k.path.length ≤ 63) ∧
      (Represents 12 k.path (App.SetupBaking check hwm k.dt k.path reply).1
        (∃ err, (App.SetupBaking check hwm k.dt k.path reply).2 = .ok (.error err)) ↔ k.path.length ≤ 60) := by
  have hhardened := (wellFormed_of_parseKeyID h).hardened
  refine ⟨?_, ?_, ?_⟩
  · apply getPublicKey_represents_iff
    exact hhardened
  · apply sign_represents_iff
  · apply setupBaking_represents_iff
    exact hhardened

/-- A path of three components. -/
theorem path_apdus_fit_first_account :
    Represents 0 firstAccount.path (App.Sign (fun _ => .ok { Data := [], SW := errOk }) [1] 0 firstAccount.path).1
      (∃ err, (App.Sign (fun _ => .ok { Data := [], SW := errOk }) [1] 0 firstAccount.path).2 = .error err) := by
  have h : parseKeyID id (ascii "ed25519/0'") = .ok (.ok firstAccount) := rfl
  exact ((path_apdus_fit h reducedCheck false (.ok { Data := [], SW := errOk }) _ [1] none).2.1).2 (by decide)

/-- A key id of 64 components, the first two of them the root. -/
def longID : Bytes := ascii "ed25519/44'/1729'" ++ (List.replicate 62 (ascii "/0'")).flatten

/-- The 257 bytes of its path are announced as one byte. -/
theorem path_of_64_components :
    ∃ k c, parseKeyID id longID = .ok (.ok k) ∧ k.path.length = 64 ∧
      (App.GetPublicKey reducedCheck k.dt k.path false (.ok { Data := [], SW := errOk })).1 = [c] ∧
      c.Data.length = 257 ∧ c.Bytes = [0x80, 2, 0, 0, 1] ++ c.Data := by
  refine ⟨{ dt := 0, path := TezosBIP32Root ++ List.replicate 62 BIP32H }, _, ?_, ?_, rfl, ?_, ?_⟩
  · decide +kernel
  · rfl
  · decide +kernel
  · decide +kernel

end Signatory.Vault.Ledger

import Mathlib.Algebra.Order.Floor.Div
import Signatory.Lib.Fallible
import Signatory.Lib.Shares
import Signatory.Vault.Ledger.App

/-!
# `pkg/vault/ledger/ledger`: APDUs in HID packets

An APDU is sent with its length in front of it, in packets of 64 bytes: a header of five bytes with the channel, the
command and the number of the packet, and 59 bytes of the message, zeros at the end of the last one.  `readCommand` puts
such packets together again: `readCommand_writeCommand`.

A read from the device may return fewer than 64 bytes.  `readPacket` hands on the whole buffer then, zeros that the
device did not send included: `reply_sent_iff`.
-/

namespace Signatory.Vault.Ledger.Usbhid

open Lib.Fallible Lib.Shares
open Tezosapp (APDUCommand APDUResponse)
open Signer (Bytes Error)

def headerSize : ℕ := 5

def packetSize : ℕ := 64

def chunkSize : ℕ := packetSize - headerSize

def cmdAPDU : UInt8 := 5

structure Packet where
  channel : UInt16
  cmd : UInt8
  seq : UInt16 := 0
  data : Bytes := []
  deriving DecidableEq

/-- What is written to the device, or read from it, at once. -/
abbrev Report := { b : Bytes // b.length ≤ packetSize }

/-- What a read from the device returns. -/
abbrev Read := Except Error Report

/-- Bytes at the beginning of a buffer of zeros. -/
def pad (n : ℕ) (b : Bytes) : Bytes := b ++ List.replicate (n - b.length) 0

lemma length_pad {n : ℕ} {b : Bytes} (h : b.length ≤ n) : (pad n b).length = n := by
  rw [pad, List.length_append, List.length_replicate]
  omega

/-! ## Packets -/

/-- The two bytes of a word. -/
def bytes16 (w : UInt16) : Bytes := [(w >>> 8).toUInt8, w.toUInt8]

def word16 (b₁ b₀ : UInt8) : UInt16 := b₁.toUInt16 <<< 8 ||| b₀.toUInt16

/-- The buffer that `writePacket` writes. -/
def writePacket (p : Packet) : Report where
  val := bytes16 p.channel ++ p.cmd :: bytes16 p.seq ++ pad chunkSize (p.data.take chunkSize)
  property := by
    have hpad : (pad chunkSize (p.data.take chunkSize)).length = chunkSize := length_pad (List.length_take_le _ _)
    simp only [List.length_append, List.length_cons, hpad, bytes16, List.length_nil]
    decide

def wrapError (err : Error) : Error := { err with text := "ledger: " ++ err.text }

/-- `readPacket`; the data are the rest of the buffer, however much of it was read. -/
def readPacket (read : Read) : Except Error Packet := do
  let pl ← read.mapError wrapError
  match pl.1 with
  | c₁ :: c₀ :: cmd :: s₁ :: s₀ :: _ =>
    pure ⟨word16 c₁ c₀, cmd, word16 s₁ s₀, (pad packetSize pl.1).drop headerSize⟩
  | _ => throw { text := "ledger: packet is too short: " ++ toString pl.1.length }

/-! ## Commands -/

section Write

variable (channel : UInt16) (cmd : UInt8) (writes : ℕ → Option Error) (buf : Bytes)

/-- The loop of `writeCommand`; `writes` says how the writes end. -/
def writeLoop (i off : ℕ) : List Report × Except Error Unit :=
  if off < buf.length then
    let sz := if chunkSize > buf.length - off then buf.length - off else chunkSize
    let pkt := writePacket ⟨channel, cmd, UInt16.ofNat i, (buf.drop off).take sz⟩
    match writes i with
    | some err => ([pkt], .error (wrapError err))
    | none =>
      let rest := writeLoop (i + 1) (off + sz)
      (pkt :: rest.1, rest.2)
  else ([], .ok ())
termination_by buf.length - off
decreasing_by
  unfold chunkSize packetSize headerSize
  split_ifs <;> omega

/-- An APDU with its length in front. -/
def withLength (data : Bytes) : Bytes :=
  UInt8.ofNat (data.length >>> 8 &&& 0xff) :: UInt8.ofNat (data.length &&& 0xff) :: data

def writeCommand (data : Bytes) : List Report × Except Error Unit :=
  if cmd ≠ cmdAPDU then
    ([writePacket { channel := channel, cmd := cmd }], (writes 0).elim (.ok ()) fun err => .error (wrapError err))
  else writeLoop channel cmd writes (withLength data) 0 0

end Write

/-- The variables of `readCommand`. -/
structure Reading where
  idx : UInt16 := 0
  dataLen : ℕ := 0
  channel : UInt16 := 0
  cmd : UInt8 := 0
  data : Bytes := []

/-- What `readCommand` returns. -/
structure Reply where
  channel : UInt16
  cmd : UInt8
  data : Bytes
  deriving DecidableEq

/-- What is done with the first packet only: the part of its data that belongs to the message. -/
def start (s : Reading) (pkt : Packet) : Except Error (Bytes × Reading) :=
  if s.idx = 0 then
    let s := { s with cmd := pkt.cmd, channel := pkt.channel }
    if pkt.cmd = cmdAPDU then
      match pkt.data with
      | l₁ :: l₀ :: pl => .ok (pl, { s with dataLen := l₁.toNat <<< 8 ||| l₀.toNat })
      | pl => .error { text := "ledger: packet is too short: " ++ toString pl.length }
    else .ok (pkt.data, s)
  else .ok (pkt.data, s)

/-- A turn of the loop, up to the check whether the message is complete. -/
def turn (s : Reading) (pkt : Packet) : Except Error Reading := do
  let (pl, s) ← start s pkt
  if pkt.seq ≠ s.idx then throw { text := "ledger: invalid packet index: " ++ toString pkt.seq.toNat }
  if pkt.cmd ≠ s.cmd then throw { text := "ledger: unexpected command: " ++ toString pkt.cmd.toNat }
  if pkt.channel ≠ s.channel then throw { text := "ledger: unexpected channel: " ++ toString pkt.channel.toNat }
  let ln := if pl.length > s.dataLen - s.data.length then s.dataLen - s.data.length else pl.length
  pure { s with data := s.data ++ pl.take ln, idx := s.idx + 1 }

/-- The loop, with the reads that are left after it.  Without another read it waits. -/
def readLoop (s : Reading) : List Read → Option (Except Error Reply) × List Read
  | [] => (none, [])
  | read :: reads =>
    match readPacket read >>= turn s with
    | .error err => (some (.error err), reads)
    | .ok s =>
      if s.data.length = s.dataLen then (some (.ok ⟨s.channel, s.cmd, s.data⟩), reads)
      else readLoop s reads

def readCommand (reads : List Read) : Option (Except Error Reply) × List Read := readLoop {} reads

/-! ## Exchange -/

def parseAPDUResponse (buf : Bytes) : Option APDUResponse :=
  match buf.reverse with
  | sw₀ :: sw₁ :: data => some ⟨data.reverse, word16 sw₁ sw₀⟩
  | _ => none

/-- `Exchange`: what is written, what is returned, and the reads that are left. -/
def Exchange (channel : UInt16) (writes : ℕ → Option Error) (reads : List Read) (req : APDUCommand) :
    List Report × Option (Except Error APDUResponse) × List Read :=
  match writeCommand channel cmdAPDU writes req.Bytes with
  | (pkts, .error err) => (pkts, some (.error err), reads)
  | (pkts, .ok _) =>
    let (r, rest) := readCommand reads
    (pkts, r.map fun r => do
      let r ← r
      if r.channel ≠ channel then
        throw { text := "ledger: invalid channel in reply: " ++ toString r.channel.toNat }
      if r.cmd ≠ cmdAPDU then throw { text := "ledger: invalid command: " ++ toString r.cmd.toNat }
      match parseAPDUResponse r.data with
      | none => throw { text := "ledger: error parsing APDU response" }
      | some res => pure res, rest)

/-! ## One packet -/

lemma or_eq_add (h l : UInt8) : h.toNat <<< 8 ||| l.toNat = h.toNat * 256 + l.toNat := by
  rw [← Nat.shiftLeft_add_eq_or_of_lt l.toNat_lt, Nat.shiftLeft_eq]

lemma toNat_word16 (h l : UInt8) : (word16 h l).toNat = h.toNat * 256 + l.toNat := by
  have hh := h.toNat_lt
  have hfits : h.toNat <<< 8 % 2 ^ 16 = h.toNat <<< 8 := by
    rw [Nat.shiftLeft_eq]
    omega
  rw [← or_eq_add, ← hfits]
  simp only [word16, UInt16.toNat_or, UInt16.toNat_shiftLeft, UInt8.toNat_toUInt16]
  rfl

lemma word16_bytes16 (w : UInt16) : word16 (w >>> 8).toUInt8 w.toUInt8 = w := by
  have hw := w.toNat_lt
  have hhigh : (w >>> 8).toUInt8.toNat = w.toNat / 256 := by
    have hshift : (w >>> 8).toNat = w.toNat / 256 := by
      rw [UInt16.toNat_shiftRight, Nat.shiftRight_eq_div_pow]
      rfl
    rw [UInt16.toNat_toUInt8, hshift]
    omega
  apply UInt16.toNat_inj.1
  rw [toNat_word16, hhigh, UInt16.toNat_toUInt8]
  omega

lemma length_writePacket (p : Packet) : (writePacket p).1.length = packetSize := by
  show (pad chunkSize (p.data.take chunkSize)).length + 5 = packetSize
  rw [length_pad (List.length_take_le _ _)]
  rfl

lemma readPacket_of_header {b : Report} {c₁ c₀ cmd s₁ s₀ : UInt8} {pl : Bytes}
    (h : b.1 = c₁ :: c₀ :: cmd :: s₁ :: s₀ :: pl) :
    readPacket (.ok b) = .ok ⟨word16 c₁ c₀, cmd, word16 s₁ s₀, (pad packetSize b.1).drop headerSize⟩ := by
  obtain ⟨b, hb⟩ := b
  dsimp only at h
  subst h
  rfl

lemma readPacket_writePacket (p : Packet) (h : p.data.length ≤ chunkSize) :
    readPacket (.ok (writePacket p)) = .ok { p with data := pad chunkSize p.data } := by
  have hbytes : (writePacket p).1 = (p.channel >>> 8).toUInt8 :: p.channel.toUInt8 :: p.cmd :: (p.seq >>> 8).toUInt8 ::
      p.seq.toUInt8 :: pad chunkSize p.data := by
    rw [← List.take_of_length_le h]
    rfl
  have hpad : (pad packetSize (writePacket p).1).drop headerSize = pad chunkSize p.data := by
    rw [pad, length_writePacket, Nat.sub_self, List.replicate_zero, List.append_nil, hbytes]
    rfl
  rw [readPacket_of_header hbytes, hpad, word16_bytes16, word16_bytes16]

/-! ## One turn -/

/-- The number of a packet after the first one, as long as it does not wrap. -/
lemma ofNat_succ_ne_zero {j : ℕ} (h : j < 65535) : UInt16.ofNat (j + 1) ≠ 0 := by
  intro hzero
  have hnat := congrArg UInt16.toNat hzero
  rw [UInt16.toNat_ofNat', UInt16.toNat_zero] at hnat
  omega

lemma take_ite (pl : Bytes) (n : ℕ) : pl.take (if pl.length > n then n else pl.length) = pl.take n := by
  split_ifs with h
  · rfl
  · rw [List.take_length, List.take_of_length_le (by omega)]

lemma turn_ok_iff {s s' : Reading} {pkt : Packet} (hidx : s.idx ≠ 0) :
    turn s pkt = .ok s' ↔ pkt.seq = s.idx ∧ pkt.cmd = s.cmd ∧ pkt.channel = s.channel ∧
      s' = { s with data := s.data ++ pkt.data.take (s.dataLen - s.data.length), idx := s.idx + 1 } := by
  simp only [turn, start, if_neg hidx, ok_bind_iff, Except.ok.injEq, exists_eq_left', ok_check_bind_iff, ok_pure_iff,
    not_not, take_ite]
  exact and_congr_right fun _ => and_congr_right fun _ => and_congr_right fun _ => eq_comm

/-- What is done with the first packet of an APDU. -/
def begun (pkt : Packet) (l₁ l₀ : UInt8) (pl : Bytes) : Reading where
  idx := 1
  dataLen := l₁.toNat <<< 8 ||| l₀.toNat
  channel := pkt.channel
  cmd := cmdAPDU
  data := pl.take (l₁.toNat <<< 8 ||| l₀.toNat)

lemma turn_first_apdu {s : Reading} {pkt : Packet} (hcmd : pkt.cmd = cmdAPDU) :
    turn {} pkt = .ok s ↔ pkt.seq = 0 ∧ ∃ l₁ l₀ pl, pkt.data = l₁ :: l₀ :: pl ∧ s = begun pkt l₁ l₀ pl := by
  obtain ⟨channel, cmd, seq, data⟩ := pkt
  dsimp only at hcmd
  subst hcmd
  match data with
  | [] | [_] =>
    refine iff_of_false (fun h => ?_) ?_
    · cases h
    · rintro ⟨-, l₁, l₀, pl, h, -⟩
      cases h
  | l₁ :: l₀ :: pl =>
    simp only [turn, start, ↓reduceIte, ok_bind_iff, Except.ok.injEq, exists_eq_left', ok_check_bind_iff, ok_pure_iff,
      not_not, take_ite, ne_eq, true_and, List.length_nil, Nat.sub_zero, List.nil_append]
    refine and_congr_right fun _ => ?_
    constructor
    · intro h
      exact ⟨l₁, l₀, pl, rfl, h.symm⟩
    · rintro ⟨l₁', l₀', pl', h, hs⟩
      cases h
      exact hs.symm

lemma turn_first_other {s : Reading} {pkt : Packet} (hcmd : pkt.cmd ≠ cmdAPDU) :
    turn {} pkt = .ok s ↔ pkt.seq = 0 ∧ s = { idx := 1, channel := pkt.channel, cmd := pkt.cmd } := by
  simp only [turn, start, ↓reduceIte, if_neg hcmd, ok_bind_iff, Except.ok.injEq, exists_eq_left', ok_check_bind_iff,
    ok_pure_iff, not_not, take_ite, ne_eq, true_and, List.length_nil, Nat.sub_zero, List.take_zero, List.nil_append]
  exact and_congr_right fun _ => eq_comm

lemma readLoop_cons {s s' : Reading} {read : Read} {pkt : Packet} (hread : readPacket read = .ok pkt)
    (hturn : turn s pkt = .ok s') (reads : List Read) : readLoop s (read :: reads) =
      if s'.data.length = s'.dataLen then (some (.ok ⟨s'.channel, s'.cmd, s'.data⟩), reads)
      else readLoop s' reads := by
  have hstep : readPacket read >>= turn s = .ok s' := ok_bind_iff.2 ⟨pkt, hread, hturn⟩
  rw [readLoop, hstep]

/-! ## What is written -/

section Written

variable {channel : UInt16} {cmd : UInt8} {buf : Bytes} {i off : ℕ}

/-- The packet with the chunk at `off`. -/
def chunkPacket (channel : UInt16) (cmd : UInt8) (buf : Bytes) (i off : ℕ) : Packet :=
  ⟨channel, cmd, UInt16.ofNat i, (buf.drop off).take chunkSize⟩

lemma writeLoop_done {writes : ℕ → Option Error} (h : buf.length ≤ off) :
    writeLoop channel cmd writes buf i off = ([], .ok ()) := by
  rw [writeLoop, if_neg (by omega)]

/-- **One chunk** after the other. -/
lemma writeLoop_next (h : off < buf.length) : writeLoop channel cmd (fun _ => none) buf i off =
    (writePacket (chunkPacket channel cmd buf i off) ::
      (writeLoop channel cmd (fun _ => none) buf (i + 1) (off + chunkSize)).1,
      (writeLoop channel cmd (fun _ => none) buf (i + 1) (off + chunkSize)).2) := by
  rw [writeLoop, if_pos h]
  dsimp only
  split_ifs with hlast
  · -- the last chunk is shorter, and the loop ends after it
    have htake : (buf.drop off).take (buf.length - off) = (buf.drop off).take chunkSize := by
      rw [List.take_of_length_le (by rw [List.length_drop]), List.take_of_length_le (by rw [List.length_drop]; omega)]
    rw [writeLoop_done (by omega), writeLoop_done (by omega), htake]
    rfl
  · rfl

lemma writeLoop_ok : (writeLoop channel cmd (fun _ => none) buf i off).2 = .ok () := by
  induction hk : buf.length - off using Nat.strong_induction_on generalizing i off with
  | _ k ih =>
    by_cases h : off < buf.length
    · rw [writeLoop_next h]
      exact ih (buf.length - (off + chunkSize)) (by unfold chunkSize packetSize headerSize; omega) rfl
    · rw [writeLoop_done (by omega)]

lemma length_writeLoop :
    (writeLoop channel cmd (fun _ => none) buf i off).1.length = (buf.length - off) ⌈/⌉ chunkSize := by
  induction hk : buf.length - off using Nat.strong_induction_on generalizing i off with
  | _ k ih =>
    have hsize : chunkSize = 59 := rfl
    by_cases h : off < buf.length
    · rw [writeLoop_next h, List.length_cons, ih (buf.length - (off + chunkSize)) (by omega) rfl]
      simp only [hsize, Nat.ceilDiv_eq_add_pred_div]
      omega
    · rw [writeLoop_done (by omega), List.length_nil]
      simp only [hsize, Nat.ceilDiv_eq_add_pred_div]
      omega

lemma getElem?_writeLoop {j : ℕ} {p : Report}
    (h : (writeLoop channel cmd (fun _ => none) buf i off).1[j]? = some p) :
    ∃ off, p = writePacket (chunkPacket channel cmd buf (i + j) off) := by
  induction j generalizing i off with
  | zero =>
    by_cases hoff : off < buf.length
    · rw [writeLoop_next hoff] at h
      exact ⟨off, (Option.some.inj h).symm⟩
    · rw [writeLoop_done (by omega)] at h
      cases h
  | succ j ih =>
    by_cases hoff : off < buf.length
    · rw [writeLoop_next hoff, List.getElem?_cons_succ] at h
      obtain ⟨off', hp⟩ := ih h
      exact ⟨off', by rw [hp, show i + 1 + j = i + (j + 1) by omega]⟩
    · rw [writeLoop_done (by omega)] at h
      cases h

lemma readPacket_chunkPacket (channel : UInt16) (cmd : UInt8) (buf : Bytes) (i off : ℕ) :
    readPacket (.ok (writePacket (chunkPacket channel cmd buf i off))) =
      .ok ⟨channel, cmd, UInt16.ofNat i, pad chunkSize ((buf.drop off).take chunkSize)⟩ :=
  readPacket_writePacket _ (List.length_take_le _ _)

end Written

/-! ## Round trip -/

lemma take_pad (data : Bytes) (k m : ℕ) :
    (pad m ((data.drop k).take m)).take (data.length - k) = (data.drop k).take m := by
  unfold pad
  by_cases hm : m ≤ data.length - k
  · have hlen : ((data.drop k).take m).length = m := by
      rw [List.length_take, List.length_drop]
      omega
    rw [hlen, Nat.sub_self, List.replicate_zero, List.append_nil, List.take_of_length_le (by omega)]
  · have hlen : ((data.drop k).take m).length = data.length - k := by
      rw [List.length_take, List.length_drop]
      omega
    rw [List.take_left' hlen]

section RoundTrip

variable {data : Bytes} (hdata : data.length ≤ 65535)

include hdata

lemma length_of_withLength :
    (UInt8.ofNat (data.length >>> 8 &&& 0xff)).toNat <<< 8 ||| (UInt8.ofNat (data.length &&& 0xff)).toNat =
      data.length := by
  have hhigh : data.length >>> 8 &&& 0xff = data.length / 256 := by
    rw [Nat.shiftRight_eq_div_pow, show (0xff : ℕ) = 2 ^ 8 - 1 by rfl, Nat.and_two_pow_sub_one_eq_mod]
    omega
  have hlow : data.length &&& 0xff = data.length % 256 := Nat.and_two_pow_sub_one_eq_mod _ 8
  rw [or_eq_add, hhigh, hlow, UInt8.toNat_ofNat', UInt8.toNat_ofNat']
  omega

/-- The loops meet after the first packet and `j` others. -/
lemma readLoop_writeLoop (channel : UInt16) (rest : List Read) {j : ℕ} (hj : j * 59 + 57 < data.length) :
    readLoop ⟨UInt16.ofNat (j + 1), data.length, channel, cmdAPDU, data.take (j * 59 + 57)⟩
        ((writeLoop channel cmdAPDU (fun _ => none) (withLength data) (j + 1) (j * 59 + 59)).1.map .ok ++ rest) =
      (some (.ok ⟨channel, cmdAPDU, data⟩), rest) := by
  have hsize : chunkSize = 59 := rfl
  have hbuf : (withLength data).length = data.length + 2 := rfl
  induction hk : data.length - j using Nat.strong_induction_on generalizing j with
  | _ k ih =>
    have hidx : UInt16.ofNat (j + 1) ≠ 0 := ofNat_succ_ne_zero (by omega)
    have htaken : (data.take (j * 59 + 57)).length = j * 59 + 57 := by
      rw [List.length_take]
      omega
    have hturn := (@turn_ok_iff ⟨UInt16.ofNat (j + 1), data.length, channel, cmdAPDU, data.take (j * 59 + 57)⟩ _
      ⟨channel, cmdAPDU, UInt16.ofNat (j + 1), pad chunkSize ((data.drop (j * 59 + 57)).take chunkSize)⟩
      hidx).2 ⟨rfl, rfl, rfl, rfl⟩
    dsimp only at hturn
    rw [htaken, take_pad, ← List.take_add] at hturn
    have hread : readPacket (.ok (writePacket (chunkPacket channel cmdAPDU (withLength data) (j + 1) (j * 59 + 59)))) =
        .ok ⟨channel, cmdAPDU, UInt16.ofNat (j + 1), pad chunkSize ((data.drop (j * 59 + 57)).take chunkSize)⟩ :=
      readPacket_chunkPacket _ _ _ _ _
    rw [writeLoop_next (by omega), List.map_cons, List.cons_append, readLoop_cons hread hturn]
    dsimp only
    by_cases hlast : data.length ≤ (j + 1) * 59 + 57
    · rw [List.take_of_length_le (by omega), if_pos rfl, writeLoop_done (by omega)]
      rfl
    · have hlen : (data.take (j * 59 + 57 + chunkSize)).length ≠ data.length := by
        rw [List.length_take]
        omega
      rw [if_neg hlen]
      have hnext := ih (data.length - (j + 1)) (by omega) (by omega) rfl
      rw [show (j + 1) * 59 + 57 = j * 59 + 57 + chunkSize by omega,
        show (j + 1) * 59 + 59 = j * 59 + 59 + chunkSize by omega] at hnext
      have hword : UInt16.ofNat (j + 1) + 1 = UInt16.ofNat (j + 1 + 1) := (UInt16.ofNat_add _ _).symm
      rw [hword]
      exact hnext

lemma turn_first_chunk (channel : UInt16) :
    turn {} ⟨channel, cmdAPDU, UInt16.ofNat 0, pad chunkSize ((withLength data).take chunkSize)⟩ =
      .ok ⟨UInt16.ofNat (0 + 1), data.length, channel, cmdAPDU, data.take (0 * 59 + 57)⟩ := by
  have hpad : pad chunkSize ((withLength data).take chunkSize) = UInt8.ofNat (data.length >>> 8 &&& 0xff) ::
      UInt8.ofNat (data.length &&& 0xff) :: pad 57 (data.take 57) := by
    have hroom : chunkSize - ((withLength data).take chunkSize).length = 57 - (data.take 57).length := by
      show 59 - ((data.take 57).length + 2) = 57 - (data.take 57).length
      omega
    rw [pad, hroom]
    rfl
  have htake := take_pad data 0 57
  rw [List.drop_zero, Nat.sub_zero] at htake
  rw [turn_first_apdu rfl]
  refine ⟨rfl, _, _, _, hpad, ?_⟩
  rw [begun, length_of_withLength hdata, htake]
  rfl

omit hdata in
lemma writeCommand_apdu (channel : UInt16) (data : Bytes) :
    writeCommand channel cmdAPDU (fun _ => none) data =
      ((writeLoop channel cmdAPDU (fun _ => none) (withLength data) 0 0).1, .ok ()) := by
  rw [writeCommand, if_neg (by decide), ← writeLoop_ok]

lemma readCommand_packets (channel : UInt16) (rest : List Read) :
    readCommand ((writeLoop channel cmdAPDU (fun _ => none) (withLength data) 0 0).1.map .ok ++ rest) =
      (some (.ok ⟨channel, cmdAPDU, data⟩), rest) := by
  have hsize : chunkSize = 59 := rfl
  have hbuf : (withLength data).length = data.length + 2 := rfl
  have hread := readPacket_chunkPacket channel cmdAPDU (withLength data) 0 0
  rw [List.drop_zero] at hread
  rw [readCommand, writeLoop_next (by omega), List.map_cons, List.cons_append,
    readLoop_cons hread (turn_first_chunk hdata channel)]
  dsimp only
  by_cases hone : data.length ≤ 57
  · rw [List.take_of_length_le (by omega), if_pos rfl, writeLoop_done (by omega)]
    rfl
  · have hlen : (data.take (0 * 59 + 57)).length ≠ data.length := by
      rw [List.length_take]
      omega
    rw [if_neg hlen]
    exact readLoop_writeLoop hdata channel rest (by omega)

/-- **Framing is lossless.**  An APDU of at most 65535 bytes is written in as many packets as are needed for it and its
length, with their numbers in order, and `readCommand` takes these packets and returns the APDU. -/
theorem readCommand_writeCommand (channel : UInt16) (rest : List Read) :
    ∃ pkts, writeCommand channel cmdAPDU (fun _ => none) data = (pkts, .ok ()) ∧
      pkts.length = (data.length + 2) ⌈/⌉ 59 ∧
      (∀ i p, pkts[i]? = some p → p.1.length = 64 ∧ ∃ pkt, readPacket (.ok p) = .ok pkt ∧ pkt.seq.toNat = i) ∧
      readCommand (pkts.map .ok ++ rest) = (some (.ok ⟨channel, cmdAPDU, data⟩), rest) := by
  have hsize : chunkSize = 59 := rfl
  have hbuf : (withLength data).length = data.length + 2 := rfl
  refine ⟨_, writeCommand_apdu channel data, ?_, ?_, ?_⟩
  · exact length_writeLoop
  · intro i p hp
    have hi := (List.getElem?_eq_some_iff.1 hp).1
    rw [length_writeLoop, hsize, Nat.ceilDiv_eq_add_pred_div] at hi
    obtain ⟨off, rfl⟩ := getElem?_writeLoop hp
    refine ⟨length_writePacket _, _, readPacket_chunkPacket _ _ _ _ _, ?_⟩
    dsimp only
    rw [UInt16.toNat_ofNat']
    omega
  · exact readCommand_packets hdata channel rest

end RoundTrip

/-! ## Exchange of APDUs -/

lemma parseAPDUResponse_append (res : APDUResponse) : parseAPDUResponse (res.Data ++ bytes16 res.SW) = some res := by
  have hrev : (res.Data ++ bytes16 res.SW).reverse =
      res.SW.toUInt8 :: (res.SW >>> 8).toUInt8 :: res.Data.reverse := by
    rw [List.reverse_append]
    rfl
  rw [parseAPDUResponse, hrev]
  dsimp only
  rw [List.reverse_reverse, word16_bytes16]

/-- **Responses get through.**  What a device answers with, in packets on the channel of the request, is returned. -/
theorem exchange_framed (channel : UInt16) (req : APDUCommand) {res : APDUResponse} (h : res.Data.length ≤ 65533)
    (rest : List Read) :
    (Exchange channel (fun _ => none)
      ((writeCommand channel cmdAPDU (fun _ => none) (res.Data ++ bytes16 res.SW)).1.map .ok ++ rest) req).2 =
        (some (.ok res), rest) := by
  have hlen : (res.Data ++ bytes16 res.SW).length ≤ 65535 := by
    rw [List.length_append, show (bytes16 res.SW).length = 2 by rfl]
    omega
  unfold Exchange
  rw [writeCommand_apdu, writeCommand_apdu]
  dsimp only
  rw [readCommand_packets hlen channel rest]
  simp [parseAPDUResponse_append, bind, Except.bind, pure, Except.pure]

/-- An APDU of 58 bytes needs two packets. -/
theorem readCommand_writeCommand_two_packets :
    (writeCommand 0x101 cmdAPDU (fun _ => none) (List.replicate 58 7)).1.length = 2 ∧
      ∃ pkts, writeCommand 0x101 cmdAPDU (fun _ => none) (List.replicate 58 7) = (pkts, .ok ()) ∧
        readCommand (pkts.map .ok) = (some (.ok ⟨0x101, cmdAPDU, List.replicate 58 7⟩), []) := by
  have hdata : (List.replicate 58 (7 : UInt8)).length ≤ 65535 := by decide
  obtain ⟨pkts, hwrite, -, -, hread⟩ := readCommand_writeCommand hdata 0x101 []
  rw [List.append_nil] at hread
  exact ⟨by decide +kernel, pkts, hwrite, hread⟩

/-! ## What the device has sent -/

/-- The buffer that a packet is read into. -/
def buffer (b : Report) : Bytes := pad packetSize b.1

/-- The length of the message according to the reads: the word after the header in the buffer of the first one.  Only
APDUs have one. -/
def announced : List Read → ℕ
  | .ok b :: _ =>
    if (buffer b).getD 2 0 = cmdAPDU then ((buffer b).getD 5 0).toNat * 256 + ((buffer b).getD 6 0).toNat else 0
  | _ => 0

/-- The reads that are needed for that length and the word. -/
def used (reads : List Read) : List Report :=
  (reads.take ((announced reads + 2) ⌈/⌉ chunkSize)).filterMap Except.toOption

/-- The parts of the message in some packets; the first one has the length of the message in front. -/
def payloads (buffer : Report → Bytes) : List Report → List Bytes
  | [] => []
  | b :: bs => (buffer b).drop (headerSize + 2) :: bs.map fun b => (buffer b).drop headerSize

/-- **The message is what was read**, packet by packet, up to what was needed of each. -/
def Sent (bs : List Report) (data : Bytes) : Prop :=
  data = (shares chunkSize (chunkSize - 2) data.length (payloads Subtype.val bs)).flatten

/-- No packet ends before what is needed of it for a message of `n` bytes. -/
def LongEnough (bs : List Report) (n : ℕ) : Prop :=
  Suffice chunkSize (chunkSize - 2) n (payloads Subtype.val bs)

lemma length_buffer (b : Report) : (buffer b).length = packetSize := length_pad b.2

lemma readPacket_ok {read : Read} {pkt : Packet} (h : readPacket read = .ok pkt) :
    ∃ b, read = .ok b ∧ pkt.cmd = (buffer b).getD 2 0 ∧ pkt.data = (buffer b).drop headerSize := by
  obtain ⟨b, hread, h⟩ := ok_bind_iff.1 h
  refine ⟨b, ok_mapError_iff.1 hread, ?_⟩
  split at h
  next hbytes =>
    cases h
    refine ⟨?_, rfl⟩
    rw [buffer, hbytes]
    rfl
  · cases h

/-- More packets are to be read, after the first one and `j` others. -/
structure Underway (s : Reading) (j : ℕ) : Prop where
  idx : s.idx = UInt16.ofNat (j + 1)
  length : s.data.length = j * 59 + 57
  more : s.data.length < s.dataLen
  bound : s.dataLen ≤ 65535

lemma Underway.idx_ne_zero {s : Reading} {j : ℕ} (h : Underway s j) : s.idx ≠ 0 := by
  have hlength := h.length
  have hmore := h.more
  have hbound := h.bound
  rw [h.idx]
  exact ofNat_succ_ne_zero (by omega)

/-- **One more packet**: as much of its buffer as is needed. -/
lemma Underway.turn {s s' : Reading} {j : ℕ} (h : Underway s j) {read : Read}
    (hstep : readPacket read >>= Usbhid.turn s = .ok s') :
    ∃ b, read = .ok b ∧ s'.dataLen = s.dataLen ∧
      s'.data = s.data ++ ((buffer b).drop headerSize).take (min chunkSize (s.dataLen - s.data.length)) ∧
      (s'.data.length ≠ s'.dataLen → Underway s' (j + 1)) := by
  obtain ⟨pkt, hread, hturn⟩ := ok_bind_iff.1 hstep
  obtain ⟨b, rfl, -, hdata⟩ := readPacket_ok hread
  obtain ⟨-, -, -, rfl⟩ := (turn_ok_iff h.idx_ne_zero).1 hturn
  have hsize : chunkSize = 59 := rfl
  have hlen : ((buffer b).drop headerSize).length = chunkSize := by
    rw [List.length_drop, length_buffer]
    rfl
  have htake : pkt.data.take (s.dataLen - s.data.length) =
      ((buffer b).drop headerSize).take (min chunkSize (s.dataLen - s.data.length)) := by
    rw [hdata, List.take_eq_take_min, hlen, min_comm]
  have hlength := h.length
  have hmore := h.more
  dsimp only
  rw [htake, List.length_append, List.length_take, hlen]
  refine ⟨b, rfl, rfl, rfl, fun hopen => ⟨?_, ?_, ?_, h.bound⟩⟩
  · dsimp only
    rw [h.idx]
    exact (UInt16.ofNat_add _ _).symm
  · dsimp only
    rw [List.length_append, List.length_take, hlen]
    omega
  · dsimp only
    rw [List.length_append, List.length_take, hlen]
    omega

lemma announced_apdu {b : Report} {l₁ l₀ : UInt8} {pl : Bytes} (hcmd : (buffer b).getD 2 0 = cmdAPDU)
    (hdata : (buffer b).drop headerSize = l₁ :: l₀ :: pl) (reads : List Read) :
    announced (.ok b :: reads) = l₁.toNat * 256 + l₀.toNat := by
  have hbytes : ∀ i, (buffer b).getD (headerSize + i) 0 = (l₁ :: l₀ :: pl).getD i 0 := by
    intro i
    rw [← hdata, List.getD_eq_getElem?_getD, List.getD_eq_getElem?_getD, List.getElem?_drop]
  have hhigh : (buffer b).getD 5 0 = l₁ := hbytes 0
  have hlow : (buffer b).getD 6 0 = l₀ := hbytes 1
  rw [announced, if_pos hcmd, hhigh, hlow]

lemma announced_other {b : Report} (hcmd : (buffer b).getD 2 0 ≠ cmdAPDU) (reads : List Read) :
    announced (.ok b :: reads) = 0 := if_neg hcmd

/-- **The first packet.** -/
lemma turn_begun {s : Reading} {read : Read} (hstep : readPacket read >>= turn {} = .ok s) :
    ∃ b, read = .ok b ∧ (∀ reads, s.dataLen = announced (.ok b :: reads)) ∧ s.dataLen ≤ 65535 ∧
      s.data = ((buffer b).drop (headerSize + 2)).take (min (chunkSize - 2) s.dataLen) ∧
      (s.data.length ≠ s.dataLen → Underway s 0) := by
  obtain ⟨pkt, hread, hturn⟩ := ok_bind_iff.1 hstep
  obtain ⟨b, rfl, hbyte, hdata⟩ := readPacket_ok hread
  by_cases hcmd : pkt.cmd = cmdAPDU
  · obtain ⟨-, l₁, l₀, pl, hpkt, rfl⟩ := (turn_first_apdu hcmd).1 hturn
    have hpl : (buffer b).drop (headerSize + 2) = pl := by
      rw [← List.drop_drop, ← hdata, hpkt]
      rfl
    have hlen : pl.length = chunkSize - 2 := by
      rw [← hpl, List.length_drop, length_buffer]
      rfl
    have hbound : l₁.toNat <<< 8 ||| l₀.toNat ≤ 65535 := by
      have h₁ := l₁.toNat_lt
      have h₀ := l₀.toNat_lt
      rw [or_eq_add]
      omega
    refine ⟨b, rfl, fun reads => ?_, hbound, ?_, fun hopen => ?_⟩
    · rw [announced_apdu (hbyte ▸ hcmd) (hdata ▸ hpkt), begun, or_eq_add]
    · rw [begun, hpl, List.take_eq_take_min, hlen, min_comm]
    · have hsize : chunkSize - 2 = 57 := rfl
      dsimp only [begun] at hopen
      rw [List.length_take, hlen] at hopen
      refine ⟨rfl, ?_, ?_, hbound⟩
      · dsimp only [begun]
        rw [List.length_take, hlen]
        omega
      · dsimp only [begun]
        rw [List.length_take, hlen]
        omega
  · obtain ⟨-, rfl⟩ := (turn_first_other hcmd).1 hturn
    refine ⟨b, rfl, fun reads => ?_, Nat.zero_le _, ?_, fun hopen => absurd rfl hopen⟩
    · rw [announced_other (hbyte ▸ hcmd)]
    · rw [Nat.min_zero, List.take_zero]

/-- The loop takes as many packets as are needed, and of each the beginning of its buffer. -/
lemma readLoop_ok {s : Reading} {j : ℕ} (h : Underway s j) {reads rest : List Read} {r : Reply}
    (hr : readLoop s reads = (some (.ok r), rest)) :
    ∃ bs : List Report, reads = bs.map .ok ++ rest ∧ bs.length = (s.dataLen - s.data.length) ⌈/⌉ chunkSize ∧
      r.data.length = s.dataLen ∧
      r.data = s.data ++ (shares chunkSize chunkSize (s.dataLen - s.data.length)
        (bs.map fun b => (buffer b).drop headerSize)).flatten := by
  have hsize : chunkSize = 59 := rfl
  have hmore := h.more
  induction reads generalizing s j with
  | nil => cases hr
  | cons read reads ih =>
    rw [readLoop] at hr
    split at hr
    · cases hr
    next s' hstep =>
      obtain ⟨b, rfl, hneed, hdata, hnext⟩ := h.turn hstep
      split at hr
      next hdone =>
        cases hr
        refine ⟨[b], rfl, ?_, hdone.trans hneed, ?_⟩
        · have hlength := congrArg List.length hdata
          rw [hdone, hneed, List.length_append, List.length_take, List.length_drop, length_buffer] at hlength
          rw [hsize, Nat.ceilDiv_eq_add_pred_div, List.length_singleton]
          omega
        · simp only [hdata, shares, List.map_cons, List.map_nil, List.flatten_cons, List.flatten_nil, List.append_nil]
      next hopen =>
        have hunder := hnext hopen
        obtain ⟨bs, hused, hcount, hall, hr⟩ := ih hunder hr hunder.more
        have hleft : s'.dataLen - s'.data.length = s.dataLen - s.data.length - chunkSize := by
          rw [hneed, hunder.length, h.length]
          omega
        refine ⟨b :: bs, by rw [hused, List.map_cons, List.cons_append], ?_, hall.trans hneed, ?_⟩
        · have hlength := hunder.length
          have hlong := hunder.more
          rw [hneed] at hlong
          rw [List.length_cons, hcount, hleft, hsize, Nat.ceilDiv_eq_add_pred_div, Nat.ceilDiv_eq_add_pred_div]
          have hbefore := h.length
          omega
        · rw [hr, hleft, hdata, List.append_assoc]
          rfl

/-- **What is returned** is as long as the first packet says, and the beginning of the buffers of the packets that are
needed for that. -/
lemma readCommand_ok {reads rest : List Read} {r : Reply} (h : readCommand reads = (some (.ok r), rest)) :
    r.data.length = announced reads ∧ reads = (used reads).map .ok ++ rest ∧
      r.data = (shares chunkSize (chunkSize - 2) (announced reads) (payloads buffer (used reads))).flatten := by
  have hsize : chunkSize = 59 := rfl
  suffices hbs : ∃ bs : List Report, reads = bs.map .ok ++ rest ∧ bs.length = (announced reads + 2) ⌈/⌉ chunkSize ∧
      r.data.length = announced reads ∧
      r.data = (shares chunkSize (chunkSize - 2) (announced reads) (payloads buffer bs)).flatten by
    obtain ⟨bs, hreads, hcount, hlength, hdata⟩ := hbs
    have hused : used reads = bs := by
      rw [used, ← hcount, hreads, List.take_left' (List.length_map _), List.filterMap_map]
      exact List.filterMap_some
    rw [hused]
    exact ⟨hlength, hreads, hdata⟩
  cases reads with
  | nil => cases h
  | cons read reads =>
    rw [readCommand, readLoop] at h
    split at h
    · cases h
    next s hstep =>
      obtain ⟨b, rfl, hn, -, hdata, hnext⟩ := turn_begun hstep
      rw [← hn reads]
      split at h
      next hdone =>
        cases h
        refine ⟨[b], rfl, ?_, hdone, ?_⟩
        · have hlength := congrArg List.length hdata
          rw [hdone, List.length_take, List.length_drop, length_buffer] at hlength
          rw [hsize, Nat.ceilDiv_eq_add_pred_div, List.length_singleton]
          omega
        · rw [hdata]
          exact (List.append_nil _).symm
      next hopen =>
        have hunder := hnext hopen
        obtain ⟨bs, hused, hcount, hall, hr⟩ := readLoop_ok hunder h
        refine ⟨b :: bs, by rw [hused, List.map_cons, List.cons_append], ?_, hall, ?_⟩
        · have hlength := hunder.length
          have hmore := hunder.more
          rw [List.length_cons, hcount, hsize, Nat.ceilDiv_eq_add_pred_div, Nat.ceilDiv_eq_add_pred_div]
          omega
        · rw [hr, hunder.length, hdata]
          rfl

/-- While the loop waits, more is needed than the packets that were read can have. -/
lemma readLoop_waits {s : Reading} {j : ℕ} (h : Underway s j) {reads : List Read}
    (hnone : (readLoop s reads).1 = none) : s.data.length + reads.length * 59 < s.dataLen := by
  induction reads generalizing s j with
  | nil => exact h.more
  | cons read reads ih =>
    rw [readLoop] at hnone
    split at hnone
    · cases hnone
    next s' hstep =>
      obtain ⟨b, -, hneed, -, hnext⟩ := h.turn hstep
      split at hnone
      · cases hnone
      next hopen =>
        have hleft := ih (hnext hopen) hnone
        rw [(hnext hopen).length, hneed] at hleft
        rw [h.length, List.length_cons]
        omega

/-- **Reading ends.**  No reply needs more than 1111 packets. -/
theorem readCommand_ends {reads : List Read} (h : 1111 ≤ reads.length) : (readCommand reads).1 ≠ none := by
  intro hnone
  cases reads with
  | nil => cases h
  | cons read reads =>
    rw [readCommand, readLoop] at hnone
    split at hnone
    · cases hnone
    next s hstep =>
      obtain ⟨b, -, -, hbound, -, hnext⟩ := turn_begun hstep
      split at hnone
      · cases hnone
      next hopen =>
        have hleft := readLoop_waits (hnext hopen) hnone
        rw [(hnext hopen).length] at hleft
        rw [List.length_cons] at h
        omega

lemma prefix_buffer (bs : List Report) :
    List.Forall₂ (· <+: ·) (payloads Subtype.val bs) (payloads buffer bs) := by
  have hdrop : ∀ (b : Report) (k : ℕ), b.1.drop k <+: (buffer b).drop k := by
    intro b k
    rw [buffer, pad, List.drop_append]
    exact List.prefix_append _ _
  cases bs with
  | nil => exact List.Forall₂.nil
  | cons b bs =>
    refine List.Forall₂.cons (hdrop b _) ?_
    rw [List.forall₂_map_left_iff, List.forall₂_map_right_iff, List.forall₂_same]
    intro b _
    exact hdrop b _

lemma suffice_buffer (bs : List Report) (n : ℕ) : Suffice chunkSize (chunkSize - 2) n (payloads buffer bs) := by
  cases bs with
  | nil => trivial
  | cons b bs =>
    constructor
    · rw [List.length_drop, length_buffer]
      exact min_le_left _ _
    · apply suffice_of_full
      intro p hp
      obtain ⟨b, -, rfl⟩ := List.mem_map.1 hp
      rw [List.length_drop, length_buffer]
      rfl

/-- **Short reads.**  A reply is as long as the first packet says, the reads that it takes are those needed for that
length, and it has only bytes that the device has sent if and only if none of these reads is shorter than its header and
what is needed of it. -/
theorem reply_sent_iff {reads rest : List Read} {r : Reply} (h : readCommand reads = (some (.ok r), rest)) :
    r.data.length = announced reads ∧ reads = (used reads).map .ok ++ rest ∧
      (Sent (used reads) r.data ↔ LongEnough (used reads) (announced reads)) := by
  obtain ⟨hlength, hreads, hdata⟩ := readCommand_ok h
  refine ⟨hlength, hreads, ?_⟩
  rw [LongEnough, ← flatten_shares_eq_iff (prefix_buffer _) (suffice_buffer _ _), ← hdata, Sent, hlength]
  exact eq_comm

/-- The packet with an APDU of four bytes, cut after some of them. -/
def cutPacket (n : ℕ) : Report := ⟨[1, 1, 5, 0, 0, 0, 4] ++ [0x11, 0x22, 0x90, 0x01].take n, by
  rw [List.length_append, List.length_take]
  show 7 + min n 4 ≤ 64
  omega⟩

theorem reply_sent_of_whole :
    readCommand [.ok (cutPacket 4)] = (some (.ok ⟨0x101, cmdAPDU, [0x11, 0x22, 0x90, 0x01]⟩), []) ∧
      Sent [cutPacket 4] [0x11, 0x22, 0x90, 0x01] := by
  have hread : readCommand [.ok (cutPacket 4)] = (some (.ok ⟨0x101, cmdAPDU, [0x11, 0x22, 0x90, 0x01]⟩), []) := by
    decide +kernel
  have hlong : LongEnough (used [.ok (cutPacket 4)]) (announced [.ok (cutPacket 4)]) := by
    refine ⟨?_, trivial⟩
    decide +kernel
  exact ⟨hread, (reply_sent_iff hread).2.2.2 hlong⟩

/-- Of a packet that is cut after two bytes of the APDU, the reply has two zeros that are nowhere after them. -/
theorem padding_returned :
    readCommand [.ok (cutPacket 2)] = (some (.ok ⟨0x101, cmdAPDU, [0x11, 0x22, 0, 0]⟩), []) ∧
      ¬ Sent [cutPacket 2] [0x11, 0x22, 0, 0] ∧ ¬ List.Sublist [0x11, 0x22, 0, 0] (cutPacket 2).1 := by
  refine ⟨by decide +kernel, ?_, by decide +kernel⟩
  unfold Sent
  decide +kernel

end Signatory.Vault.Ledger.Usbhid

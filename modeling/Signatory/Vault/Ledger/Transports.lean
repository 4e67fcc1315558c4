import Signatory.Lib.BigEndian
import Signatory.Lib.Dialogue
import Signatory.Vault.Ledger.Usbhid

/-!
# `pkg/vault/ledger/ledger`: two transports, one device

A device is an application that answers APDUs.  It is reached in HID packets (`usbhid.go`) or over a TCP connection
(`tcp.go`), where an APDU has its length in front of it in four bytes, and so has an answer; the length of an answer
does not count the two bytes of its status.  A client of the application is a dialogue.

* `transport_transparent`: a client cannot tell the transports from the device itself, however the connection cuts what
  it delivers;
* `replies_shifted`: HID packets carry nothing of the request that they answer.  After one reply on another channel,
  every exchange returns the answer to the exchange before it.
-/

namespace Signatory.Vault.Ledger

open Lib Lib.BigEndian
open Tezosapp (APDUCommand APDUResponse)
open Signer (Bytes Error)

/-! ## The connection -/

namespace Tcp

/-- Why a read from the connection fails. -/
inductive ReadError where
  | EOF
  | other (err : Error)

def ReadError.error : ReadError → Error
  | .EOF => { text := "EOF" }
  | .other err => err

/-- What a read from the connection returns. -/
abbrev Read := Except ReadError Bytes

/-- `io.ReadFull` for `n` bytes of which `got` have been read, with the reads that are left after it; what a read has
beyond the buffer stays for the next one.  Without another read it waits. -/
def ReadFull (n : ℕ) (got : Bytes) : List Read → Option (Except Error Bytes) × List Read
  | [] => if got.length = n then (some (.ok got), []) else (none, [])
  | read :: reads =>
    if got.length = n then (some (.ok got), read :: reads)
    else match read with
      | .error .EOF =>
        (some (.error (if got.length > 0 then { text := "unexpected EOF" } else ReadError.EOF.error)), reads)
      | .error (.other err) => (some (.error err), reads)
      | .ok b =>
        if b.length ≤ n - got.length then ReadFull n (got ++ b) reads
        else (some (.ok (got ++ b.take (n - got.length))), .ok (b.drop (n - got.length)) :: reads)

def wrapError (err : Error) : Error := { err with text := "tcp: " ++ err.text }

/-- What `Exchange` writes. -/
def frame (data : Bytes) : Bytes := fillBytes 4 data.length ++ data

/-- `Exchange`: what is written, what is returned, and the reads that are left.  The sum with the length of the status
is a `uint32`. -/
def Exchange (write : Option Error) (reads : List Read) (req : APDUCommand) :
    Bytes × Option Tezosapp.Reply × List Read :=
  match write with
  | some err => (frame req.Bytes, some (.error (wrapError err)), reads)
  | none =>
    match ReadFull 4 [] reads with
    | (none, rest) => (frame req.Bytes, none, rest)
    | (some (.error err), rest) => (frame req.Bytes, some (.error (wrapError err)), rest)
    | (some (.ok ln), rest) =>
      match ReadFull ((ofBytes ln + 2) % 2 ^ 32) [] rest with
      | (none, rest) => (frame req.Bytes, none, rest)
      | (some (.error err), rest) => (frame req.Bytes, some (.error (wrapError err)), rest)
      | (some (.ok buf), rest) =>
        (frame req.Bytes, some (match Usbhid.parseAPDUResponse buf with
          | none => .error { text := "ledger: error parsing APDU response" }
          | some res => .ok res), rest)

/-! ### Reading in full -/

/-- The bytes of some reads that did not fail. -/
def stream (chunks : List Bytes) : List Read := chunks.map .ok

/-- **The cuts do not matter**: as many bytes as are asked for are read, and the others stay. -/
lemma readFull_stream (n : ℕ) (got : Bytes) (chunks : List Bytes) (hn : got.length ≤ n)
    (h : n ≤ got.length + chunks.flatten.length) :
    ∃ rest, ReadFull n got (stream chunks) = (some (.ok (got ++ chunks.flatten.take (n - got.length))), stream rest) ∧
      rest.flatten = chunks.flatten.drop (n - got.length) := by
  induction chunks generalizing got with
  | nil =>
    have hfull : got.length = n := by
      rw [List.flatten_nil, List.length_nil] at h
      omega
    exact ⟨[], by simp [stream, ReadFull, hfull], by simp⟩
  | cons b chunks ih =>
    by_cases hfull : got.length = n
    · exact ⟨b :: chunks, by simp [stream, ReadFull, hfull], by simp [hfull]⟩
    rw [List.flatten_cons, List.length_append] at h
    simp only [stream, List.map_cons, ReadFull, if_neg hfull, List.flatten_cons]
    by_cases hb : b.length ≤ n - got.length
    · rw [if_pos hb]
      have hlen : (got ++ b).length = got.length + b.length := List.length_append
      obtain ⟨rest, hread, hrest⟩ := ih (got ++ b) (by omega) (by omega)
      have hleft : n - (got ++ b).length = n - got.length - b.length := by omega
      rw [hleft] at hread hrest
      refine ⟨rest, ?_, ?_⟩
      · rw [stream] at hread
        rw [hread, List.append_assoc, List.take_append, List.take_of_length_le hb]
        rfl
      · rw [hrest, List.drop_append, List.drop_eq_nil_of_le hb, List.nil_append]
    · rw [if_neg hb]
      have hle : n - got.length ≤ b.length := by omega
      refine ⟨b.drop (n - got.length) :: chunks, ?_, ?_⟩
      · rw [List.take_append_of_le_length hle]
        rfl
      · rw [List.flatten_cons, List.drop_append_of_le_length hle]

/-- **Responses get through**, and nothing else is read. -/
lemma exchange_stream {res : APDUResponse} (hres : res.Data.length + 2 < 2 ^ 32) (req : APDUCommand)
    (chunks : List Bytes) (h : chunks.flatten = fillBytes 4 res.Data.length ++ (res.Data ++ Usbhid.bytes16 res.SW)) :
    ∃ rest, Exchange none (stream chunks) req = (frame req.Bytes, some (.ok res), stream rest) ∧ rest.flatten = [] := by
  have hframe : chunks.flatten.length = 4 + (res.Data.length + 2) := by
    rw [h, List.length_append, length_fillBytes, List.length_append]
    rfl
  have hbody : (res.Data ++ Usbhid.bytes16 res.SW).length = res.Data.length + 2 := List.length_append
  obtain ⟨rest, hread, hrest⟩ := readFull_stream 4 [] chunks (Nat.zero_le _) (by omega)
  rw [List.length_nil, Nat.sub_zero, List.nil_append, h, List.take_left' (length_fillBytes _ _)] at hread
  rw [List.length_nil, Nat.sub_zero, h, List.drop_left' (length_fillBytes _ _)] at hrest
  have hneed : (ofBytes (fillBytes 4 res.Data.length) + 2) % 2 ^ 32 = res.Data.length + 2 := by
    rw [ofBytes_fillBytes (by omega), Nat.mod_eq_of_lt hres]
  obtain ⟨rest', hread', hrest'⟩ := readFull_stream (res.Data.length + 2) [] rest (Nat.zero_le _)
    (by rw [hrest, hbody]; omega)
  rw [List.length_nil, Nat.sub_zero, List.nil_append, hrest, List.take_of_length_le hbody.le] at hread'
  rw [List.length_nil, Nat.sub_zero, hrest, List.drop_eq_nil_of_le hbody.le] at hrest'
  refine ⟨rest', ?_, hrest'⟩
  simp only [Exchange, hread, hneed, hread', Usbhid.parseAPDUResponse_append]

end Tcp

/-! ## The device behind a transport -/

section Device

variable {δ α : Type} (app : δ → Bytes → APDUResponse × δ)

/-- A client of a device. -/
abbrev Session (α : Type) := Dialogue APDUCommand (fun _ => Tezosapp.Reply) α

/-- The device itself: what its application answers to the bytes of a command. -/
def device (d : δ) (req : APDUCommand) : Option (Tezosapp.Reply × δ) :=
  some (.ok (app d req.Bytes).1, (app d req.Bytes).2)

/-- The packets that answer a command. -/
def answerPackets (channel : UInt16) (res : APDUResponse) : List Usbhid.Read :=
  (Usbhid.writeCommand channel Usbhid.cmdAPDU (fun _ => none) (res.Data ++ Usbhid.bytes16 res.SW)).1.map .ok

/-- The device behind HID packets.  The packets of a command are put together, and the answer is sent in packets on the
same channel, after what is still to be read. -/
def hid (channel : UInt16) (s : δ × List Usbhid.Read) (req : APDUCommand) :
    Option (Tezosapp.Reply × δ × List Usbhid.Read) :=
  let packets := (Usbhid.writeCommand channel Usbhid.cmdAPDU (fun _ => none) req.Bytes).1
  let answered := match (Usbhid.readCommand (packets.map .ok)).1 with
    | some (.ok r) =>
      let (res, d) := app s.1 r.data
      (d, s.2 ++ answerPackets r.channel res)
    | _ => s
  let (_, reply, rest) := Usbhid.Exchange channel (fun _ => none) answered.2 req
  reply.map fun reply => (reply, answered.1, rest)

/-- The device behind a connection, which delivers an answer cut in some way. -/
def tcp (cut : Bytes → List Bytes) (s : δ × List Tcp.Read) (req : APDUCommand) :
    Option (Tezosapp.Reply × δ × List Tcp.Read) :=
  let written := Tcp.frame req.Bytes
  let (res, d) := app s.1 ((written.drop 4).take (ofBytes (written.take 4)))
  let answer := fillBytes 4 res.Data.length ++ (res.Data ++ Usbhid.bytes16 res.SW)
  let (_, reply, rest) := Tcp.Exchange none (s.2 ++ Tcp.stream (cut answer)) req
  reply.map fun reply => (reply, d, rest)

variable {app} {channel : UInt16} {req : APDUCommand} {d : δ}

/-- An exchange reads what is there first, and the answer of the device is put behind it. -/
lemma hid_eq (hreq : req.Bytes.length ≤ 65535) (pending : List Usbhid.Read) :
    hid app channel (d, pending) req =
      (Usbhid.Exchange channel (fun _ => none) (pending ++ answerPackets channel (app d req.Bytes).1) req).2.1.map
        fun reply => (reply, (app d req.Bytes).2,
          (Usbhid.Exchange channel (fun _ => none)
            (pending ++ answerPackets channel (app d req.Bytes).1) req).2.2) := by
  have hread := Usbhid.readCommand_packets hreq channel []
  rw [List.append_nil] at hread
  simp only [hid, Usbhid.writeCommand_apdu, hread]

lemma hid_step (hreq : req.Bytes.length ≤ 65535) (hres : (app d req.Bytes).1.Data.length ≤ 65533) :
    hid app channel (d, []) req = some (.ok (app d req.Bytes).1, (app d req.Bytes).2, []) := by
  have hexchange := Usbhid.exchange_framed channel req hres []
  rw [List.append_nil] at hexchange
  rw [hid_eq hreq, List.nil_append, answerPackets, hexchange]
  rfl

lemma tcp_step {cut : Bytes → List Bytes} (hcut : ∀ b, (cut b).flatten = b) (hreq : req.Bytes.length < 2 ^ 32)
    (hres : (app d req.Bytes).1.Data.length + 2 < 2 ^ 32) {left : List Bytes} (hleft : left.flatten = []) :
    ∃ rest, tcp app cut (d, Tcp.stream left) req =
        some (.ok (app d req.Bytes).1, (app d req.Bytes).2, Tcp.stream rest) ∧ rest.flatten = [] := by
  have hbytes : ((Tcp.frame req.Bytes).drop 4).take (ofBytes ((Tcp.frame req.Bytes).take 4)) = req.Bytes := by
    rw [Tcp.frame, List.drop_left' (length_fillBytes _ _), List.take_left' (length_fillBytes _ _),
      ofBytes_fillBytes (by omega), List.take_length]
  obtain ⟨rest, hexchange, hrest⟩ := Tcp.exchange_stream hres req (left ++ cut _)
    (by rw [List.flatten_append, hleft, hcut, List.nil_append])
  refine ⟨rest, ?_, hrest⟩
  rw [Tcp.stream, List.map_append] at hexchange
  simp only [tcp, hbytes, Tcp.stream, hexchange, Option.map_some]

variable (app) in
lemma run_device (p : Session α) (d : δ) : ∃ a d', p.run (device app) d = some (a, d') := by
  induction p generalizing d with
  | done a => exact ⟨a, d, rfl⟩
  | ask i k ih => exact ih _ _

/-- **The transports are transparent.**  A client of the device that sends no command of more than 65535 bytes gets, in
HID packets on any channel and over a connection that cuts its answers in any way, what it gets from the device itself;
and nothing is left to be read. -/
theorem transport_transparent (channel : UInt16) {cut : Bytes → List Bytes} (hcut : ∀ b, (cut b).flatten = b)
    (happ : ∀ d b, (app d b).1.Data.length ≤ 65533) {p : Session α}
    (hp : p.Asks fun req => req.Bytes.length ≤ 65535) (d : δ) :
    ∃ a d', p.run (device app) d = some (a, d') ∧ p.run (hid app channel) (d, []) = some (a, d', []) ∧
      ∃ rest, p.run (tcp app cut) (d, []) = some (a, d', Tcp.stream rest) ∧ rest.flatten = [] := by
  obtain ⟨a, d', hrun⟩ := run_device app p d
  have hhid : ∀ d t req reply d', t = (d, []) → req.Bytes.length ≤ 65535 → device app d req = some (reply, d') →
      ∃ t', hid app channel t req = some (reply, t') ∧ t' = (d', []) := by
    rintro d _ req reply d' rfl hreq hserve
    obtain ⟨rfl, rfl⟩ := Prod.mk.inj (Option.some.inj hserve)
    exact ⟨_, hid_step hreq (happ _ _), rfl⟩
  have htcp : ∀ d t req reply d', (∃ left, t = (d, Tcp.stream left) ∧ left.flatten = []) → req.Bytes.length ≤ 65535 →
      device app d req = some (reply, d') →
      ∃ t', tcp app cut t req = some (reply, t') ∧ ∃ left, t' = (d', Tcp.stream left) ∧ left.flatten = [] := by
    rintro d _ req reply d' ⟨left, rfl, hleft⟩ hreq hserve
    obtain ⟨rfl, rfl⟩ := Prod.mk.inj (Option.some.inj hserve)
    have hres := happ d req.Bytes
    have hsent : req.Bytes.length < 2 ^ 32 := by omega
    have hback : (app d req.Bytes).1.Data.length + 2 < 2 ^ 32 := by omega
    obtain ⟨rest, hrun, hrest⟩ := tcp_step hcut hsent hback hleft
    exact ⟨_, hrun, rest, rfl, hrest⟩
  obtain ⟨_, hrunHid, rfl⟩ := Dialogue.run_sim hp hhid rfl hrun
  obtain ⟨_, hrunTcp, rest, rfl, hrest⟩ := Dialogue.run_sim hp htcp ⟨[], rfl, rfl⟩ hrun
  exact ⟨a, d', hrun, hrunHid, rest, hrunTcp, hrest⟩

/-! ## Replies that belong to another request -/

/-- An exchange on a device with an unread answer returns that answer, and leaves its own unread. -/
lemma hid_stale {res : APDUResponse} (hres : res.Data.length ≤ 65533) (hreq : req.Bytes.length ≤ 65535) :
    hid app channel (d, answerPackets channel res) req =
      some (.ok res, (app d req.Bytes).2, answerPackets channel (app d req.Bytes).1) := by
  rw [hid_eq hreq, answerPackets, Usbhid.exchange_framed channel req hres]
  rfl

/-- The error of an exchange that reads a reply on the channel `other`. -/
def invalidChannel (other : UInt16) : Error := { text := "ledger: invalid channel in reply: " ++ toString other.toNat }

/-- A reply on another channel is read in place of the answer, which stays unread. -/
lemma hid_foreign {other : UInt16} (hother : other ≠ channel) {foreign : APDUResponse}
    (hforeign : foreign.Data.length ≤ 65533) (hreq : req.Bytes.length ≤ 65535) :
    hid app channel (d, answerPackets other foreign) req =
      some (.error (invalidChannel other), (app d req.Bytes).2, answerPackets channel (app d req.Bytes).1) := by
  have hlen : (foreign.Data ++ Usbhid.bytes16 foreign.SW).length ≤ 65535 := by
    rw [List.length_append, show (Usbhid.bytes16 foreign.SW).length = 2 by rfl]
    omega
  have hexchange : (Usbhid.Exchange channel (fun _ => none)
      (answerPackets other foreign ++ answerPackets channel (app d req.Bytes).1) req).2 =
        (some (.error (invalidChannel other)), answerPackets channel (app d req.Bytes).1) := by
    rw [Usbhid.Exchange, Usbhid.writeCommand_apdu, answerPackets, Usbhid.writeCommand_apdu]
    dsimp only
    rw [Usbhid.readCommand_packets hlen other]
    dsimp only [Option.map_some, bind, Except.bind]
    rw [if_pos hother]
    rfl
  rw [hid_eq hreq, hexchange]
  rfl

lemma run_stale (channel : UInt16) (happ : ∀ d b, (app d b).1.Data.length ≤ 65533) (d : δ) {reqs : List APDUCommand}
    (hreqs : ∀ req ∈ reqs, req.Bytes.length ≤ 65535) {res : APDUResponse} (hres : res.Data.length ≤ 65533) :
    ∃ (answers : List APDUResponse) (d' : δ) (last : APDUResponse),
      (Dialogue.askAll reqs).run (device app) d = some (answers.map .ok, d') ∧
      res :: answers = (res :: answers).dropLast ++ [last] ∧
      (Dialogue.askAll reqs).run (hid app channel) (d, answerPackets channel res) =
        some ((res :: answers).dropLast.map .ok, d', answerPackets channel last) := by
  induction reqs generalizing d res with
  | nil => exact ⟨[], d, res, rfl, rfl, rfl⟩
  | cons req reqs ih =>
    obtain ⟨answers, d', last, hdevice, hlast, hhid⟩ := ih (app d req.Bytes).2
      (fun r h => hreqs r (List.mem_cons_of_mem _ h)) (happ d req.Bytes)
    refine ⟨(app d req.Bytes).1 :: answers, d', last, Dialogue.run_askAll_cons rfl hdevice, ?_, ?_⟩
    · rw [List.dropLast_cons_cons, List.cons_append, ← hlast]
    · rw [List.dropLast_cons_cons, List.map_cons]
      exact Dialogue.run_askAll_cons (hid_stale hres (hreqs req List.mem_cons_self)) hhid

/-- **One foreign reply shifts all that follow.**  Let a reply on another channel be read on a device that is otherwise
in order.  The exchange that reads it fails, and each exchange after it on the same handle returns the answer that the
device gave to the exchange before. -/
theorem replies_shifted (happ : ∀ d b, (app d b).1.Data.length ≤ 65533) {other : UInt16} (hother : other ≠ channel)
    {foreign : APDUResponse} (hforeign : foreign.Data.length ≤ 65533) (req : APDUCommand) (reqs : List APDUCommand)
    (hreqs : ∀ r ∈ req :: reqs, r.Bytes.length ≤ 65535) (d : δ) :
    ∃ (answers : List APDUResponse) (d' : δ) (last : APDUResponse),
      (Dialogue.askAll (req :: reqs)).run (device app) d = some (answers.map .ok, d') ∧
      (Dialogue.askAll (req :: reqs)).run (hid app channel) (d, answerPackets other foreign) =
        some (.error (invalidChannel other) :: answers.dropLast.map .ok, d', answerPackets channel last) ∧
      answers = answers.dropLast ++ [last] := by
  obtain ⟨answers, d', last, hdevice, hlast, hhid⟩ := run_stale channel happ (app d req.Bytes).2
    (fun r h => hreqs r (List.mem_cons_of_mem _ h)) (happ d req.Bytes)
  refine ⟨(app d req.Bytes).1 :: answers, d', last, Dialogue.run_askAll_cons rfl hdevice, ?_, hlast⟩
  exact Dialogue.run_askAll_cons (hid_foreign hother hforeign (hreqs req List.mem_cons_self)) hhid

end Device

/-- An application that numbers its answers. -/
def countingApp (n : ℕ) (_ : Bytes) : APDUResponse × ℕ := (⟨[UInt8.ofNat n], 0x9000⟩, n + 1)

/-- Of three exchanges the first fails, and the others return the answers to the first and the second. -/
theorem replies_shifted_counting :
    ∃ last, (Dialogue.askAll [⟨0x80, 0, 0, 0, [], none, true⟩, ⟨0x80, 9, 0, 0, [], none, true⟩,
        ⟨0x80, 2, 0, 0, [1], none, false⟩]).run (hid countingApp 0x101) (7, answerPackets 0x202 ⟨[], 0x9000⟩) =
      some ([.error (invalidChannel 0x202), .ok ⟨[7], 0x9000⟩, .ok ⟨[8], 0x9000⟩], 10, answerPackets 0x101 last) := by
  have happ : ∀ d b, (countingApp d b).1.Data.length ≤ 65533 := fun _ _ => by
    rw [countingApp, List.length_singleton]
    decide
  have hother : (0x202 : UInt16) ≠ 0x101 := by decide
  have hforeign : (⟨[], 0x9000⟩ : APDUResponse).Data.length ≤ 65533 := by decide
  obtain ⟨answers, d', last, hdevice, hhid, -⟩ := replies_shifted happ hother hforeign
    ⟨0x80, 0, 0, 0, [], none, true⟩ [⟨0x80, 9, 0, 0, [], none, true⟩, ⟨0x80, 2, 0, 0, [1], none, false⟩] (by decide) 7
  have hanswers : (answers.map .ok : List Tezosapp.Reply) = [.ok ⟨[7], 0x9000⟩, .ok ⟨[8], 0x9000⟩, .ok ⟨[9], 0x9000⟩] ∧
      d' = 10 :=
    (Prod.mk.inj (Option.some.inj hdevice)).imp Eq.symm Eq.symm
  refine ⟨last, hhid.trans ?_⟩
  rw [List.map_dropLast, hanswers.1, hanswers.2]
  rfl

end Signatory.Vault.Ledger

import Signatory.Lib.Command
import Signatory.Lib.Framing
import Signatory.Lib.Machine
import Signatory.Signer.Policy

/-!
# `pkg/vault/{nitro,confidentialspace}/rpc`: the client of an enclave signer

The two packages differ in the credentials, in `doRPC`, and in nothing else that is modelled here.  Requests are
framed and answered in order on one connection; there are no request ids.

A connection is described by bytes: what the client has sent on it and how much of the answers it has read.  The signer
answers the frames that it finds in what was sent, one after the other (`Setting.respond`).  How far a round trip gets
is part of the input (`Trip`): any part of the frame may be taken, any part of the answer may arrive, and then the
connection fails or the context is cancelled.  A failed connection stays failed; cancellation only sets the deadline,
and `RoundTripRaw` takes it back.

The log says what the client did on which connection.
-/

namespace Signatory.Vault.Rpc

open Lib.Command Lib.Framing
open Signer (Bytes)

/-! ## Requests and results -/

inductive KeyType where
  | secp256k1
  | nistP256
  | ed25519
  | bls
  deriving DecidableEq, Repr

/-- The form that `PublicKey`, `PrivateKey` and `Signature` share: bytes under the name of the curve. -/
structure Curves where
  Secp256k1 : Option Bytes := none
  P256 : Option Bytes := none
  Ed25519 : Option Bytes := none
  BLS : Option Bytes := none
  deriving DecidableEq, Repr

abbrev PublicKey := Curves
abbrev PrivateKey := Curves
abbrev Signature := Curves

structure SignRequest where
  handle : UInt64
  message : Bytes
  version : UInt8
  deriving DecidableEq, Repr

structure SignWithRequest where
  encryptedPrivateKey : Bytes
  message : Bytes
  deriving DecidableEq, Repr

structure Request (C : Type) where
  Initialize : Option C := none
  Import : Bytes := []
  ImportUnencrypted : Option PrivateKey := none
  Generate : Option KeyType := none
  GenerateAndImport : Option KeyType := none
  Sign : Option SignRequest := none
  SignWith : Option SignWithRequest := none
  PublicKey : Option UInt64 := none
  PublicKeyFrom : Bytes := []
  ProvePossession : Option UInt64 := none
  deriving DecidableEq, Repr

/-! In results a nil slice is `none`. -/

structure ImportResult where
  publicKey : PublicKey
  handle : UInt64
  deriving DecidableEq, Repr

structure GenerateResult where
  encryptedPrivateKey : Option Bytes
  publicKey : PublicKey
  deriving DecidableEq, Repr

structure GenerateAndImportResult where
  encryptedPrivateKey : Option Bytes
  publicKey : PublicKey
  handle : UInt64
  deriving DecidableEq, Repr

/-- An error of the signer, and the messages of its sources in order. -/
structure RPCError where
  message : String
  sources : List String := []
  deriving DecidableEq, Repr

/-- Errors of connections, of dialling and of the encoding, as far as `isConnError` tells them apart. -/
inductive IoError where
  | EOF
  | ErrUnexpectedEOF
  | ErrClosed
  | EPIPE
  | ECONNRESET
  | opError (text : String)
  | other (text : String)
  deriving DecidableEq, Repr

inductive Err where
  | io (e : IoError)
  /-- `ctx.Err()`. -/
  | context
  /-- `RPC Error: %w`. -/
  | rpc (e : RPCError)
  /-- `rpc reconnect failed: %w`, or `rpc reconnect failed after %v: %w`. -/
  | reconnect (after : Option Err) (e : Err)
  /-- The panic of a round trip on a nil connection. -/
  | nilConn

def isConnError : Err → Bool
  | .io (.other _) => false
  | .io _ => true
  | .reconnect _ e => isConnError e
  | .context | .rpc _ | .nilConn => false

structure Result (α : Type) where
  ok : Option α
  err : Option RPCError

def Result.Error {α : Type} (r : Result α) : Option Err := r.err.map .rpc

/-- The types that responses are decoded to. -/
inductive Reply where
  | unit
  | importResult
  | generateResult
  | generateAndImportResult
  | publicKey
  | signature

abbrev Reply.Value : Reply → Type
  | .unit => Unit
  | .importResult => ImportResult
  | .generateResult => GenerateResult
  | .generateAndImportResult => GenerateAndImportResult
  | .publicKey => PublicKey
  | .signature => Signature

/-- `cbor.Marshal` and `cbor.Unmarshal`. -/
structure Codec (C : Type) where
  Marshal : Request C → Except IoError Bytes
  Unmarshal : (r : Reply) → Bytes → Except IoError (Result r.Value)

/-! ## Connections -/

structure Conn where
  sent : Bytes := []
  read : ℕ := 0
  failed : Bool := false

/-- How far one round trip gets. -/
structure Trip where
  /-- As many bytes of the frame are taken and `Write` fails; `none` if it does not. -/
  accepts : Option ℕ
  /-- As many bytes of what is to be read arrive; `none` if nothing keeps them back. -/
  arrives : Option ℕ
  /-- The error of a `Write` or `Read` that fails, unless the context is cancelled. -/
  err : IoError
  /-- The context is cancelled before the round trip returns. -/
  interrupted : Bool

/-- The body of an answer, whose length is written in four bytes. -/
abbrev Body := { b : Bytes // b.length < 2 ^ 32 }

/-- What the signer has put on the connection back, once it has been sent `sent`. -/
def stream (respond : List Bytes → Body) (sent : Bytes) : Bytes :=
  answers (fun requests => (respond requests).1) (frames sent)

/-- `Write` of a frame and the two `ReadFull`s; `none` if one of them fails. -/
def Conn.exchange (respond : List Bytes → Body) (t : Trip) (reqBuf : Bytes) (c : Conn) : Option Bytes × Conn :=
  if c.failed then (none, c)
  else
    match t.accepts with
    | some n => (none, { c with sent := c.sent ++ (frame reqBuf).take n, failed := !t.interrupted })
    | none =>
      let sent := c.sent ++ frame reqBuf
      let ready := (stream respond sent).drop c.read
      let ready := match t.arrives with
        | none => ready
        | some n => ready.take n
      match unframe ready with
      | some (body, _) => (some body, { c with sent := sent, read := c.read + (4 + body.length) })
      -- all there is has been read, and it is not enough
      | none => (none, { sent := sent, read := c.read + ready.length, failed := !t.interrupted })

/-- What the client does on a connection. -/
inductive Event (C : Type) where
  | dialled (i : ℕ)
  | wrote (i : ℕ) (req : Request C)
  /-- The round trip returned what the signer calls a success. -/
  | done (i : ℕ) (req : Request C)
  | failed (i : ℕ) (req : Request C) (e : Err)
  | closed (i : ℕ)
  /-- A round trip on a nil connection. -/
  | nilConn

/-- The connections by number, those from `dialled` on being unused, and the client's field `conn`. -/
structure World (C : Type) where
  conns : ℕ → Conn := fun _ => {}
  dialled : ℕ := 0
  conn : Option ℕ := none
  log : List (Event C) := []

/-- The encoding, the credentials of the client, and the signer at the other end of each connection. -/
structure Setting (C : Type) where
  codec : Codec C
  creds : C
  respond : ℕ → List Bytes → Body

variable {C : Type}

def note (e : Event C) : Cmd (World C) Err Unit := modify fun w => { w with log := w.log ++ [e] }

def World.exchange (respond : ℕ → List Bytes → Body) (t : Trip) (i : ℕ) (reqBuf : Bytes) (w : World C) :
    Option Bytes × World C :=
  let r := (w.conns i).exchange (respond i) t reqBuf
  (r.1, { w with conns := Function.update w.conns i r.2 })

/-! ## Round trips -/

section

variable (st : Setting C)

/-- A cancelled context replaces whatever the round trip would have returned. -/
def RoundTripRaw (r : Reply) (t : Trip) (i : ℕ) (req : Request C) : Cmd (World C) Err (Result r.Value) := do
  let reqBuf ← liftM ((st.codec.Marshal req).mapError Err.io)
  note (.wrote i req)
  let body ← modifyGet (World.exchange st.respond t i reqBuf)
  -- also when the answer has been read by then
  if t.interrupted then throw .context
  else
    match body with
    | none => throw (.io t.err)
    | some rBuf => liftM ((st.codec.Unmarshal r rBuf).mapError Err.io)

def roundTripOk (r : Reply) (t : Trip) (i : ℕ) (req : Request C) : Cmd (World C) Err (Option r.Value) :=
  tryCatch
    (do
      let res ← RoundTripRaw st r t i req
      match res.Error with
      | some e => throw e
      | none =>
        note (.done i req)
        pure res.ok)
    fun e => do
      note (.failed i req e)
      throw e

def initRequest : Request C := { Initialize := some st.creds }

def InitializeConn (t : Trip) (i : ℕ) : Cmd (World C) Err Unit := do
  let _ ← roundTripOk st .unit t i (initRequest st)

/-! ## The client -/

def closeConn (i : ℕ) : Cmd (World C) Err Unit := note (.closed i)

def setConn (c : Option ℕ) : Cmd (World C) Err Unit := modify fun w => { w with conn := c }

/-- What the environment does to `connectLocked`. -/
structure Reconnect where
  dial : Except IoError Unit
  trip : Trip

def dialer (r : Except IoError Unit) : Cmd (World C) Err ℕ := do
  liftM (r.mapError Err.io)
  let i ← modifyGet fun w => (w.dialled, { w with dialled := w.dialled + 1 })
  note (.dialled i)
  pure i

/-- The first lines of `connectLocked`, and all of `Close` but the error that it returns. -/
def dropConn : Cmd (World C) Err Unit := do
  match (← get).conn with
  | none => pure ()
  | some i => do
    closeConn i
    setConn none

def connectLocked (env : Reconnect) : Cmd (World C) Err Unit := do
  dropConn
  let i ← dialer env.dial
  tryCatch (InitializeConn st env.trip i) fun e => do
    closeConn i
    throw e
  setConn (some i)

/-- What the environment does to one call of `doRPC`. -/
structure RpcEnv where
  /-- For the reconnect of a client without a connection. -/
  connect : Reconnect
  first : Trip
  /-- The context is cancelled between the first attempt and the check of `ctx.Err()`. -/
  cancelled : Bool
  reconnect : Reconnect
  second : Trip

/-- `ctx.Err() != nil` after the first attempt. -/
def RpcEnv.ctxErr (env : RpcEnv) : Bool := env.first.interrupted || env.cancelled

variable {α : Type}

/-- `fn(c.conn)`. -/
def dispatch (fn : Trip → ℕ → Cmd (World C) Err α) (t : Trip) : Cmd (World C) Err α := do
  match (← get).conn with
  | none => do
    note .nilConn
    throw .nilConn
  | some i => fn t i

/-- The first lines of `doRPC`. -/
def ensureConn (env : Reconnect) : Cmd (World C) Err Unit := do
  match (← get).conn with
  | some _ => pure ()
  | none => within id (fun w _ => w) (.reconnect none) (connectLocked st env)

/-- The last lines of `doRPC`, after the first attempt has failed with `err`. -/
def retry (env : RpcEnv) (fn : Trip → ℕ → Cmd (World C) Err α) (err : Err) : Cmd (World C) Err α := do
  within id (fun w _ => w) (.reconnect (some err)) (connectLocked st env.reconnect)
  dispatch fn env.second

inductive Package where
  | nitro
  | confidentialSpace
  deriving DecidableEq, Repr

/-- What `doRPC` does when the first attempt has failed; the only part in which the packages differ. -/
def recover (env : RpcEnv) (fn : Trip → ℕ → Cmd (World C) Err α) (err : Err) : Package → Cmd (World C) Err α
  | .nitro => if !isConnError err || env.ctxErr then throw err else retry st env fn err
  | .confidentialSpace =>
    if env.ctxErr then do
      dropConn
      throw err
    else if !isConnError err then throw err
    else retry st env fn err

def doRPC (pkg : Package) (env : RpcEnv) (fn : Trip → ℕ → Cmd (World C) Err α) : Cmd (World C) Err α := do
  ensureConn st env.connect
  tryCatch (dispatch fn env.first) fun err => recover st env fn err pkg

/-- The calls of the client, with their arguments. -/
inductive Call where
  | Import (keyData : Bytes)
  | ImportUnencrypted (priv : PrivateKey)
  | Generate (keyType : KeyType)
  | GenerateAndImport (keyType : KeyType)
  | Sign (handle : UInt64) (message : Bytes) (version : UInt8)
  | SignWith (keyData message : Bytes)
  | PublicKey (handle : UInt64)
  | PublicKeyFrom (data : Bytes)
  | ProvePossession (handle : UInt64)

def Call.request : Call → Request C
  | .Import keyData => { Import := keyData }
  | .ImportUnencrypted priv => { ImportUnencrypted := some priv }
  | .Generate keyType => { Generate := some keyType }
  | .GenerateAndImport keyType => { GenerateAndImport := some keyType }
  | .Sign handle message version => { Sign := some ⟨handle, message, version⟩ }
  | .SignWith keyData message => { SignWith := some ⟨keyData, message⟩ }
  | .PublicKey handle => { PublicKey := some handle }
  | .PublicKeyFrom data => { PublicKeyFrom := data }
  | .ProvePossession handle => { ProvePossession := some handle }

def Call.reply : Call → Reply
  | .Import _ => .importResult
  | .ImportUnencrypted _ | .GenerateAndImport _ => .generateAndImportResult
  | .Generate _ => .generateResult
  | .Sign .. | .SignWith .. | .ProvePossession _ => .signature
  | .PublicKey _ | .PublicKeyFrom _ => .publicKey

/-- The body that the methods of the client share. -/
def call (pkg : Package) (env : RpcEnv) (c : Call) : Cmd (World C) Err (Option c.reply.Value) :=
  doRPC st pkg env fun t i => roundTripOk st c.reply t i c.request

/-! ## Runs -/

/-- What is done with a client; its mutex makes every call one step. -/
inductive Op where
  | connect (env : Reconnect)
  | close
  | rpc (c : Call) (env : RpcEnv)

/-- The outcome of a call; only `rpc` has a value. -/
abbrev Answer := Except Err (Option (Σ c : Call, Option c.reply.Value))

def step (pkg : Package) (w : World C) : Op → Answer × World C
  | .connect env => let r := exec (connectLocked st env) w; (r.1.map fun _ => none, r.2)
  | .close => let r := exec dropConn w; (r.1.map fun _ => none, r.2)
  | .rpc c env => let r := exec (call st pkg env c) w; (r.1.map fun v => some ⟨c, v⟩, r.2)

end

end Signatory.Vault.Rpc

import Signatory.Lib.Machine
import Signatory.Signer.Policy

/-!
# `pkg/middlewares`: JWT users and the rotation of their credentials

A user has a password and a secret, and may have pending ones (`NewData`) that `SetNewCred` puts in their place.
`LoginHandler` looks the user up, checks the password, and then calls `GenerateToken`, which looks the user up again;
the lock is held for each lookup only, so a login is two steps here and anything may happen between them.
`SetNewCred` and `Authenticate` are one step each.

Tokens come from the jwt library, the parameter `JwtLib`.  A copy of a user's record shares the pending record with the
map, so that `GenerateToken`, which fills in a missing expiry time, may change the map.
-/

namespace Signatory.Middlewares

open Signer (Error)

/-! ## Users -/

structure UserData where
  password : String
  exp : UInt64
  secret : String
  oldCredExp : String
  newData : Option UserData

abbrev Users := GoMap String UserData

/-- The value of the claim `user`: a string, or something else. -/
inductive ClaimValue where
  | string (s : String)
  | other
  deriving DecidableEq, Repr

/-- What is used of a `jwt.Token`. -/
structure ParsedToken where
  user : Option ClaimValue
  valid : Bool

/-- `SignedString` of a token with the claims `user` and `exp`, and `jwt.Parse` with a key at a time. -/
structure JwtLib (Token : Type) where
  SignedString : String → ℤ → String → Except Error Token
  Parse : ℤ → String → Token → Except Error ParsedToken

variable {Token : Type} (lib : JwtLib Token)

def SetNewCred (users : Users) (user : String) : Except Error Unit × Users :=
  match users.lookup user with
  | none => (.error { text := "JWT: user not found" }, users)
  | some u =>
    match u.newData with
    | none => (.ok (), users)
    | some n =>
      (.ok (), users.insert user { u with password := n.password, secret := n.secret, exp := n.exp, newData := none })

def GetUserData (users : Users) (user : String) : Option UserData := users.lookup user

/-- `time.Now().Add(time.Minute * time.Duration(exp)).Unix()`, with the time in nanoseconds. -/
def expires (now : ℤ) (exp : UInt64) : ℤ := (now + (60000000000 * exp.toInt64).toInt) / 1000000000

/-- An expiry time that is not given is 60 minutes. -/
def UserData.withExp (u : UserData) : UserData := if u.exp = 0 then { u with exp := 60 } else u

def GenerateToken (now : ℤ) (users : Users) (user pass : String) : Except Error Token × Users :=
  match GetUserData users user with
  | none => (.error { text := "JWT: user not found" }, users)
  | some ud =>
    if pass = ud.password then
      (lib.SignedString user (expires now ud.withExp.exp) ud.secret, users)
    else
      match ud.newData with
      | none => (.error { text := "JWT: invalid credentials" }, users)
      | some n =>
        -- the pending record is the one that the map holds
        (lib.SignedString user (expires now n.withExp.exp) n.secret,
          users.insert user { ud with newData := some n.withExp })

/-- The token under the current secret, or else under the pending one. -/
def parseToken (now : ℤ) (ud : UserData) (token : Token) : Except Error ParsedToken :=
  match lib.Parse now ud.secret token with
  | .ok tok => .ok tok
  | .error e =>
    match ud.newData with
    | some n => lib.Parse now n.secret token
    | none => .error e

def Authenticate (now : ℤ) (users : Users) (user : String) (token : Token) : Except Error String :=
  match GetUserData users user with
  | none => .error { text := "JWT: user not found" }
  | some ud => do
    let tok ← parseToken lib now ud token
    match tok.user with
    | none => throw { text := "JWT: invalid token" }
    | some .other => throw { text := "panic: interface conversion" }
    | some (.string tu) =>
      if tu ≠ user then
        throw { text := "JWT: invalid token" }
      if tok.valid then
        return tu
      throw { text := "JWT: invalid token" }

/-! ## Validation of the configuration -/

/-- The checks of `validateSecretAndPass` on one string of at least `length` bytes. -/
def validateOne (length : ℕ) (stype s : String) : Except Error Unit := do
  if s.utf8ByteSize < length then
    throw { text := s!"{stype} should be at least {length} characters" }
  if !s.toList.any (fun c => 'A' ≤ c && c ≤ 'Z') then
    throw { text := s!"{stype} should contain at least one uppercase character" }
  if !s.toList.any (fun c => 'a' ≤ c && c ≤ 'z') then
    throw { text := s!"{stype} should contain at least one lowercase character" }
  if !s.toList.any (fun c => '0' ≤ c && c ≤ '9') then
    throw { text := s!"{stype} should contain at least one digit" }
  if !s.toList.any (fun c => 32 ≤ c.toNat && c.toNat ≤ 126 &&
      !(('0' ≤ c && c ≤ '9') || ('A' ≤ c && c ≤ 'Z') || ('a' ≤ c && c ≤ 'z'))) then
    throw { text := s!"{stype} should contain at least one special character" }

/-- `validateSecretAndPass` of a password and a secret. -/
def validateSecretAndPass (password secret : String) : Except Error Unit := do
  validateOne 16 "password" password
  validateOne 32 "secret" secret

/-- An error behind a text. -/
def prefixed (text : String) (e : Error) : Error := { e with text := text ++ ": " ++ e.text }

/-- One round of the loop of `CheckUpdateNewCred`; `parseTime` is `time.Parse`.  A rotation that is scheduled for later
is a call of `SetNewCred` at some later time. -/
def checkUser (parseTime : String → Except Error ℤ) (now : ℤ) (users : Users) (user : String) (data : UserData) :
    Except Error Users := do
  (validateSecretAndPass data.password data.secret).mapError
    (prefixed s!"JWT: config validation failed for user {user}")
  match data.newData with
  | none => return users
  | some n =>
    if n.password = data.password ∨ n.secret = data.secret then
      throw { text := s!"JWT: new credentials are same as old for user {user}" }
    (validateSecretAndPass n.password n.secret).mapError
      (prefixed s!"JWT: config validation failed for new credentials of user {user}")
    let apply : Except Error Users :=
      match SetNewCred users user with
      | (.ok (), users') => .ok users'
      | (.error e, _) => .error (prefixed s!"JWT: failed to set new credentials for {user}" e)
    if data.oldCredExp = "" then
      apply
    else
      let t ← (parseTime data.oldCredExp).mapError (prefixed s!"JWT: invalid old_cred_exp format for user {user}")
      if t ≤ now then apply else return users

def checkLoop (parseTime : String → Except Error ℤ) (now : ℤ) :
    List (Σ _ : String, UserData) → Users → Except Error Users
  | [], users => return users
  | ⟨user, data⟩ :: rest, users => do
    let users' ← checkUser parseTime now users user data
    checkLoop parseTime now rest users'

/-- `CheckUpdateNewCred`: the users as it leaves them, if it returns nil. -/
def CheckUpdateNewCred (parseTime : String → Except Error ℤ) (now : ℤ) (users : Users) : Except Error Users :=
  checkLoop parseTime now users.entries users

/-! ## Requests -/

/-- What the handlers and functions answer. -/
inductive Answer (Token : Type) where
  /-- A login that has passed the check and goes on to `GenerateToken`. -/
  | goesOn
  | unauthorized (text : String)
  | failed (e : Error)
  | created (token : Token)
  | set (r : Except Error Unit)
  | authenticated (r : Except Error String)

/-- The first part of `LoginHandler`. -/
def checkLogin (users : Users) (user pass : String) : Option String :=
  if user = "" ∨ pass = "" then some "username and password required"
  else
    match GetUserData users user with
    | none => some "Access denied"
    | some ud =>
      if ud.password = pass then none
      else
        match ud.newData with
        | none => some "Access denied"
        | some n => if n.password = pass then none else some "Access denied"

/-- The users, and the logins between their two steps. -/
structure State (ι : Type) where
  users : Users
  logins : ι → Option (String × String)

inductive Input (ι Token : Type) where
  | login (i : ι) (user pass : String)
  | generate (i : ι) (now : ℤ)
  | setNewCred (user : String)
  | authenticate (user : String) (token : Token) (now : ℤ)

variable {ι : Type} [DecidableEq ι]

def State.step (s : State ι) : Input ι Token → Answer Token × State ι
  | .login i user pass =>
    match checkLogin s.users user pass with
    | some text => (.unauthorized text, s)
    | none => (.goesOn, { s with logins := Function.update s.logins i (some (user, pass)) })
  | .generate i now =>
    match s.logins i with
    | none => (.unauthorized "no login", s)
    | some (user, pass) =>
      match GenerateToken lib now s.users user pass with
      | (.ok token, users') => (.created token, ⟨users', Function.update s.logins i none⟩)
      | (.error e, users') => (.failed e, ⟨users', Function.update s.logins i none⟩)
  | .setNewCred user =>
    match SetNewCred s.users user with
    | (r, users') => (.set r, { s with users := users' })
  | .authenticate user token now => (.authenticated (Authenticate lib now s.users user token), s)

end Signatory.Middlewares

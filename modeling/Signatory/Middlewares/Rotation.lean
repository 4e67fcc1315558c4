import Signatory.Lib.Fallible
import Signatory.Middlewares.Jwt

/-!
# Rotation of credentials under every interleaving

All that matters of a user's record are the current credentials and the pending ones (`Creds`): `SetNewCred` puts the
pending in place of the current ones, and nothing else changes them (`creds_step`).  A login between its two steps has
shown the current password, or that of whatever is pending (`Inv`); a rotation in between leaves nothing pending, so
`GenerateToken` cannot pair the password with the wrong secret.
-/

namespace Signatory.Middlewares

open Lib.Fallible Lib.Machine
open Signer (Error)

/-! ## Current and pending credentials -/

structure Cred where
  password : String
  secret : String
  deriving DecidableEq, Repr

structure Creds where
  current : Cred
  pending : Option Cred

def UserData.cred (u : UserData) : Cred := ⟨u.password, u.secret⟩

def UserData.creds (u : UserData) : Creds := ⟨u.cred, u.newData.map UserData.cred⟩

def credsOf (users : Users) (user : String) : Option Creds := (users.lookup user).map UserData.creds

/-- The pending credentials become the current ones. -/
def Creds.rotate (c : Creds) : Creds :=
  match c.pending with
  | none => c
  | some p => ⟨p, none⟩

/-- The credentials are the current or the pending ones of the user. -/
def Configured (users : Users) (user : String) (cred : Cred) : Prop :=
  ∃ c, credsOf users user = some c ∧ (c.current = cred ∨ c.pending = some cred)

section Creds

variable {Token : Type} {lib : JwtLib Token} {users : Users} {user pass : String}

lemma cred_withExp (u : UserData) : u.withExp.cred = u.cred := by
  unfold UserData.withExp
  split <;> rfl

lemma credsOf_insert (users : Users) (user u : String) (d : UserData) :
    credsOf (users.insert user d) u = if u = user then some d.creds else credsOf users u := by
  unfold credsOf
  rw [GoMap.lookup_set]
  split <;> rfl

theorem credsOf_setNewCred (users : Users) (user u : String) :
    credsOf (SetNewCred users user).2 u =
      if u = user then (credsOf users u).map Creds.rotate else credsOf users u := by
  unfold SetNewCred
  cases hl : users.lookup user with
  | none =>
    by_cases hu : u = user
    · subst hu
      simp [credsOf, hl]
    · simp [hu]
  | some d =>
    cases hn : d.newData with
    | none =>
      by_cases hu : u = user
      · subst hu
        simp [credsOf, hl, UserData.creds, hn, Creds.rotate]
      · simp [hn, hu]
    | some n =>
      simp only [hn, credsOf_insert]
      by_cases hu : u = user
      · subst hu
        simp [credsOf, hl, UserData.creds, hn, Creds.rotate, UserData.cred]
      · simp [hu]

theorem credsOf_generateToken (lib : JwtLib Token) (now : ℤ) (users : Users) (user pass u : String) :
    credsOf (GenerateToken lib now users user pass).2 u = credsOf users u := by
  unfold GenerateToken GetUserData
  cases hl : users.lookup user with
  | none => rfl
  | some d =>
    by_cases hp : pass = d.password
    · simp [hp]
    · cases hn : d.newData with
      | none => simp [hp, hn]
      | some n =>
        have hsame : ({ d with newData := some n.withExp } : UserData).creds = d.creds := by
          simp only [UserData.creds, hn, Option.map_some, cred_withExp]
          rfl
        simp only [hp, hn, if_false, credsOf_insert, hsame]
        by_cases hu : u = user
        · subst hu
          simp [credsOf, hl]
        · simp [hu]

lemma checkLogin_none (h : checkLogin users user pass = none) :
    ∃ c, credsOf users user = some c ∧ (c.current.password = pass ∨ ∃ p, c.pending = some p ∧ p.password = pass) := by
  unfold checkLogin GetUserData at h
  split at h
  · cases h
  · cases hl : users.lookup user with
    | none => simp [hl] at h
    | some d =>
      refine ⟨d.creds, by simp [credsOf, hl], ?_⟩
      simp only [hl] at h
      split at h
      case isTrue hp => exact Or.inl hp
      case isFalse =>
        cases hn : d.newData with
        | none => simp [hn] at h
        | some n =>
          simp only [hn] at h
          split at h
          case isTrue hp => exact Or.inr ⟨n.cred, by simp [UserData.creds, hn], hp⟩
          case isFalse => cases h

/-- A token is signed with the current secret for the current password, and with the pending one for any other. -/
lemma generateToken_ok {now : ℤ} {token : Token} (h : (GenerateToken lib now users user pass).1 = .ok token) :
    ∃ c exp secret, credsOf users user = some c ∧ lib.SignedString user exp secret = .ok token ∧
      (c.current = ⟨pass, secret⟩ ∨ c.current.password ≠ pass ∧ ∃ p, c.pending = some p ∧ p.secret = secret) := by
  unfold GenerateToken GetUserData at h
  cases hl : users.lookup user with
  | none => simp [hl] at h
  | some d =>
    simp only [hl] at h
    split at h
    case isTrue hp =>
      exact ⟨d.creds, _, _, by simp [credsOf, hl], h, Or.inl (by simp [UserData.creds, UserData.cred, hp])⟩
    case isFalse hp =>
      cases hn : d.newData with
      | none => simp [hn] at h
      | some n =>
        simp only [hn] at h
        refine ⟨d.creds, _, _, by simp [credsOf, hl], h, Or.inr ⟨fun e => hp e.symm, n.cred, ?_, rfl⟩⟩
        simp [UserData.creds, hn]

lemma parseToken_ok {now : ℤ} {token : Token} {d : UserData} {tok : ParsedToken} (hl : users.lookup user = some d)
    (h : parseToken lib now d token = .ok tok) :
    ∃ cred, Configured users user cred ∧ lib.Parse now cred.secret token = .ok tok := by
  unfold parseToken at h
  split at h
  case h_1 tok' hcurrent =>
    obtain rfl := Except.ok.inj h
    exact ⟨d.cred, ⟨d.creds, by simp [credsOf, hl], Or.inl rfl⟩, hcurrent⟩
  case h_2 e herr =>
    cases hn : d.newData with
    | none => simp [hn] at h
    | some n =>
      simp only [hn] at h
      exact ⟨n.cred, ⟨d.creds, by simp [credsOf, hl], Or.inr (by simp [UserData.creds, hn])⟩, h⟩

/-- A token that is accepted is parsed under the current or the pending secret, and names the user. -/
lemma authenticate_ok {now : ℤ} {token : Token} {u : String} (h : Authenticate lib now users user token = .ok u) :
    u = user ∧ ∃ cred tok, Configured users user cred ∧ lib.Parse now cred.secret token = .ok tok ∧
      tok.user = some (.string user) := by
  unfold Authenticate GetUserData at h
  cases hl : users.lookup user with
  | none => simp [hl] at h
  | some d =>
    simp only [hl, ok_bind_iff] at h
    obtain ⟨tok, htok, h⟩ := h
    obtain ⟨cred, hconf, hparse⟩ := parseToken_ok hl htok
    split at h
    case h_1 => cases h
    case h_2 => cases h
    case h_3 tu htu =>
      rw [ok_check_bind_iff, not_not] at h
      obtain ⟨rfl, h⟩ := h
      split at h
      case isTrue => exact ⟨(ok_pure_iff.1 h).symm, cred, tok, hconf, hparse, htu⟩
      case isFalse => cases h

end Creds

/-! ## What the validation leaves -/

/-- The pending credentials differ from the current ones, in both parts. -/
def Creds.Distinct (c : Creds) : Prop :=
  ∀ p, c.pending = some p → p.password ≠ c.current.password ∧ p.secret ≠ c.current.secret

lemma Creds.Distinct.rotate {c : Creds} (h : c.Distinct) : c.rotate.Distinct := by
  unfold Creds.rotate
  split
  · exact h
  · intro p hp
    cases hp

/-- The credentials of every user are as before, or rotated. -/
def Evolves (users users' : Users) : Prop :=
  ∀ u, credsOf users' u = credsOf users u ∨ credsOf users' u = (credsOf users u).map Creds.rotate

lemma rotate_rotate (c : Creds) : c.rotate.rotate = c.rotate := by
  unfold Creds.rotate
  cases hp : c.pending <;> simp [hp]

lemma Evolves.refl (users : Users) : Evolves users users := fun _ => Or.inl rfl

lemma Evolves.trans {users users' users'' : Users} (h : Evolves users users') (h' : Evolves users' users'') :
    Evolves users users'' := by
  intro u
  rcases h' u with e' | e' <;> rcases h u with e | e <;> rw [e', e]
  · exact Or.inl rfl
  · exact Or.inr rfl
  · exact Or.inr rfl
  · refine Or.inr ?_
    cases credsOf users u with
    | none => rfl
    | some c => simp [rotate_rotate]

lemma evolves_setNewCred (users : Users) (user : String) : Evolves users (SetNewCred users user).2 := by
  intro u
  rw [credsOf_setNewCred]
  split
  · exact Or.inr rfl
  · exact Or.inl rfl

section Check

variable {parseTime : String → Except Error ℤ} {now : ℤ} {users users' : Users}

lemma applied_or_kept {apply : Except Error Users} {oldCredExp : Except Error ℤ} {c : Prop} [Decidable c]
    (h : (if c then apply else oldCredExp >>= fun t => if t ≤ now then apply else pure users) = .ok users') :
    apply = .ok users' ∨ users' = users := by
  split at h
  case isTrue => exact Or.inl h
  case isFalse =>
    obtain ⟨t, -, h⟩ := ok_bind_iff.1 h
    split at h
    case isTrue => exact Or.inl h
    case isFalse => exact Or.inr (ok_pure_iff.1 h).symm

lemma checkUser_ok {user : String} {data : UserData} (h : checkUser parseTime now users user data = .ok users') :
    data.creds.Distinct ∧ Evolves users users' := by
  have hevolves := evolves_setNewCred users user
  simp only [checkUser, ok_bind_iff, ok_mapError_iff] at h
  obtain ⟨-, -, h⟩ := h
  cases hn : data.newData with
  | none =>
    rw [hn] at h
    obtain rfl := ok_pure_iff.1 h
    exact ⟨fun p hp => by simp [UserData.creds, hn] at hp, Evolves.refl users⟩
  | some n =>
    simp only [hn, ok_check_bind_iff, ok_bind_iff, ok_mapError_iff] at h
    obtain ⟨hsame, -, -, h⟩ := h
    refine ⟨?_, ?_⟩
    · intro p hp
      obtain rfl : n.cred = p := by simpa [UserData.creds, hn] using hp
      exact not_or.1 hsame
    · rcases applied_or_kept h with h | rfl
      · split at h
        case h_1 users'' he =>
          obtain rfl := Except.ok.inj h
          rwa [he] at hevolves
        case h_2 => cases h
      · exact Evolves.refl _

lemma checkLoop_ok {entries : List (Σ _ : String, UserData)} (h : checkLoop parseTime now entries users = .ok users') :
    (∀ e ∈ entries, e.2.creds.Distinct) ∧ Evolves users users' := by
  induction entries generalizing users with
  | nil =>
    obtain rfl := Except.ok.inj h
    exact ⟨by simp, Evolves.refl users⟩
  | cons e rest ih =>
    simp only [checkLoop, ok_bind_iff] at h
    obtain ⟨users₁, he, h⟩ := h
    obtain ⟨hdistinct, hevolves⟩ := checkUser_ok he
    obtain ⟨hrest, hevolves'⟩ := ih h
    exact ⟨List.forall_mem_cons.2 ⟨hdistinct, hrest⟩, hevolves.trans hevolves'⟩

/-- **After the validation** no user has pending credentials that share a part with the current ones. -/
theorem distinct_of_check (h : CheckUpdateNewCred parseTime now users = .ok users') {user : String} {c : Creds}
    (hc : credsOf users' user = some c) : c.Distinct := by
  obtain ⟨hentries, hevolves⟩ := checkLoop_ok h
  have hbefore : ∀ c₀, credsOf users user = some c₀ → c₀.Distinct := by
    intro c₀ hc₀
    obtain ⟨d, hd, rfl⟩ := Option.map_eq_some_iff.1 hc₀
    exact hentries ⟨user, d⟩ (AList.mem_lookup_iff.1 hd)
  rcases hevolves user with e | e
  · exact hbefore c (e ▸ hc)
  · rw [e] at hc
    obtain ⟨c₀, hc₀, rfl⟩ := Option.map_eq_some_iff.1 hc
    exact (hbefore c₀ hc₀).rotate

end Check

/-! ## Runs -/

section Run

variable {ι Token : Type} [DecidableEq ι] {lib : JwtLib Token} {s : State ι} {a : Input ι Token}

/-- Only `SetNewCred` changes credentials, and it rotates those of its user. -/
theorem creds_step (lib : JwtLib Token) (s : State ι) (a : Input ι Token) (u : String) :
    credsOf (s.step lib a).2.users u = credsOf s.users u ∨
      a = .setNewCred u ∧ credsOf (s.step lib a).2.users u = (credsOf s.users u).map Creds.rotate := by
  cases a with
  | login i user pass =>
    refine Or.inl ?_
    simp only [State.step]
    split <;> rfl
  | generate i now =>
    refine Or.inl ?_
    simp only [State.step]
    cases hi : s.logins i with
    | none => rfl
    | some l =>
      have hsame := credsOf_generateToken lib now s.users l.1 l.2 u
      rcases hg : GenerateToken lib now s.users l.1 l.2 with ⟨e | token, users'⟩ <;> simpa [hg] using hsame
  | setNewCred user =>
    have hset : credsOf (s.step lib (.setNewCred user)).2.users u = _ := credsOf_setNewCred s.users user u
    by_cases hu : u = user
    · rw [if_pos hu] at hset
      exact Or.inr ⟨by rw [hu], hset⟩
    · rw [if_neg hu] at hset
      exact Or.inl hset
  | authenticate user token now => exact Or.inl rfl

lemma logins_step {i : ι} {user pass : String} (h : (s.step lib a).2.logins i = some (user, pass)) :
    (a = .login i user pass ∧ checkLogin s.users user pass = none) ∨ s.logins i = some (user, pass) := by
  cases a with
  | setNewCred user' => exact Or.inr h
  | authenticate user' token now => exact Or.inr h
  | login j user' pass' =>
    simp only [State.step] at h
    split at h
    case h_1 => exact Or.inr h
    case h_2 hcheck =>
      simp only [Function.update_apply] at h
      split at h
      case isTrue hij =>
        obtain ⟨rfl, rfl⟩ := Prod.mk.inj (Option.some.inj h)
        exact Or.inl ⟨by rw [hij], hcheck⟩
      case isFalse => exact Or.inr h
  | generate j now =>
    have hupdate : ∀ users', (⟨users', Function.update s.logins j none⟩ : State ι).logins i = some (user, pass) →
        s.logins i = some (user, pass) := by
      intro users' h'
      simp only [Function.update_apply] at h'
      split at h'
      · cases h'
      · exact h'
    simp only [State.step] at h
    cases hj : s.logins j with
    | none =>
      rw [hj] at h
      exact Or.inr h
    | some l =>
      simp only [hj] at h
      rcases hg : GenerateToken lib now s.users l.1 l.2 with ⟨e | token, users'⟩
      · rw [hg] at h
        exact Or.inr (hupdate users' h)
      · rw [hg] at h
        exact Or.inr (hupdate users' h)

/-- The password fits the current credentials, or all that are pending. -/
def Shown (users : Users) (user pass : String) : Prop :=
  ∃ c, credsOf users user = some c ∧ (c.current.password = pass ∨ ∀ p, c.pending = some p → p.password = pass)

structure State.Inv (s : State ι) : Prop where
  distinct : ∀ u c, credsOf s.users u = some c → c.Distinct
  shown : ∀ i user pass, s.logins i = some (user, pass) → Shown s.users user pass

/-- After a rotation nothing is pending. -/
lemma Shown.step {user pass : String} (h : Shown s.users user pass) (a : Input ι Token) :
    Shown (s.step lib a).2.users user pass := by
  obtain ⟨c, hc, hpass⟩ := h
  rcases creds_step lib s a user with e | ⟨-, e⟩
  · exact ⟨c, e.trans hc, hpass⟩
  · refine ⟨c.rotate, by rw [e, hc]; rfl, ?_⟩
    cases hp : c.pending <;> exact Or.inr (by simp [Creds.rotate, hp])

theorem State.Inv.step (h : s.Inv) (a : Input ι Token) : (s.step lib a).2.Inv := by
  refine ⟨?_, ?_⟩
  · intro u c hc
    rcases creds_step lib s a u with e | ⟨-, e⟩
    · exact h.distinct u c (e ▸ hc)
    · rw [e] at hc
      obtain ⟨c₀, hc₀, rfl⟩ := Option.map_eq_some_iff.1 hc
      exact (h.distinct u c₀ hc₀).rotate
  · intro i user pass hi
    rcases logins_step hi with ⟨rfl, hcheck⟩ | hi
    · obtain ⟨c, hc, hpass⟩ := checkLogin_none hcheck
      refine Shown.step ⟨c, hc, hpass.imp_right ?_⟩ _
      rintro ⟨p, hp, hpp⟩ p' hp'
      obtain rfl := Option.some.inj (hp.symm.trans hp')
      exact hpp
    · exact (h.shown i user pass hi).step a

lemma settled_final {user : String} {cred : Cred} (h : credsOf s.users user = some ⟨cred, none⟩)
    (is : List (Input ι Token)) : credsOf (final (State.step lib) s is).users user = some ⟨cred, none⟩ := by
  refine inv_final (I := fun s : State ι => credsOf s.users user = some ⟨cred, none⟩) h ?_ is
  intro s a hs
  rcases creds_step lib s a user with e | ⟨-, e⟩
  · exact e.trans hs
  · rw [e, hs]
    rfl

lemma login_mem {users : Users} {is : List (Input ι Token)} {i : ι} {user pass : String}
    (h : (final (State.step lib) ⟨users, fun _ => none⟩ is).logins i = some (user, pass)) :
    .login i user pass ∈ is := by
  induction is using List.reverseRecOn with
  | nil => cases h
  | append_singleton is a ih =>
    rw [final_snoc] at h
    rcases logins_step h with ⟨rfl, -⟩ | h
    · simp
    · exact List.mem_append_left _ (ih h)

/-- What a login that shows a password gets a token for is the secret that goes with the password. -/
lemma State.Inv.generate (h : s.Inv) {i : ι} {now : ℤ} {token : Token}
    (hg : (s.step lib (.generate i now)).1 = .created token) :
    ∃ user pass secret exp, s.logins i = some (user, pass) ∧ lib.SignedString user exp secret = .ok token ∧
      Configured s.users user ⟨pass, secret⟩ := by
  simp only [State.step] at hg
  cases hi : s.logins i with
  | none => simp [hi] at hg
  | some l =>
    obtain ⟨user, pass⟩ := l
    simp only [hi] at hg
    rcases hgen : GenerateToken lib now s.users user pass with ⟨e | token', users'⟩
    · simp [hgen] at hg
    · rw [hgen] at hg
      obtain rfl := Answer.created.inj hg
      obtain ⟨c, exp, secret, hc, hsigned, hcred⟩ := generateToken_ok (by rw [hgen])
      refine ⟨user, pass, secret, exp, rfl, hsigned, c, hc, hcred.imp_right ?_⟩
      rintro ⟨hne, p, hp, rfl⟩
      obtain ⟨c', hc', hpass⟩ := h.shown i user pass hi
      obtain rfl := Option.some.inj (hc.symm.trans hc')
      rw [hp, ← hpass.resolve_left hne p hp]

end Run

/-! ## Safety -/

section Safety

variable {ι Token : Type} [DecidableEq ι]

/-- **Rotation is safe under every interleaving.**  A run is any sequence of first and second steps of logins, of
rotations and of authentications, from users that passed `CheckUpdateNewCred`.

A token is created with a secret only for a login with the password configured together with it, and the pair is
current or pending at that moment.  A token is accepted for a user only if it names the user and is signed with the
current or the pending secret.  After a rotation, no token signed only with the old secret is accepted, and no login
with the old password. -/
theorem rotation_safe (lib : JwtLib Token) (SignedWith : String → Token → Prop)
    (hlib : ∀ now secret token tok, lib.Parse now secret token = .ok tok → SignedWith secret token)
    {parseTime : String → Except Error ℤ} {start : ℤ} {config users : Users}
    (hcheck : CheckUpdateNewCred parseTime start config = .ok users) (pre : List (Input ι Token)) :
    let s := final (State.step lib) ⟨users, fun _ => none⟩ pre
    (∀ i now token, (s.step lib (.generate i now)).1 = .created token →
      ∃ user pass secret exp, .login i user pass ∈ pre ∧ lib.SignedString user exp secret = .ok token ∧
        Configured s.users user ⟨pass, secret⟩) ∧
    (∀ user token now u, (s.step lib (.authenticate user token now)).1 = .authenticated (.ok u) →
      u = user ∧ ∃ cred tok, Configured s.users user cred ∧ lib.Parse now cred.secret token = .ok tok ∧
        tok.user = some (.string user) ∧ SignedWith cred.secret token) ∧
    (∀ user old new, credsOf s.users user = some ⟨old, some new⟩ → ∀ post,
      let t := final (State.step lib) s (.setNewCred user :: post)
      (∀ token now u, (∀ secret, SignedWith secret token → secret = old.secret) →
        (t.step lib (.authenticate user token now)).1 ≠ .authenticated (.ok u)) ∧
      ∀ i, ∃ text, (t.step lib (.login i user old.password)).1 = .unauthorized text) := by
  intro s
  have hinv : s.Inv := by
    refine inv_final (I := State.Inv) ⟨fun u c hc => distinct_of_check hcheck hc, ?_⟩ (fun s a hs => hs.step a) pre
    intro i user pass hi
    cases hi
  refine ⟨?_, ?_, ?_⟩
  · intro i now token hg
    obtain ⟨user, pass, secret, exp, hi, hsigned, hconf⟩ := hinv.generate hg
    exact ⟨user, pass, secret, exp, login_mem hi, hsigned, hconf⟩
  · intro user token now u ha
    obtain ⟨hu, cred, tok, hconf, hparse, hname⟩ := authenticate_ok (Answer.authenticated.inj ha)
    exact ⟨hu, cred, tok, hconf, hparse, hname, hlib _ _ _ _ hparse⟩
  · intro user old new hold post t
    obtain ⟨hpass, hsecret⟩ := hinv.distinct user _ hold new rfl
    -- from the rotation on, the new credentials are current and nothing is pending
    have hrotated : credsOf (s.step lib (.setNewCred user)).2.users user = some ⟨new, none⟩ := by
      have hset : credsOf (s.step lib (.setNewCred user)).2.users user = _ := credsOf_setNewCred s.users user user
      rw [hset, if_pos rfl, hold]
      rfl
    have ht : credsOf t.users user = some ⟨new, none⟩ := settled_final hrotated post
    refine ⟨?_, ?_⟩
    · intro token now u honly ha
      obtain ⟨-, cred, tok, ⟨c, hc, hcred⟩, hparse, -⟩ := authenticate_ok (Answer.authenticated.inj ha)
      obtain rfl := Option.some.inj (ht.symm.trans hc)
      obtain rfl : new = cred := by simpa using hcred
      exact hsecret (honly _ (hlib _ _ _ _ hparse))
    · intro i
      cases hl : checkLogin t.users user old.password with
      | some text => exact ⟨text, by simp [State.step, hl]⟩
      | none =>
        obtain ⟨c, hc, hcred⟩ := checkLogin_none hl
        obtain rfl := Option.some.inj (ht.symm.trans hc)
        exact absurd (by simpa using hcred) hpass

/-- Tokens as the claims and the secret that they are signed with. -/
def plainJwt : JwtLib (String × ℤ × String) where
  SignedString user exp secret := .ok (user, exp, secret)
  Parse now secret token :=
    if token.2.2 ≠ secret then .error { text := "token signature is invalid" }
    else if token.2.1 * 1000000000 < now then .error { text := "token is expired" }
    else .ok ⟨some (.string token.1), true⟩

def pendingUser : UserData := ⟨"Pending-password0", 0, "Pending-secret-of-32-characters-0", "", none⟩

/-- A user with pending credentials that are due later. -/
def rotatingUsers : Users :=
  AList.insert "alice" ⟨"Current-password0", 10, "Current-secret-of-32-characters-0", "later", some pendingUser⟩ ∅

lemma check_rotatingUsers : CheckUpdateNewCred (fun _ => .ok 1) 0 rotatingUsers = .ok rotatingUsers := rfl

/-- A login with the pending password gets a token with the pending secret; once the credentials are rotated, a token
with the old secret is refused, and so is the old password. -/
theorem rotation_safe_alice :
    let pre : List (Input ℕ (String × ℤ × String)) := [.login 0 "alice" "Pending-password0"]
    let s := final (State.step plainJwt) ⟨rotatingUsers, fun _ => none⟩ pre
    let t := final (State.step plainJwt) s [.setNewCred "alice", .generate 0 0]
    (s.step plainJwt (.generate 0 0)).1 = .created ("alice", 3600, "Pending-secret-of-32-characters-0") ∧
    (∃ user pass secret exp, .login 0 user pass ∈ pre ∧
      plainJwt.SignedString user exp secret = .ok ("alice", 3600, "Pending-secret-of-32-characters-0") ∧
      Configured s.users user ⟨pass, secret⟩) ∧
    (t.step plainJwt (.authenticate "alice" ("alice", 3600, "Current-secret-of-32-characters-0") 0)).1 ≠
      .authenticated (.ok "alice") ∧
    ∃ text, (t.step plainJwt (.login 1 "alice" "Current-password0")).1 = .unauthorized text := by
  intro pre s t
  obtain ⟨hcreated, -, hrotated⟩ := rotation_safe plainJwt (fun secret token => token.2.2 = secret)
    (by
      intro now secret token tok h
      by_contra hne
      simp [plainJwt, hne] at h)
    check_rotatingUsers pre
  obtain ⟨hold, hlogin⟩ := hrotated "alice" ⟨"Current-password0", "Current-secret-of-32-characters-0"⟩
    pendingUser.cred rfl [.generate 0 0]
  exact ⟨rfl, hcreated 0 0 _ rfl, hold _ 0 "alice" (fun _ h => h.symm), hlogin 1⟩

end Safety

end Signatory.Middlewares

import Ultrav.Users

/-!
# Bearer tokens

`Login` signs a token that carries the id and the name of the user, and `Verify` looks the
user up by the name alone.

* `TokenClaims` / `JwtLibrary` — what a token carries, and what is relied on of its library.
* `UserTable.login` / `UserTable.verify` — the two ends of a token.
* `Accounts.step` — users are created and deleted, log in, and are verified.
* `Accounts.Reassigned` — since a token was issued its name went to another user.
* `genuine_iff` — which verifications name the user the token was issued to, along every run.
-/

namespace Ultrav

open Machine

/-! ## Tokens -/

/-- The claims `Login` signs. -/
structure TokenClaims where
  /-- the username -/
  sub : String
  uid : ℤ
  role : String
  /-- in Unix seconds -/
  iat : ℤ
  exp : ℤ
  deriving DecidableEq, Repr

/-- The JWT library over tokens of type `T`: a token is accepted exactly when it was signed
with the secret (HS256) and has not expired, and gives its claims back. -/
structure JwtLibrary (T : Type) where
  sign : String → TokenClaims → T
  /-- the instant is in Unix seconds -/
  parse : String → ℤ → T → Option TokenClaims
  parse_iff : ∀ secret now token claims,
    parse secret now token = some claims ↔ token = sign secret claims ∧ now < claims.exp

/-- `TokenTTL`, in seconds. -/
def tokenTTL : ℤ := 24 * 60 * 60

/-- Signing loses nothing: a token that is accepted at all gives its own claims back. -/
theorem JwtLibrary.sign_injective {T : Type} (jwt : JwtLibrary T) (secret : String) :
    Function.Injective (jwt.sign secret) := by
  intro a b h
  have hmin : min a.exp b.exp - 1 < a.exp ∧ min a.exp b.exp - 1 < b.exp := by omega
  have ha := (jwt.parse_iff secret _ (jwt.sign secret a) a).mpr ⟨rfl, hmin.1⟩
  have hb := (jwt.parse_iff secret _ (jwt.sign secret a) b).mpr ⟨h, hmin.2⟩
  exact Option.some.inj (ha.symm.trans hb)

namespace UserTable

variable {T : Type}

/-- `Login`, with bcrypt's comparison of the stored hash with the password. -/
def login (jwt : JwtLibrary T) (compare : String → String → Bool) (secret : String)
    (t : UserTable) (username password : String) (now : ℤ) : Except UserError (T × UserRow) :=
  match t.byUsername username with
  | none => .error .invalidCredentials
  | some u =>
    if compare u.passwordHash password then
      .ok (jwt.sign secret ⟨u.username, u.id, u.role, now, now + tokenTTL⟩, u)
    else .error .invalidCredentials

/-- `Verify` -/
def verify (jwt : JwtLibrary T) (secret : String) (t : UserTable) (token : T) (now : ℤ) :
    Except UserError UserRow :=
  match jwt.parse secret now token with
  | none => .error .invalidToken
  | some claims =>
    if claims.sub = "" then .error .invalidToken
    else
      match t.byUsername claims.sub with
      | none => .error .invalidToken
      | some u => .ok u

variable {t : UserTable} {jwt : JwtLibrary T} {secret : String}

/-- Inversion for `login`. -/
theorem login_eq_ok {compare : String → String → Bool} {username password : String} {now : ℤ}
    {token : T} {u : UserRow}
    (h : t.login jwt compare secret username password now = .ok (token, u)) :
    t.byUsername u.username = some u ∧
      token = jwt.sign secret ⟨u.username, u.id, u.role, now, now + tokenTTL⟩ := by
  rw [login] at h
  split at h
  · cases h
  · rename_i v hv
    split at h <;> cases h
    exact ⟨byUsername_username hv ▸ hv, rfl⟩

/-- `Verify` accepts a signed token until it expires, for the user who has the name. -/
theorem verify_sign_eq_ok_iff {claims : TokenClaims} {now : ℤ} {u : UserRow} :
    t.verify jwt secret (jwt.sign secret claims) now = .ok u ↔
      now < claims.exp ∧ claims.sub ≠ "" ∧ t.byUsername claims.sub = some u := by
  rw [verify]
  by_cases hexp : now < claims.exp
  · rw [(jwt.parse_iff secret now _ claims).mpr ⟨rfl, hexp⟩]
    dsimp only
    split
    · exact iff_of_false (fun h => by cases h) fun h => h.2.1 ‹_›
    · rcases hu : t.byUsername claims.sub with _ | v
      · exact iff_of_false (fun h => by cases h) fun h => by cases h.2.2
      · simp [hexp, ‹¬ claims.sub = ""›]
  · refine iff_of_false (fun h => ?_) fun h => hexp h.1
    split at h
    · cases h
    · rename_i claims' hparse
      obtain ⟨htoken, hexp'⟩ := (jwt.parse_iff secret now _ claims').mp hparse
      exact hexp (jwt.sign_injective secret htoken ▸ hexp')

end UserTable

/-! ## Accounts -/

/-- A name was given to a new user, or its user was deleted. -/
structure NameChange where
  username : String
  created : Bool
  deriving DecidableEq, Repr

/-- A token that `Login` returned. -/
structure IssuedToken (T : Type) where
  token : T
  /-- the user it was returned for -/
  user : UserRow
  /-- its expiry, in Unix seconds -/
  exp : ℤ
  /-- how many changes there had been -/
  since : ℕ

/-- The table, with the changes of names and the tokens so far. -/
structure Accounts (T : Type) where
  table : UserTable
  changes : List NameChange
  issued : List (IssuedToken T)

/-- A call of the auth service. -/
inductive AccountEvent (T : Type) where
  /-- `CreateUser` -/
  | createUser (username : String) (hash : Option String) (role : String) (createdAt : ℤ)
  /-- `DeleteUser` -/
  | deleteUser (callerID id : ℤ)
  /-- `Login` -/
  | login (username password : String) (now : ℤ)
  /-- `Verify` -/
  | verify (token : T) (now : ℤ)

/-- What last became of a name. -/
def lastChange (username : String) (changes : List NameChange) : Option Bool :=
  ((changes.filter fun c => c.username = username).getLast?).map NameChange.created

/-- A change of one name is its last one. -/
theorem lastChange_concat (username : String) (changes : List NameChange) (c : NameChange) :
    lastChange username (changes ++ [c]) =
      if c.username = username then some c.created else lastChange username changes := by
  rw [lastChange, List.filter_append]
  split
  · simp [*]
  · simp [*, lastChange]

namespace Accounts

section Step

variable {T : Type} (jwt : JwtLibrary T) (compare : String → String → Bool) (secret : String)

/-- One call. -/
def step (s : Accounts T) : AccountEvent T → Option (Accounts T)
  | .createUser username hash role createdAt =>
    match s.table.createUser username hash role createdAt with
    | .ok table => some { s with table := table, changes := s.changes ++ [⟨username, true⟩] }
    | .error _ => some s
  | .deleteUser callerID id =>
    match s.table.deleteUser callerID id, s.table.byID id with
    | .ok table, some u =>
      some { s with table := table, changes := s.changes ++ [⟨u.username, false⟩] }
    | _, _ => some s
  | .login username password now =>
    match s.table.login jwt compare secret username password now with
    | .ok (token, u) =>
      some { s with issued := ⟨token, u, now + tokenTTL, s.changes.length⟩ :: s.issued }
    | .error _ => some s
  | .verify _ _ => some s

/-- A table, and no token issued yet. -/
def start (t : UserTable) : Accounts T := ⟨t, [], []⟩

/-- The last change of the token's name since the token was issued gave the name to a new
user. -/
def Reassigned (s : Accounts T) (i : IssuedToken T) : Prop :=
  lastChange i.user.username (s.changes.drop i.since) = some true

/-- A verification of an issued token names the user it was issued to, if anyone. -/
def Genuine (s : Accounts T) : AccountEvent T → Prop
  | .verify token now => ∀ i ∈ s.issued, i.token = token → ∀ u,
      s.table.verify jwt secret token now = .ok u → u.id = i.user.id
  | _ => True

/-- The token to verify has expired, or its name was not reassigned (an empty name is never
accepted). -/
def NotReassigned (s : Accounts T) : AccountEvent T → Prop
  | .verify token now => ∀ i ∈ s.issued, i.token = token → now < i.exp → i.user.username ≠ "" →
      ¬ s.Reassigned i
  | _ => True

/-- What the changes since a token was issued say about the user who has its name. -/
structure Traced (s : Accounts T) (i : IssuedToken T) : Prop where
  signed : ∃ claims, i.token = jwt.sign secret claims ∧ claims.sub = i.user.username ∧
    claims.exp = i.exp
  since_le : i.since ≤ s.changes.length
  id_le : i.user.id ≤ s.table.seq
  /-- without a change, and after a creation -/
  holder : lastChange i.user.username (s.changes.drop i.since) ≠ some false →
    ∃ u, s.table.byUsername i.user.username = some u ∧
      (u.id = i.user.id ↔ lastChange i.user.username (s.changes.drop i.since) = none)
  /-- after a deletion -/
  freed : lastChange i.user.username (s.changes.drop i.since) = some false →
    s.table.byUsername i.user.username = none

/-- Every issued token is traced. -/
def Inv (s : Accounts T) : Prop := ∀ i ∈ s.issued, s.Traced jwt secret i

variable {jwt compare secret} {s s' : Accounts T} {i : IssuedToken T}

/-- A token stays traced through a change of one name. -/
theorem Traced.change (hi : s.Traced jwt secret i) {t : UserTable} {c : NameChange}
    (hseq : s.table.seq ≤ t.seq)
    (hsame : i.user.username ≠ c.username →
      t.byUsername i.user.username = s.table.byUsername i.user.username)
    (hcreated : i.user.username = c.username → c.created = true →
      ∃ u, t.byUsername i.user.username = some u ∧ u.id ≠ i.user.id)
    (hfreed : i.user.username = c.username → c.created = false →
      t.byUsername i.user.username = none) :
    Traced jwt secret { s with table := t, changes := s.changes ++ [c] } i := by
  have hlast : lastChange i.user.username ((s.changes ++ [c]).drop i.since) =
      if c.username = i.user.username then some c.created
      else lastChange i.user.username (s.changes.drop i.since) := by
    rw [List.drop_append_of_le_length hi.since_le, lastChange_concat]
  by_cases hname : i.user.username = c.username
  · rw [if_pos hname.symm] at hlast
    refine ⟨hi.signed, ?_, hi.id_le.trans hseq, fun h => ?_, fun h => ?_⟩
    · simpa using Nat.le_succ_of_le hi.since_le
    · rw [hlast] at h ⊢
      obtain ⟨u, hu, hne⟩ := hcreated hname (by simpa using h)
      exact ⟨u, hu, iff_of_false hne fun h => by cases h⟩
    · rw [hlast] at h
      exact hfreed hname (Option.some.inj h)
  · rw [if_neg fun h => hname h.symm] at hlast
    refine ⟨hi.signed, ?_, hi.id_le.trans hseq, fun h => ?_, fun h => ?_⟩
    · simpa using Nat.le_succ_of_le hi.since_le
    · rw [hlast] at h ⊢
      dsimp only
      rw [hsame hname]
      exact hi.holder h
    · rw [hlast] at h
      dsimp only
      rw [hsame hname]
      exact hi.freed h

/-- **Step lemma**: every call keeps the issued tokens traced. -/
theorem inv_step (hs : s.Inv jwt secret) {e : AccountEvent T}
    (h : s.step jwt compare secret e = some s') : s'.Inv jwt secret := by
  cases e with
  | createUser username hash role createdAt =>
    rw [step] at h
    split at h
    · rename_i t ht
      cases h
      obtain ⟨hash', hfree, hseq, hrows⟩ := UserTable.createUser_eq_ok ht
      have hname := UserTable.byUsername_concat hrows hfree
      intro i hi
      -- the new row is the holder of its name, and its id is past every issued one
      refine (hs i hi).change (by omega) (fun hne => ?_) (fun heq _ => ?_) fun _ hc => by cases hc
      · rw [hname, if_neg hne]
      · refine ⟨_, by rw [hname, if_pos heq], ?_⟩
        have := (hs i hi).id_le
        dsimp only
        omega
    · cases h
      exact hs
  | deleteUser callerID id =>
    rw [step] at h
    split at h
    · rename_i t u ht hu
      cases h
      obtain ⟨-, rfl⟩ := UserTable.deleteUser_eq_ok ht
      have hname := UserTable.byUsername_delete hu
      intro i hi
      refine (hs i hi).change le_rfl (fun hne => ?_) (fun _ hc => by cases hc) fun heq _ => ?_
      · rw [hname, if_neg hne]
      · rw [hname, if_pos heq]
    · cases h
      exact hs
  | login username password now =>
    rw [step] at h
    split at h
    · rename_i token u hlogin
      cases h
      obtain ⟨hu, htoken⟩ := UserTable.login_eq_ok hlogin
      intro i hi
      rcases List.mem_cons.mp hi with rfl | hi
      · have hnone : lastChange u.username (s.changes.drop s.changes.length) = none := by
          rw [List.drop_length]
          rfl
        refine ⟨⟨_, htoken, rfl, rfl⟩, Nat.le_refl _, ?_, fun _ => ⟨u, hu, ?_⟩, fun h => ?_⟩
        -- no change of the table follows the login yet
        · exact s.table.id_le_seq u (List.mem_of_find?_eq_some hu)
        · exact iff_of_true rfl hnone
        · cases hnone.symm.trans h
      · exact { hs i hi with }
    · cases h
      exact hs
  | verify token now =>
    cases h
    exact hs

/-- **One verification** of an issued token is genuine exactly when the token has expired or
its name was not reassigned. -/
theorem Traced.verified_iff (hi : s.Traced jwt secret i) (now : ℤ) :
    (∀ u, s.table.verify jwt secret i.token now = .ok u → u.id = i.user.id) ↔
      (now < i.exp → i.user.username ≠ "" → ¬ s.Reassigned i) := by
  obtain ⟨claims, htoken, hsub, hexp⟩ := hi.signed
  simp only [htoken, UserTable.verify_sign_eq_ok_iff, hsub, hexp, Reassigned]
  rcases hlast : lastChange i.user.username (s.changes.drop i.since) with _ | created
  · obtain ⟨v, hv, hid⟩ := hi.holder (by simp [hlast])
    refine iff_of_true (fun u hu => ?_) fun _ _ h => by cases h
    cases hv.symm.trans hu.2.2
    exact hid.mpr hlast
  · cases created with
    | false =>
      refine iff_of_true (fun u hu => ?_) fun _ _ h => by cases h
      cases (hi.freed hlast).symm.trans hu.2.2
    | true =>
      obtain ⟨v, hv, hid⟩ := hi.holder (by simp [hlast])
      constructor
      · intro h hnow hne _
        cases hlast.symm.trans (hid.mp (h v ⟨hnow, hne, hv⟩))
      · intro h u hu
        exact absurd rfl (h hu.1 hu.2.1)

theorem genuine_iff_notReassigned (hs : s.Inv jwt secret) (e : AccountEvent T) :
    s.Genuine jwt secret e ↔ s.NotReassigned e := by
  cases e with
  | verify token now =>
    constructor
    · rintro h i hi rfl
      exact ((hs i hi).verified_iff now).mp (h i hi rfl)
    · rintro h i hi rfl
      exact ((hs i hi).verified_iff now).mpr (h i hi rfl)
  | _ => exact Iff.rfl

/-- **Tokens name their user**, along every run of calls: every accepted verification of an
issued token returns the user it was issued to exactly when, at every verification, the token
has expired or its name was not reassigned since. -/
theorem genuine_iff (jwt : JwtLibrary T) (compare : String → String → Bool) (secret : String)
    (t : UserTable) (es : List (AccountEvent T)) :
    Along (step jwt compare secret) (Genuine jwt secret) (start t) es ↔
      Along (step jwt compare secret) NotReassigned (start t) es :=
  along_iff_of_inv (fun _ e hs => genuine_iff_notReassigned hs e)
    (fun _ _ _ hs _ hst => inv_step hs hst) fun _ h => absurd h List.not_mem_nil

end Step

end Accounts

/-! ### A name that comes back -/

namespace NameAgain

/-- Tokens that show what was signed, and with which secret. -/
def jwt : JwtLibrary (String × TokenClaims) where
  sign secret claims := (secret, claims)
  parse secret now token := if token.1 = secret ∧ now < token.2.exp then some token.2 else none
  parse_iff secret now token claims := by
    obtain ⟨secret', claims'⟩ := token
    dsimp only
    constructor
    · intro h
      split at h
      · rename_i hif
        cases h
        exact ⟨by rw [hif.1], hif.2⟩
      · cases h
    · rintro ⟨heq, hexp⟩
      cases heq
      rw [if_pos ⟨rfl, hexp⟩]

/-- The hash of a password is the password. -/
def compare (hash password : String) : Bool := hash = password

/-- The token of the viewer `eve`, user 2. -/
def token : String × TokenClaims := ("secret", ⟨"eve", 2, "viewer", 0, 86400⟩)

/-- The viewer `eve` logs in, is deleted, and an admin of that name is created. -/
def events : List (AccountEvent (String × TokenClaims)) :=
  [.createUser "root" (some "root-pass") "admin" 0, .createUser "eve" (some "eve-pass") "viewer" 0,
    .login "eve" "eve-pass" 0, .deleteUser 1 2, .createUser "eve" (some "new-pass") "admin" 60]

end NameAgain

/-- The exact condition, at work on the name that comes back. -/
theorem Accounts.genuine_iff_nameAgain :
    Along (Accounts.step NameAgain.jwt NameAgain.compare "secret")
        (Accounts.Genuine NameAgain.jwt "secret") (Accounts.start .empty)
        (NameAgain.events ++ [.verify NameAgain.token 120]) ↔
      Along (Accounts.step NameAgain.jwt NameAgain.compare "secret") Accounts.NotReassigned
        (Accounts.start .empty) (NameAgain.events ++ [.verify NameAgain.token 120]) :=
  Accounts.genuine_iff NameAgain.jwt NameAgain.compare "secret" .empty _

/-- A token can authenticate another user: the viewer's token is accepted for the admin who
got the name. -/
theorem token_names_other_user :
    ¬ ∀ (T : Type) (jwt : JwtLibrary T) (compare : String → String → Bool) (secret : String)
      (t : UserTable) (es : List (AccountEvent T)),
      Along (Accounts.step jwt compare secret) (Accounts.Genuine jwt secret) (Accounts.start t)
        es := by
  intro hall
  have h := (hall _ NameAgain.jwt NameAgain.compare "secret" .empty
    (NameAgain.events ++ [.verify NameAgain.token 120])).of_run rfl
  have hid := h _ List.mem_cons_self rfl _ rfl
  exact absurd hid (by decide)

end Ultrav

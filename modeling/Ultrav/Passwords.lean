import Ultrav.ApiErrors
import Ultrav.DomainModel
import Ultrav.LastAdmin
import Ultrav.Tokens
import Ultrav.UrlPath
import Mathlib.Data.List.GetD

/-!
# Accounts and their passwords

The user management from the request on: the handlers check the body, the auth service hashes
and compares, and every SQL statement of a call runs alone.

* `bcryptKey` / `Bcrypt` — what bcrypt reads of a password, and what is relied on of it.
* `AccountRequest` / `AccountRequest.handle` — the handlers.
* `AccountServer` / `AccountServer.step` — the table and the calls under way, with restarts.
* `AccountDirectory` — accounts by name with their passwords in the clear, as the successful calls
  leave them one after the other.
* `login_eq_ok_iff` — the table is such a directory: `Login` accepts the password last set.
* `account_unchanged` — who can change an account.
-/

namespace Ultrav

open Machine

/-! ## bcrypt -/

/-- What bcrypt reads of a password: 72 bytes of the password and a NUL, over and over. -/
def bcryptKey (password : String) : Bytes :=
  (List.range 72).map fun i =>
    (bytesOf password ++ [0]).getD (i % ((bytesOf password).length + 1)) 0

/-- The bcrypt library: `GenerateFromPassword` under a salt, and `CompareHashAndPassword`. -/
structure Bcrypt where
  generate : ℕ → String → Option String
  compare : String → String → Bool
  /-- `ErrPasswordTooLong` -/
  generate_isSome : ∀ salt password,
    (generate salt password).isSome = true ↔ (bytesOf password).length ≤ 72
  compare_iff : ∀ salt password hash other, generate salt password = some hash →
    (compare hash other = true ↔ bcryptKey other = bcryptKey password)

theorem getD_bcryptKey {password : String} {i : ℕ} (hi : i < 72) :
    (bcryptKey password).getD i 1 =
      (bytesOf password ++ [0]).getD (i % ((bytesOf password).length + 1)) 0 := by
  simp [bcryptKey, List.getD_eq_getElem?_getD, hi]

/-- Where a password without NUL ends is where bcrypt reads the first one. -/
theorem bcryptKey_eq_zero_iff {password : String} (hnul : 0 ∉ bytesOf password) {i : ℕ}
    (hi : i < 72) (hle : i ≤ (bytesOf password).length) :
    (bcryptKey password).getD i 1 = 0 ↔ i = (bytesOf password).length := by
  rw [getD_bcryptKey hi, Nat.mod_eq_of_lt (Nat.lt_succ_of_le hle)]
  constructor
  · intro h
    by_contra hne
    have hlt : i < (bytesOf password).length := Nat.lt_of_le_of_ne hle hne
    rw [List.getD_append _ _ _ _ hlt, List.getD_eq_getElem _ _ hlt] at h
    exact hnul (h ▸ List.getElem_mem hlt)
  · rintro rfl
    rw [List.getD_append_right _ _ _ _ (Nat.le_refl _)]
    simp

/-- **Passwords without NUL of up to 72 bytes are told apart.** -/
theorem bcryptKey_injective {p q : String} (hp : 0 ∉ bytesOf p) (hq : 0 ∉ bytesOf q)
    (hpl : (bytesOf p).length ≤ 72) (hql : (bytesOf q).length ≤ 72)
    (h : bcryptKey p = bcryptKey q) : bytesOf p = bytesOf q := by
  have hlen : (bytesOf p).length = (bytesOf q).length := by
    rcases Nat.lt_trichotomy (bytesOf p).length (bytesOf q).length with hlt | heq | hlt
    · have hz := (bcryptKey_eq_zero_iff hp (by omega) (Nat.le_refl _)).mpr rfl
      rw [h, bcryptKey_eq_zero_iff hq (by omega) (by omega)] at hz
      exact hz
    · exact heq
    · have hz := (bcryptKey_eq_zero_iff hq (by omega) (Nat.le_refl _)).mpr rfl
      rw [← h, bcryptKey_eq_zero_iff hp (by omega) (by omega)] at hz
      exact hz.symm
  refine List.ext_getElem hlen fun i hi hi' => ?_
  have hkey : (bcryptKey p).getD i 1 = (bcryptKey q).getD i 1 := by rw [h]
  rw [getD_bcryptKey (by omega), getD_bcryptKey (by omega), Nat.mod_eq_of_lt (by omega),
    Nat.mod_eq_of_lt (by omega), List.getD_append _ _ _ _ hi, List.getD_append _ _ _ _ hi',
    List.getD_eq_getElem _ _ hi, List.getD_eq_getElem _ _ hi'] at hkey
  exact hkey

/-! ## The table -/

/-- The row with a new hash, if it is the one of the id. -/
def UserRow.rehash (id : ℤ) (hash : String) (r : UserRow) : UserRow :=
  if r.id = id then { r with passwordHash := hash } else r

@[simp] theorem UserRow.rehash_id (id : ℤ) (hash : String) (r : UserRow) :
    (r.rehash id hash).id = r.id := by
  rw [rehash]
  split <;> rfl

@[simp] theorem UserRow.rehash_username (id : ℤ) (hash : String) (r : UserRow) :
    (r.rehash id hash).username = r.username := by
  rw [rehash]
  split <;> rfl

@[simp] theorem UserRow.rehash_role (id : ℤ) (hash : String) (r : UserRow) :
    (r.rehash id hash).role = r.role := by
  rw [rehash]
  split <;> rfl

namespace UserTable

/-- `UPDATE users SET password_hash = ? WHERE id = ?` -/
def updatePassword (t : UserTable) (id : ℤ) (hash : String) : UserTable where
  rows := t.rows.map (UserRow.rehash id hash)
  seq := t.seq
  id_le_seq := by simpa using t.id_le_seq
  ids_nodup := by
    have hsame : UserRow.id ∘ UserRow.rehash id hash = UserRow.id :=
      funext (UserRow.rehash_id id hash)
    rw [List.map_map, hsame]
    exact t.ids_nodup
  usernames_nodup := by
    have hsame : UserRow.username ∘ UserRow.rehash id hash = UserRow.username :=
      funext (UserRow.rehash_username id hash)
    rw [List.map_map, hsame]
    exact t.usernames_nodup

/-- An update changes one hash. -/
theorem byUsername_updatePassword (t : UserTable) (id : ℤ) (hash username : String) :
    (t.updatePassword id hash).byUsername username =
      (t.byUsername username).map (UserRow.rehash id hash) := by
  rw [byUsername, updatePassword, List.find?_map, byUsername]
  have hsame : (fun r : UserRow => decide (r.username = username)) ∘ UserRow.rehash id hash =
      fun r => decide (r.username = username) := by
    funext r
    rw [Function.comp_apply, UserRow.rehash_username]
  rw [hsame]

theorem byID_updatePassword (t : UserTable) (id i : ℤ) (hash : String) :
    (t.updatePassword id hash).byID i = (t.byID i).map (UserRow.rehash id hash) := by
  rw [byID, updatePassword, List.find?_map, byID]
  have hsame : (fun r : UserRow => decide (r.id = i)) ∘ UserRow.rehash id hash =
      fun r => decide (r.id = i) := by
    funext r
    rw [Function.comp_apply, UserRow.rehash_id]
  rw [hsame]

/-- A deletion takes the row of its id away. -/
theorem byUsername_delete_eq (t : UserTable) (id : ℤ) (username : String) :
    (t.delete id).byUsername username = (t.byUsername username).filter fun r => r.id ≠ id := by
  rcases hr : t.byID id with _ | r
  · -- no row has that id
    have hnone : ∀ u ∈ t.rows, u.id ≠ id := fun u hu heq => by
      simpa [heq] using List.find?_eq_none.mp hr u hu
    have hall : t.rows.filter (fun r => r.id ≠ id) = t.rows :=
      List.filter_eq_self.mpr fun u hu => by simpa using hnone u hu
    have hsame : (t.delete id).byUsername username = t.byUsername username :=
      congrArg (List.find? fun r : UserRow => r.username = username) hall
    rw [hsame]
    rcases hu : t.byUsername username with _ | u
    · rfl
    · have hne := hnone u (List.mem_of_find?_eq_some hu)
      simp [Option.filter, hne]
  · rw [byUsername_delete hr]
    have hid : r.id = id := by simpa using List.find?_some hr
    rcases hu : t.byUsername username with _ | u
    · split <;> rfl
    · have hname := byUsername_username hu
      by_cases hur : u.id = id
      · have heq : u = r := List.inj_on_of_nodup_map t.ids_nodup (List.mem_of_find?_eq_some hu)
          (List.mem_of_find?_eq_some hr) (hur.trans hid.symm)
        rw [if_pos (by rw [← hname, heq])]
        simp [Option.filter, hur]
      · have hne : ¬ username = r.username := fun heq => hur <| by
          rw [← hid, List.inj_on_of_nodup_map t.usernames_nodup (List.mem_of_find?_eq_some hu)
            (List.mem_of_find?_eq_some hr) (hname.trans heq)]
        rw [if_neg hne]
        simp [Option.filter, hur]

/-- `BootstrapAdmin`, with the password it would generate. -/
def bootstrapAdmin (bc : Bcrypt) (salt : ℕ) (generated : String) (t : UserTable)
    (username password : String) (createdAt : ℤ) : Except UserError UserTable :=
  if t.rows.length > 0 then .ok t
  else
    t.createUser (if username = "" then "admin" else username)
      (bc.generate salt (if password = "" then generated else password)) "admin" createdAt

end UserTable

/-! ## Requests -/

/-- `minPasswordLength` -/
def minPasswordLength : ℕ := 8

/-- A request of the user management, with its decoded body. -/
inductive AccountRequest where
  | createUser (username password role : String)
  | deleteUser (id : ℤ)
  | resetUserPassword (id : ℤ) (password : String)
  | changeOwnPassword (currentPassword newPassword : String)

/-- A call of the auth service that is under way, before its next statement. -/
inductive AccountCall where
  /-- `CreateUser` -/
  | createUser (username password role : String)
  /-- `DeleteUser`, past its check of the caller -/
  | deleteUser (phase : DeletePhase)
  /-- `UpdatePassword` -/
  | updatePassword (id : ℤ) (password : String)
  /-- `ChangeOwnPassword` -/
  | changeOwnPassword (id : ℤ) (current next : String)

/-- The handlers up to their call of the service. -/
def AccountRequest.handle (caller : UserRow) : AccountRequest → Except ErrorReply AccountCall
  | .createUser username password role =>
    if caller.role ≠ "admin" then .error (writeError .forbidden "Admin role required")
    else if trimSpace username = "" || (bytesOf password).length < minPasswordLength then
      .error (writeError .validationError
        ("username is required and password must have at least " ++ toString minPasswordLength ++
          " characters"))
    else if role ≠ "admin" && role ≠ "viewer" then
      .error (writeError .validationError "role must be admin or viewer")
    else .ok (.createUser (trimSpace username) password role)
  | .deleteUser id =>
    if caller.role ≠ "admin" then .error (writeError .forbidden "Admin role required")
    -- `parseUserID`
    else if id < 1 then .error (writeError .validationError "invalid user id")
    else if caller.id = id then
      .error (writeError .lastAdmin "Cannot delete yourself or the last admin user")
    else .ok (.deleteUser (.entered id))
  | .resetUserPassword id password =>
    if caller.role ≠ "admin" then .error (writeError .forbidden "Admin role required")
    else if id < 1 then .error (writeError .validationError "invalid user id")
    else if (bytesOf password).length < minPasswordLength then
      .error (writeError .validationError
        ("password must have at least " ++ toString minPasswordLength ++ " characters"))
    else .ok (.updatePassword id password)
  | .changeOwnPassword currentPassword newPassword =>
    if currentPassword = "" || (bytesOf newPassword).length < minPasswordLength then
      .error (writeError .validationError
        ("currentPassword is required and newPassword must have at least " ++
          toString minPasswordLength ++ " characters"))
    else .ok (.changeOwnPassword caller.id currentPassword newPassword)

/-! ## Accounts in the clear -/

/-- An account. -/
structure Account where
  id : ℤ
  password : String
  role : String

/-- Accounts by name. -/
abbrev AccountDirectory : Type := String → Option Account

/-- What a call that succeeds does to the accounts. -/
inductive AccountChange where
  | added (id : ℤ) (username password role : String)
  | removed (id : ℤ)
  | changed (id : ℤ) (password : String)

namespace AccountDirectory

/-- One change. -/
def apply (d : AccountDirectory) : AccountChange → AccountDirectory
  | .added id username password role => Function.update d username (some ⟨id, password, role⟩)
  | .removed id => fun name => (d name).filter fun a => a.id ≠ id
  | .changed id password => fun name =>
    (d name).map fun a => if a.id = id then { a with password := password } else a

/-- All changes, oldest first. -/
def replay (log : List AccountChange) : AccountDirectory := log.foldl apply fun _ => none

theorem replay_concat (log : List AccountChange) (c : AccountChange) :
    replay (log ++ [c]) = (replay log).apply c := by
  rw [replay, List.foldl_append]
  rfl

end AccountDirectory

/-! ## The server -/

/-- What a statement meets. -/
structure StatementEnv where
  /-- the statement fails -/
  fails : Bool
  /-- the salt bcrypt draws -/
  salt : ℕ
  /-- the clock of the database, in Unix seconds -/
  now : ℤ

/-- The table, the calls under way, and the changes so far. -/
structure AccountServer where
  table : UserTable
  calls : ℕ → Option AccountCall
  log : List AccountChange

/-- One event. -/
inductive AccountServerEvent where
  /-- request `i` is authenticated as the user `caller` and handled up to its call -/
  | request (i : ℕ) (caller : ℤ) (req : AccountRequest)
  /-- the next statement of call `i` -/
  | exec (i : ℕ) (env : StatementEnv)
  /-- the process ends and starts again, with the configured admin -/
  | restart (env : StatementEnv) (generated adminUser adminPassword : String)

namespace AccountServer

/-- Before the first start. -/
def fresh : AccountServer := ⟨.empty, fun _ => none, []⟩

/-- Call `i` goes on as `call`, or returns. -/
def set (s : AccountServer) (i : ℕ) (call : Option AccountCall) : AccountServer :=
  { s with calls := Function.update s.calls i call }

/-- A statement changed the table. -/
def commit (s : AccountServer) (t : UserTable) (c : AccountChange) : AccountServer :=
  { s with table := t, log := s.log ++ [c] }

/-- The next statement of a call. -/
def exec (bc : Bcrypt) (s : AccountServer) (i : ℕ) (env : StatementEnv) :
    AccountCall → AccountServer
  | .createUser username password role =>
    match s.table.createUser username (bc.generate env.salt password) role env.now with
    | .error _ => s.set i none
    | .ok t => (s.set i none).commit t (.added (s.table.seq + 1) username password role)
  | .deleteUser (.entered id) =>
    if s.table.countAdmin id = 1 then s.set i (some (.deleteUser (.counted id)))
    else s.set i (some (.deleteUser (.cleared id)))
  | .deleteUser (.counted id) =>
    if s.table.countAdmins ≤ 1 then s.set i none
    else s.set i (some (.deleteUser (.cleared id)))
  | .deleteUser (.cleared id) => (s.set i none).commit (s.table.delete id) (.removed id)
  | .deleteUser .idle => s.set i none
  | .updatePassword id password =>
    match bc.generate env.salt password with
    | none => s.set i none
    | some hash => (s.set i none).commit (s.table.updatePassword id hash) (.changed id password)
  | .changeOwnPassword id current next =>
    match s.table.byID id with
    | none => s.set i none
    | some r =>
      if bc.compare r.passwordHash current then s.set i (some (.updatePassword id next))
      else s.set i none

/-- One event. -/
def step (bc : Bcrypt) (s : AccountServer) : AccountServerEvent → Option AccountServer
  | .request i caller req =>
    match s.calls i, s.table.byID caller with
    | none, some u =>
      match req.handle u with
      | .error _ => some s
      | .ok call => some (s.set i (some call))
    | _, _ => none
  | .exec i env =>
    (s.calls i).map fun call => if env.fails then s.set i none else s.exec bc i env call
  | .restart env generated adminUser adminPassword =>
    match s.table.bootstrapAdmin bc env.salt generated adminUser adminPassword env.now with
    | .error _ => some { s with calls := fun _ => none }
    | .ok t =>
      if s.table.rows.length > 0 then some { s with calls := fun _ => none }
      else
        some (commit { s with calls := fun _ => none } t (.added (s.table.seq + 1)
          (if adminUser = "" then "admin" else adminUser)
          (if adminPassword = "" then generated else adminPassword) "admin"))

/-! ## The table is a directory -/

/-- A row holds an account: its hash is one of the password. -/
structure Holds (bc : Bcrypt) (r : UserRow) (a : Account) : Prop where
  id : r.id = a.id
  role : r.role = a.role
  hash : ∃ salt, bc.generate salt a.password = some r.passwordHash

/-- The table holds the accounts that the changes left. -/
def Refines (bc : Bcrypt) (s : AccountServer) : Prop :=
  ∀ name, Option.Rel (Holds bc) (s.table.byUsername name) (AccountDirectory.replay s.log name)

variable {bc : Bcrypt} {s s' : AccountServer} {e : AccountServerEvent}

theorem refines_fresh (bc : Bcrypt) : Refines bc fresh := fun _ => .none

theorem Refines.of_eq (h : Refines bc s) (htable : s'.table = s.table) (hlog : s'.log = s.log) :
    Refines bc s' := by
  intro name
  rw [htable, hlog]
  exact h name

/-- `CreateUser` adds an account. -/
theorem Refines.add (h : Refines bc s) {username password role : String} {salt : ℕ} {now : ℤ}
    {t : UserTable}
    (ht : s.table.createUser username (bc.generate salt password) role now = .ok t) :
    Refines bc (s.commit t (.added (s.table.seq + 1) username password role)) := by
  rcases hhash : bc.generate salt password with _ | hash
  · rw [hhash] at ht
    cases ht
  rw [hhash] at ht
  obtain ⟨hfree, -, hrows⟩ := UserTable.insert_eq_ok ht
  intro name
  dsimp only [commit]
  rw [AccountDirectory.replay_concat, UserTable.byUsername_concat hrows hfree,
    AccountDirectory.apply]
  by_cases hname : name = username
  · subst hname
    rw [if_pos rfl, Function.update_self]
    exact .some ⟨rfl, rfl, salt, hhash⟩
  · rw [if_neg hname, Function.update_of_ne hname]
    exact h name

/-- `DELETE` removes one. -/
theorem Refines.remove (h : Refines bc s) (id : ℤ) :
    Refines bc (s.commit (s.table.delete id) (.removed id)) := by
  intro name
  dsimp only [commit]
  rw [AccountDirectory.replay_concat, UserTable.byUsername_delete_eq, AccountDirectory.apply]
  dsimp only
  have hrel := h name
  generalize s.table.byUsername name = row, AccountDirectory.replay s.log name = account at hrel ⊢
  cases hrel with
  | none => exact .none
  | @some r a hra =>
    by_cases hid : a.id = id
    · simp only [Option.filter, hra.id, hid, ne_eq, not_true_eq_false, decide_false]
      exact .none
    · simp only [Option.filter, hra.id, hid, ne_eq, not_false_eq_true, decide_true, if_true]
      exact .some hra

/-- `UPDATE` changes the password of one. -/
theorem Refines.change (h : Refines bc s) {id : ℤ} {salt : ℕ} {password hash : String}
    (hhash : bc.generate salt password = some hash) :
    Refines bc (s.commit (s.table.updatePassword id hash) (.changed id password)) := by
  intro name
  dsimp only [commit]
  rw [AccountDirectory.replay_concat, UserTable.byUsername_updatePassword, AccountDirectory.apply]
  dsimp only
  have hrel := h name
  generalize s.table.byUsername name = row, AccountDirectory.replay s.log name = account at hrel ⊢
  cases hrel with
  | none => exact .none
  | @some r a hra =>
    by_cases hid : a.id = id
    · rw [Option.map_some, Option.map_some, UserRow.rehash, if_pos (hra.id.trans hid), if_pos hid]
      exact .some ⟨hra.id, hra.role, salt, hhash⟩
    · rw [Option.map_some, Option.map_some, UserRow.rehash,
        if_neg fun heq => hid (hra.id.symm.trans heq), if_neg hid]
      exact .some hra

/-- The statement of a call. -/
theorem Refines.exec (h : Refines bc s) (i : ℕ) (env : StatementEnv) (call : AccountCall) :
    Refines bc (s.exec bc i env call) := by
  have hset : ∀ call', Refines bc (s.set i call') := fun call' => h.of_eq rfl rfl
  cases call with
  | createUser username password role =>
    rw [AccountServer.exec]
    split
    · exact hset none
    · rename_i t ht
      exact (hset none).add ht
  | deleteUser phase =>
    cases phase with
    | idle => exact hset none
    | entered id =>
      rw [AccountServer.exec]
      split <;> exact hset _
    | counted id =>
      rw [AccountServer.exec]
      split <;> exact hset _
    | cleared id => exact (hset none).remove id
  | updatePassword id password =>
    rw [AccountServer.exec]
    split
    · exact hset none
    · rename_i hash hhash
      exact (hset none).change hhash
  | changeOwnPassword id current next =>
    rw [AccountServer.exec]
    split
    · exact hset none
    · split <;> exact hset _

/-- **Every event keeps the table a directory.** -/
theorem Refines.step (h : Refines bc s) (hs : s.step bc e = some s') : Refines bc s' := by
  cases e with
  | request i caller req =>
    rw [AccountServer.step] at hs
    split at hs
    · split at hs <;> cases hs
      · exact h
      · exact h.of_eq rfl rfl
    · cases hs
  | exec i env =>
    obtain ⟨call, -, rfl⟩ := Option.map_eq_some_iff.mp hs
    split
    · exact h.of_eq rfl rfl
    · exact h.exec i env call
  | restart env generated adminUser adminPassword =>
    have hstopped : Refines bc { s with calls := fun _ => none } := h.of_eq rfl rfl
    rw [AccountServer.step] at hs
    split at hs
    · cases hs
      exact hstopped
    · rename_i t ht
      split at hs
      · cases hs
        exact hstopped
      · rename_i hempty
        rw [UserTable.bootstrapAdmin, if_neg hempty] at ht
        cases hs
        exact hstopped.add ht

theorem refines_of_run {es : List AccountServerEvent}
    (hrun : run (AccountServer.step bc) fresh es = some s) : Refines bc s :=
  run_inv (fun _ _ _ h _ hs => Refines.step h hs) (refines_fresh bc)
    (Along.unguarded fresh es) hrun

/-- Bytes are all there is to a string. -/
theorem bytesOf_injective : Function.Injective bytesOf := by
  intro p q h
  have hdata : p.toByteArray.data = q.toByteArray.data := Array.toList_inj.mp h
  exact String.toByteArray_inj.mp (ByteArray.ext hdata)

/-- **`Login` accepts the password that was set last**: in every state that requests, their
statements and restarts can reach, it succeeds for a name exactly when the name has an account
and bcrypt reads the password given as it reads the account's. That is the same password, as long
as there is no NUL in them and the one given has up to 72 bytes. -/
theorem login_eq_ok_iff {T : Type} (jwt : JwtLibrary T) (secret : String)
    {es : List AccountServerEvent} (hrun : run (AccountServer.step bc) fresh es = some s)
    (username password : String) (now id : ℤ) :
    ((∃ token u, s.table.login jwt bc.compare secret username password now = .ok (token, u) ∧
        u.id = id) ↔
      ∃ a, AccountDirectory.replay s.log username = some a ∧ a.id = id ∧
        bcryptKey password = bcryptKey a.password) ∧
    ∀ a, AccountDirectory.replay s.log username = some a → 0 ∉ bytesOf a.password →
      0 ∉ bytesOf password → (bytesOf password).length ≤ 72 →
      (bcryptKey password = bcryptKey a.password ↔ password = a.password) := by
  have hrel := refines_of_run hrun username
  rw [UserTable.login]
  generalize s.table.byUsername username = row,
    AccountDirectory.replay s.log username = account at hrel ⊢
  cases hrel with
  | none => simp
  | @some r a hra =>
    obtain ⟨salt, hhash⟩ := hra.hash
    refine ⟨?_, fun a' ha' hnul hnul' hlen => ⟨fun hkey => ?_, fun heq => heq ▸ rfl⟩⟩
    · have hcompare := bc.compare_iff salt a.password r.passwordHash password hhash
      by_cases hkey : bcryptKey password = bcryptKey a.password
      · simp [hcompare.mpr hkey, hkey, hra.id]
      · have hfalse : bc.compare r.passwordHash password = false := by
          rw [← Bool.not_eq_true, hcompare]
          exact hkey
        simp [hfalse, hkey]
    · obtain rfl := Option.some.inj ha'
      have hlen' := (bc.generate_isSome salt a.password).mp (by rw [hhash]; rfl)
      exact bytesOf_injective (bcryptKey_injective hnul' hnul hlen hlen' hkey)

namespace NewPassword

/-- Hashes that are the passwords themselves. -/
def bcrypt : Bcrypt where
  generate _ password := if (bytesOf password).length ≤ 72 then some password else none
  compare hash password := bcryptKey password = bcryptKey hash
  generate_isSome _ password := by
    split <;> simp [*]
  compare_iff _ password hash other h := by
    obtain ⟨-, heq⟩ := Option.ite_none_right_eq_some.mp h
    obtain rfl := Option.some.inj heq
    exact decide_eq_true_iff

/-- The first start, then the new viewer `eve` changes her password; the process is restarted. -/
def events : List AccountServerEvent :=
  [.restart ⟨false, 0, 0⟩ "" "root" "root-pass",
    .request 0 1 (.createUser " eve" "first-pass" "viewer"), .exec 0 ⟨false, 1, 60⟩,
    .request 0 2 (.changeOwnPassword "first-pass" "other-pass"), .exec 0 ⟨false, 2, 120⟩,
    .exec 0 ⟨false, 2, 120⟩, .restart ⟨false, 0, 150⟩ "" "root" "root-pass"]

/-- What that leaves. -/
def last : AccountServer := (run (AccountServer.step bcrypt) .fresh events).getD .fresh

end NewPassword

/-- The new password of `eve` is accepted, as user 2. -/
theorem login_eq_ok_iff_newPassword :
    ∃ token u, NewPassword.last.table.login NameAgain.jwt NewPassword.bcrypt.compare "secret"
      "eve" "other-pass" 180 = .ok (token, u) ∧ u.id = 2 :=
  (login_eq_ok_iff NameAgain.jwt "secret"
    (rfl : run (AccountServer.step NewPassword.bcrypt) fresh NewPassword.events =
      some NewPassword.last)
    "eve" "other-pass" 180 2).1.mpr ⟨⟨2, "other-pass", "viewer"⟩, rfl, rfl, rfl⟩

/-! ## Who can change an account -/

/-- A call that leaves the list of accounts and the account of `r` alone: it is no admin's call,
and it does not know the password of `r`. -/
def Harmless (bc : Bcrypt) (r : UserRow) : AccountCall → Prop
  | .changeOwnPassword id current _ => id = r.id → bc.compare r.passwordHash current = false
  | .updatePassword id _ => id ≠ r.id
  | .createUser _ _ _ => False
  | .deleteUser _ => False

/-- The user of a request is no admin, and does not give the password of `r` for `r`. -/
def Outsider (bc : Bcrypt) (r : UserRow) (s : AccountServer) : AccountServerEvent → Prop
  | .request _ caller req => (∀ u, s.table.byID caller = some u → u.role ≠ "admin") ∧
    ∀ current next, req = .changeOwnPassword current next → caller = r.id →
      bc.compare r.passwordHash current = false
  | _ => True

/-- The list of accounts, without their hashes. -/
def listed (s : AccountServer) : List (ℤ × String × String) :=
  s.table.rows.map fun r => (r.id, r.username, r.role)

/-- Of a user who is no admin, only changes of the own password are handled. -/
theorem handle_eq_ok_of_viewer {u : UserRow} {req : AccountRequest} {call : AccountCall}
    (hu : u.role ≠ "admin") (h : req.handle u = .ok call) :
    ∃ current next, req = .changeOwnPassword current next ∧
      call = .changeOwnPassword u.id current next := by
  cases req with
  | changeOwnPassword current next =>
    rw [AccountRequest.handle] at h
    split at h <;> cases h
    exact ⟨current, next, rfl, rfl⟩
  | createUser username password role =>
    rw [AccountRequest.handle, if_pos hu] at h
    cases h
  | deleteUser id =>
    rw [AccountRequest.handle, if_pos hu] at h
    cases h
  | resetUserPassword id password =>
    rw [AccountRequest.handle, if_pos hu] at h
    cases h

/-- The account of `r` and the list of accounts are as in `s₀`, and no call will change that. -/
structure Untouched (bc : Bcrypt) (r : UserRow) (s₀ s : AccountServer) : Prop where
  row : s.table.byID r.id = some r
  accounts : s.listed = s₀.listed
  calls : ∀ i call, s.calls i = some call → Harmless bc r call

variable {r : UserRow} {s₀ : AccountServer}

theorem Untouched.set (h : Untouched bc r s₀ s) (i : ℕ) {call : Option AccountCall}
    (hcall : ∀ c, call = some c → Harmless bc r c) : Untouched bc r s₀ (s.set i call) := by
  refine ⟨h.row, h.accounts, fun j c hj => ?_⟩
  rcases update_eq_some hj with ⟨-, heq⟩ | ⟨-, hj⟩
  · exact hcall c heq
  · exact h.calls j c hj

/-- The statement of a harmless call. -/
theorem Untouched.exec (h : Untouched bc r s₀ s) (i : ℕ) (env : StatementEnv) {call : AccountCall}
    (hcall : Harmless bc r call) : Untouched bc r s₀ (s.exec bc i env call) := by
  have hreturns : Untouched bc r s₀ (s.set i none) := h.set i nofun
  cases call with
  | createUser username password role => exact hcall.elim
  | deleteUser phase => exact hcall.elim
  | updatePassword id password =>
    rw [AccountServer.exec]
    split
    · exact hreturns
    · rename_i hash _
      refine ⟨?_, ?_, hreturns.calls⟩
      · have hsame : r.rehash id hash = r := if_neg (Ne.symm hcall)
        exact (s.table.byID_updatePassword id r.id hash).trans
          (by rw [h.row, Option.map_some, hsame])
      · -- an update changes no id, name or role
        refine Eq.trans ?_ h.accounts
        rw [listed, listed]
        dsimp only [commit, UserTable.updatePassword]
        rw [List.map_map]
        refine List.map_congr_left fun u _ => ?_
        rw [Function.comp_apply, UserRow.rehash_id, UserRow.rehash_username, UserRow.rehash_role]
  | changeOwnPassword id current next =>
    rw [AccountServer.exec]
    split
    · exact hreturns
    · rename_i u hu
      split
      · rename_i hmatch
        refine h.set i fun c hc => ?_
        obtain rfl := Option.some.inj hc
        -- the password of `r` was not given, so the row is another one
        rintro rfl
        obtain rfl := Option.some.inj (hu.symm.trans h.row)
        rw [hcall rfl] at hmatch
        cases hmatch
      · exact hreturns

theorem Untouched.step (h : Untouched bc r s₀ s) (ho : Outsider bc r s e)
    (hs : s.step bc e = some s') : Untouched bc r s₀ s' := by
  cases e with
  | request i caller req =>
    rw [AccountServer.step] at hs
    split at hs
    · rename_i u _ hu
      split at hs
      · cases hs
        exact h
      · rename_i call hcall
        cases hs
        obtain ⟨current, next, hreq, rfl⟩ := handle_eq_ok_of_viewer (ho.1 u hu) hcall
        refine h.set i fun c hc => ?_
        obtain rfl := Option.some.inj hc
        have hid : u.id = caller := by simpa using List.find?_some hu
        exact fun heq => ho.2 current next hreq (hid.symm.trans heq)
    · cases hs
  | exec i env =>
    obtain ⟨call, hcall, rfl⟩ := Option.map_eq_some_iff.mp hs
    split
    · exact h.set i nofun
    · exact h.exec i env (h.calls i call hcall)
  | restart env generated adminUser adminPassword =>
    have hstopped : Untouched bc r s₀ { s with calls := fun _ => none } :=
      ⟨h.row, h.accounts, fun _ _ hc => absurd hc.symm (Option.some_ne_none _)⟩
    have hfull : s.table.rows.length > 0 := List.length_pos_of_mem (List.mem_of_find?_eq_some h.row)
    rw [AccountServer.step] at hs
    split at hs
    · cases hs
      exact hstopped
    · rw [if_pos hfull] at hs
      cases hs
      exact hstopped

/-- **An account is its owner's and the admins'**: as long as no admin makes a request, and
nobody gives the password of a user, that user's row stays as it is, hash and role included, and
no account is added, removed or given another role, however requests interleave and whenever the
process is restarted with whatever admin configured. -/
theorem account_unchanged {es : List AccountServerEvent} (hrow : s.table.byID r.id = some r)
    (hcalls : ∀ i call, s.calls i = some call → Harmless bc r call)
    (hes : Along (AccountServer.step bc) (Outsider bc r) s es)
    (hrun : run (AccountServer.step bc) s es = some s') :
    s'.table.byID r.id = some r ∧ s'.listed = s.listed := by
  have h := run_inv (fun _ _ _ h ho hs => Untouched.step h ho hs) ⟨hrow, rfl, hcalls⟩ hes hrun
  exact ⟨h.row, h.accounts⟩

namespace NewPassword

/-- `eve` tries another current password, and to become an admin; the process is restarted. -/
def attempts : List AccountServerEvent :=
  [.request 0 2 (.changeOwnPassword "first-pass" "third-pass"), .exec 0 ⟨false, 3, 180⟩,
    .request 1 2 (.createUser "mallory" "some-password" "admin"),
    .request 1 2 (.resetUserPassword 1 "some-password"),
    .restart ⟨false, 4, 240⟩ "" "eve" "some-password"]

/-- A request of the viewer with id 2 is an outsider's to the user with id 1. -/
theorem outsider {s : AccountServer} {row r : UserRow} {i : ℕ} {req : AccountRequest}
    (hrow : s.table.byID 2 = some row) (hrole : row.role = "viewer") (hr : r.id = 1) :
    Outsider bcrypt r s (.request i 2 req) := by
  refine ⟨fun u hu => ?_, fun _ _ _ h => absurd (h.trans hr) (by decide)⟩
  obtain rfl := Option.some.inj (hrow.symm.trans hu)
  rw [hrole]
  decide

end NewPassword

/-- The account of `root` through the attempts of `eve`. -/
theorem account_unchanged_newPassword :
    ((run (AccountServer.step NewPassword.bcrypt) NewPassword.last NewPassword.attempts).getD
      .fresh).table.byID 1 = some ⟨1, "root", "root-pass", "admin", 0⟩ :=
  (@account_unchanged NewPassword.bcrypt NewPassword.last _ ⟨1, "root", "root-pass", "admin", 0⟩
    NewPassword.attempts rfl (fun _ _ h => absurd h.symm (Option.some_ne_none _))
    (.cons (NewPassword.outsider rfl rfl rfl) rfl <| .cons trivial rfl <|
      .cons (NewPassword.outsider rfl rfl rfl) rfl <|
      .cons (NewPassword.outsider rfl rfl rfl) rfl <| .cons trivial rfl <| .nil _) rfl).1

end AccountServer

end Ultrav

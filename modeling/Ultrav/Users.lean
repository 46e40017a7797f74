import Ultrav.Machine
import Mathlib.Data.Int.Order.Basic
import Mathlib.Data.List.Find
import Mathlib.Data.List.Nodup

/-!
# The user table

Users live in one SQLite table. Every statement on it runs alone, a call of several
statements does not.

* `UserTable` — the rows, with what the schema enforces.
* `UserTable.insert` / `UserTable.delete` / `UserTable.countAdmin` / `UserTable.countAdmins` —
  the statements.
* `UserTable.deleteGuard` — the verdict of the two counts of `DeleteUser`.
* `countAdmins_delete` — what a deletion takes away.
-/

namespace Ultrav

/-- A row of the table. -/
structure UserRow where
  id : ℤ
  username : String
  passwordHash : String
  role : String
  /-- in Unix seconds -/
  createdAt : ℤ
  deriving DecidableEq, Repr

/-- Errors of the auth service. -/
inductive UserError where
  /-- `ErrUserExists` -/
  | userExists
  /-- `ErrLastAdmin` -/
  | lastAdmin
  /-- `sql.ErrNoRows` -/
  | noRows
  /-- `ErrInvalidCredentials` -/
  | invalidCredentials
  /-- `ErrInvalidToken` -/
  | invalidToken
  /-- the password cannot be hashed -/
  | hash
  deriving DecidableEq, Repr

/-- The table `users`, with its primary key, its unique column and its sequence. -/
structure UserTable where
  rows : List UserRow
  /-- the last id given out -/
  seq : ℤ
  /-- `AUTOINCREMENT` -/
  id_le_seq : ∀ r ∈ rows, r.id ≤ seq
  /-- `PRIMARY KEY` -/
  ids_nodup : (rows.map UserRow.id).Nodup
  /-- `UNIQUE` -/
  usernames_nodup : (rows.map UserRow.username).Nodup

namespace UserTable

/-- `SELECT COUNT(*) FROM users WHERE role = 'admin'` -/
def countAdmins (t : UserTable) : ℕ := t.rows.countP fun r => r.role = "admin"

/-- `SELECT COUNT(*) FROM users WHERE role = 'admin' AND id = ?` -/
def countAdmin (t : UserTable) (id : ℤ) : ℕ :=
  t.rows.countP fun r => r.role = "admin" && r.id = id

/-- `byUsername` -/
def byUsername (t : UserTable) (username : String) : Option UserRow :=
  t.rows.find? fun r => r.username = username

/-- `byID` -/
def byID (t : UserTable) (id : ℤ) : Option UserRow := t.rows.find? fun r => r.id = id

section Insert

variable {t : UserTable} {r : UserRow}

theorem id_le_concat (hid : r.id = t.seq + 1) : ∀ u ∈ t.rows ++ [r], u.id ≤ t.seq + 1 := by
  intro u hu
  rcases List.mem_append.mp hu with hu | hu
  · have := t.id_le_seq u hu
    omega
  · rw [List.mem_singleton.mp hu, hid]

theorem ids_nodup_concat (hid : r.id = t.seq + 1) : ((t.rows ++ [r]).map UserRow.id).Nodup := by
  rw [List.map_append, List.map_singleton]
  refine t.ids_nodup.append (List.nodup_singleton _) ?_
  rw [List.disjoint_singleton, hid]
  intro hmem
  obtain ⟨u, hu, heq⟩ := List.mem_map.mp hmem
  have := t.id_le_seq u hu
  omega

theorem usernames_nodup_concat (hfree : t.byUsername r.username = none) :
    ((t.rows ++ [r]).map UserRow.username).Nodup := by
  rw [List.map_append, List.map_singleton]
  refine t.usernames_nodup.append (List.nodup_singleton _) ?_
  rw [List.disjoint_singleton]
  intro hmem
  obtain ⟨u, hu, heq⟩ := List.mem_map.mp hmem
  have hne := List.find?_eq_none.mp hfree u hu
  simp [heq] at hne

end Insert

/-- `INSERT INTO users`; a username that is taken is refused. -/
def insert (t : UserTable) (username hash role : String) (createdAt : ℤ) :
    Except UserError UserTable :=
  if hfree : t.byUsername username = none then
    .ok
      { rows := t.rows ++ [⟨t.seq + 1, username, hash, role, createdAt⟩]
        seq := t.seq + 1
        id_le_seq := id_le_concat rfl
        ids_nodup := ids_nodup_concat rfl
        usernames_nodup := usernames_nodup_concat hfree }
  else .error .userExists

/-- `DELETE FROM users WHERE id = ?` -/
def delete (t : UserTable) (id : ℤ) : UserTable where
  rows := t.rows.filter fun r => r.id ≠ id
  seq := t.seq
  id_le_seq r hr := t.id_le_seq r (List.mem_of_mem_filter hr)
  ids_nodup := t.ids_nodup.sublist (List.filter_sublist.map _)
  usernames_nodup := t.usernames_nodup.sublist (List.filter_sublist.map _)

/-- The rows a deletion affects. -/
def affected (t : UserTable) (id : ℤ) : ℕ := t.rows.countP fun r => r.id = id

/-- An empty table. -/
def empty : UserTable :=
  ⟨[], 0, fun _ h => absurd h List.not_mem_nil, List.nodup_nil, List.nodup_nil⟩

/-- The two counts of `DeleteUser` let the deletion pass. -/
def deleteGuard (t : UserTable) (id : ℤ) : Bool :=
  -- two queries in the code; here nothing comes between them
  if t.countAdmin id = 1 then 1 < t.countAdmins else true

/-- `DeleteUser`, when nothing comes between its statements. -/
def deleteUser (t : UserTable) (callerID id : ℤ) : Except UserError UserTable :=
  if callerID = id then .error .lastAdmin
  else if !t.deleteGuard id then .error .lastAdmin
  else if t.affected id = 0 then .error .noRows
  else .ok (t.delete id)

/-- `CreateUser`, with the hash that bcrypt makes of the password. -/
def createUser (t : UserTable) (username : String) (hash : Option String) (role : String)
    (createdAt : ℤ) : Except UserError UserTable :=
  match hash with
  | none => .error .hash
  | some hash => t.insert username hash role createdAt

variable {t t' : UserTable}

/-- Inversion for `insert`. -/
theorem insert_eq_ok {username hash role : String} {createdAt : ℤ}
    (h : t.insert username hash role createdAt = .ok t') :
    t.byUsername username = none ∧ t'.seq = t.seq + 1 ∧
      t'.rows = t.rows ++ [⟨t.seq + 1, username, hash, role, createdAt⟩] := by
  rw [insert] at h
  split at h
  · cases h
    exact ⟨‹_›, rfl, rfl⟩
  · cases h

/-- Inversion for `createUser`. -/
theorem createUser_eq_ok {username role : String} {hash : Option String} {createdAt : ℤ}
    (h : t.createUser username hash role createdAt = .ok t') :
    ∃ hash', t.byUsername username = none ∧ t'.seq = t.seq + 1 ∧
      t'.rows = t.rows ++ [⟨t.seq + 1, username, hash', role, createdAt⟩] := by
  rcases hash with _ | hash'
  · cases h
  · exact ⟨hash', insert_eq_ok h⟩

/-- Inversion for `deleteUser`. -/
theorem deleteUser_eq_ok {callerID id : ℤ} (h : t.deleteUser callerID id = .ok t') :
    (∃ r, t.byID id = some r) ∧ t' = t.delete id := by
  rw [deleteUser] at h
  split at h
  · cases h
  · split at h
    · cases h
    · split at h <;> cases h
      refine ⟨Option.ne_none_iff_exists'.mp fun hnone => ?_, rfl⟩
      have hzero : t.affected id = 0 := List.countP_eq_zero.mpr (List.find?_eq_none.mp hnone)
      exact ‹¬ t.affected id = 0› hzero

/-- A row is found under its own name. -/
theorem byUsername_username {username : String} {u : UserRow}
    (h : t.byUsername username = some u) : u.username = username := by
  simpa using List.find?_some h

/-- A new row has its name, and changes nothing for the others. -/
theorem byUsername_concat {r : UserRow} (hrows : t'.rows = t.rows ++ [r])
    (hfree : t.byUsername r.username = none) (username : String) :
    t'.byUsername username = if username = r.username then some r else t.byUsername username := by
  rw [byUsername, hrows, List.find?_append]
  split
  · rename_i heq
    rw [byUsername] at hfree
    rw [heq, hfree]
    simp
  · rename_i hne
    have hne' : ¬ r.username = username := fun h => hne h.symm
    simp [hne', byUsername]

/-- A deletion frees the name of its row, and changes nothing for the others. -/
theorem byUsername_delete {id : ℤ} {r : UserRow} (hr : t.byID id = some r) (username : String) :
    (t.delete id).byUsername username =
      if username = r.username then none else t.byUsername username := by
  have hid : r.id = id := by simpa using List.find?_some hr
  have hmem : r ∈ t.rows := List.mem_of_find?_eq_some hr
  split
  · rename_i heq
    refine List.find?_eq_none.mpr fun u hu hname => ?_
    obtain ⟨hu, hne⟩ := List.mem_filter.mp hu
    have hur : u = r := List.inj_on_of_nodup_map t.usernames_nodup hu hmem
      ((of_decide_eq_true hname).trans heq)
    simp [hur, hid] at hne
  · rename_i hne
    rw [byUsername, delete, List.find?_filter, byUsername]
    refine List.find?_congr fun u hu => ?_
    by_cases hname : u.username = username
    · have hid' : u.id ≠ id := by
        intro h
        have hur : u = r := List.inj_on_of_nodup_map t.ids_nodup hu hmem (h.trans hid.symm)
        exact hne (by rw [← hname, hur])
      simp [hname, hid']
    · simp [hname]

/-- An id belongs to one row. -/
theorem countAdmin_le_one (t : UserTable) (id : ℤ) : t.countAdmin id ≤ 1 := by
  calc t.countAdmin id ≤ t.rows.countP fun r => r.id = id := by
        refine List.countP_mono_left fun r _ h => ?_
        simp only [Bool.and_eq_true] at h
        exact h.2
    _ = (t.rows.map UserRow.id).count id := by
        rw [List.count, List.countP_map]
        rfl
    _ ≤ 1 := List.nodup_iff_count_le_one.mp t.ids_nodup id

/-- A deletion takes away the admin with that id, if there is one. -/
theorem countAdmins_delete (t : UserTable) (id : ℤ) :
    (t.delete id).countAdmins + t.countAdmin id = t.countAdmins := by
  have hsplit := List.countP_eq_countP_filter_add t.rows (fun r => decide (r.role = "admin"))
    fun r => decide (r.id ≠ id)
  have hself : (t.rows.filter fun r => !decide (r.id ≠ id)).countP
      (fun r => decide (r.role = "admin")) = t.countAdmin id := by
    rw [countAdmin, List.countP_filter]
    simp
  rw [hself] at hsplit
  exact hsplit.symm

/-- **What the guard is for**: a deletion that it lets pass leaves an admin, and no other one
does. -/
theorem countAdmins_delete_pos_iff (h : 0 < t.countAdmins) (id : ℤ) :
    0 < (t.delete id).countAdmins ↔ t.deleteGuard id = true := by
  have hsum := t.countAdmins_delete id
  have hone := t.countAdmin_le_one id
  rw [deleteGuard]
  split
  · rw [decide_eq_true_eq]
    omega
  · refine iff_of_true ?_ rfl
    omega

/-- A row more is no admin less. -/
theorem countAdmins_createUser {username role : String} {hash : Option String} {createdAt : ℤ}
    (h : t.createUser username hash role createdAt = .ok t') : t.countAdmins ≤ t'.countAdmins := by
  obtain ⟨hash', -, -, hrows⟩ := createUser_eq_ok h
  rw [countAdmins, countAdmins, hrows, List.countP_append]
  exact Nat.le_add_right _ _

end UserTable

end Ultrav

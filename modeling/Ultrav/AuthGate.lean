import Ultrav.ApiErrors
import Ultrav.BackupStore
import Ultrav.ScheduleService
import Ultrav.ServeMux
import Ultrav.Tokens
import Ultrav.Utf8

/-!
# Authentication of requests

Every request goes through `withAuth` before it is routed, and some paths are let by without a
token. They are recognised by the decoded path, and routes by the segments of the encoded one.

* `routes` — what `routes` registers.
* `Server.serve` — which handler runs for a request, or the reply without one.
* `routes_closed` — no pattern of another handler covers a path that is let by.
* `auth_gate` — other handlers only run for a token that `Verify` accepts.
-/

namespace Ultrav

open Url Mux

/-! ## Routes -/

/-- The handlers: `login` is `handleLogin`, and so on. -/
inductive Handler where
  | login
  | getCurrentUser
  | changeOwnPassword
  | listUsers
  | createUser
  | deleteUser
  | resetUserPassword
  | health
  | readiness
  | getHost
  | getCapabilities
  | listVMs
  | createVM
  | getVM
  | updateVM
  | deleteVM
  | startVM
  | shutdownVM
  | rebootVM
  | forceStopVM
  | vmConsole
  | listVMBackups
  | createVMBackup
  | deleteBackup
  | restoreBackup
  | exportVMConfig
  | listBackupSchedules
  | createBackupSchedule
  | updateBackupSchedule
  | deleteBackupSchedule
  | listStoragePools
  | createStoragePool
  | getStoragePool
  | deleteStoragePool
  | refreshStoragePool
  | listIsos
  | uploadIso
  | deleteIso
  | listNetworks
  | createNetwork
  | getNetwork
  | startNetwork
  | stopNetwork
  | updateNetwork
  | deleteNetwork
  | listHostBridges
  | listTasks
  | getTask
  | cancelTask
  | openAPI
  | docs
  | notFound
  deriving DecidableEq, Repr

/-- The handlers that need no token. -/
def Handler.isOpen : Handler → Bool
  | .health | .readiness | .login | .openAPI | .docs | .notFound => true
  | _ => false

/-- The handlers of the user management. -/
def Handler.managesUsers : Handler → Bool
  | .listUsers | .createUser | .deleteUser | .resetUserPassword => true
  | _ => false

/-- What stands around a handler. -/
inductive Guard where
  | none
  /-- `requireAdmin` -/
  | admin
  /-- `requireValidVMID` -/
  | vmID
  /-- `requireValidBackupID` -/
  | backupID
  /-- `requireValidScheduleID` -/
  | scheduleID
  /-- `requireValidTaskID` -/
  | taskID
  deriving DecidableEq, Repr

/-- A pattern, the guard and its handler. -/
def handleFunc (pattern : String) (guard : Guard) (handler : Handler) : Entry (Guard × Handler) :=
  ⟨.parse pattern, (guard, handler)⟩

/-- `routes` -/
def routes : List (Entry (Guard × Handler)) :=
  [ -- Auth (login is public; /auth/me is protected)
    handleFunc "POST /api/v1/auth/login" .none .login,
    handleFunc "GET /api/v1/auth/me" .none .getCurrentUser,
    handleFunc "PUT /api/v1/auth/password" .none .changeOwnPassword,
    -- User management (admin only)
    handleFunc "GET /api/v1/users" .admin .listUsers,
    handleFunc "POST /api/v1/users" .admin .createUser,
    handleFunc "DELETE /api/v1/users/{id}" .admin .deleteUser,
    handleFunc "PUT /api/v1/users/{id}/password" .admin .resetUserPassword,
    -- Health
    handleFunc "GET /api/v1/health" .none .health,
    handleFunc "GET /api/v1/ready" .none .readiness,
    -- Host
    handleFunc "GET /api/v1/host" .none .getHost,
    handleFunc "GET /api/v1/capabilities" .none .getCapabilities,
    -- Virtual machines
    handleFunc "GET /api/v1/vms" .none .listVMs,
    handleFunc "POST /api/v1/vms" .none .createVM,
    handleFunc "GET /api/v1/vms/{id}" .vmID .getVM,
    handleFunc "PATCH /api/v1/vms/{id}" .vmID .updateVM,
    handleFunc "DELETE /api/v1/vms/{id}" .vmID .deleteVM,
    handleFunc "POST /api/v1/vms/{id}/start" .vmID .startVM,
    handleFunc "POST /api/v1/vms/{id}/shutdown" .vmID .shutdownVM,
    handleFunc "POST /api/v1/vms/{id}/reboot" .vmID .rebootVM,
    handleFunc "POST /api/v1/vms/{id}/stop" .vmID .forceStopVM,
    handleFunc "GET /api/v1/vms/{id}/console" .vmID .vmConsole,
    -- Backup
    handleFunc "GET /api/v1/vms/{id}/backups" .vmID .listVMBackups,
    handleFunc "POST /api/v1/vms/{id}/backups" .vmID .createVMBackup,
    handleFunc "DELETE /api/v1/backups/{id}" .backupID .deleteBackup,
    handleFunc "POST /api/v1/backups/{id}/restore" .backupID .restoreBackup,
    handleFunc "GET /api/v1/vms/{id}/config-export" .vmID .exportVMConfig,
    -- Backup schedules
    handleFunc "GET /api/v1/backup-schedules" .none .listBackupSchedules,
    handleFunc "POST /api/v1/backup-schedules" .none .createBackupSchedule,
    handleFunc "PUT /api/v1/backup-schedules/{id}" .scheduleID .updateBackupSchedule,
    handleFunc "DELETE /api/v1/backup-schedules/{id}" .scheduleID .deleteBackupSchedule,
    -- Storage pools
    handleFunc "GET /api/v1/storage/pools" .none .listStoragePools,
    handleFunc "POST /api/v1/storage/pools" .none .createStoragePool,
    handleFunc "GET /api/v1/storage/pools/{id}" .vmID .getStoragePool,
    handleFunc "DELETE /api/v1/storage/pools/{id}" .vmID .deleteStoragePool,
    handleFunc "POST /api/v1/storage/pools/{id}/refresh" .vmID .refreshStoragePool,
    -- ISO library
    handleFunc "GET /api/v1/storage/isos" .none .listIsos,
    handleFunc "POST /api/v1/storage/isos" .none .uploadIso,
    handleFunc "DELETE /api/v1/storage/isos/{id}" .vmID .deleteIso,
    -- Networks
    handleFunc "GET /api/v1/networks" .none .listNetworks,
    handleFunc "POST /api/v1/networks" .none .createNetwork,
    handleFunc "GET /api/v1/networks/{id}" .vmID .getNetwork,
    handleFunc "POST /api/v1/networks/{id}/start" .vmID .startNetwork,
    handleFunc "POST /api/v1/networks/{id}/stop" .vmID .stopNetwork,
    handleFunc "PUT /api/v1/networks/{id}" .vmID .updateNetwork,
    handleFunc "DELETE /api/v1/networks/{id}" .vmID .deleteNetwork,
    handleFunc "GET /api/v1/host/bridges" .none .listHostBridges,
    -- Tasks (async job system)
    handleFunc "GET /api/v1/tasks" .none .listTasks,
    handleFunc "GET /api/v1/tasks/{id}" .taskID .getTask,
    handleFunc "POST /api/v1/tasks/{id}/cancel" .taskID .cancelTask,
    -- Contract & docs
    handleFunc "GET /openapi.json" .none .openAPI,
    handleFunc "GET /docs" .none .docs,
    handleFunc "GET /" .none .notFound ]

/-- `publicPaths` -/
def publicPaths : List String :=
  ["/api/v1/health", "/api/v1/ready", "/api/v1/auth/login", "/openapi.json", "/docs"]

/-! ## Requests -/

/-- A request, as far as its way to a handler goes. -/
structure Request where
  method : Bytes
  /-- the path of the request line -/
  target : Bytes
  rawQuery : Bytes
  /-- by canonical name -/
  headers : List (String × Bytes)

/-- `strings.Cut` -/
def cut (sep : UInt8) (s : Bytes) : Bytes × Bytes :=
  (s.takeWhile (· ≠ sep), (s.dropWhile (· ≠ sep)).drop 1)

/-- `url.ParseQuery`: parameters that cannot be read are left out. -/
def parseQuery (query : Bytes) : List (Bytes × Bytes) :=
  (splitOn 0x26 query).filterMap fun param =>
    if param = [] ∨ 0x3B ∈ param then none
    else
      let (key, value) := cut 0x3D param
      (unescape true key).bind fun key => (unescape true value).map fun value => (key, value)

namespace Request

variable (r : Request)

/-- `Header.Get` -/
def header (name : String) : Bytes :=
  ((r.headers.find? fun h => h.1 = name).map (·.2)).getD []

/-- `Query().Get` -/
def query (name : Bytes) : Bytes :=
  (((parseQuery r.rawQuery).find? fun q => q.1 = name).map (·.2)).getD []

/-- The token of the `Authorization` header. -/
def headerToken : Bytes :=
  let value := r.header "Authorization"
  if (bytesOf "Bearer ").isPrefixOf value then value.drop (bytesOf "Bearer ").length else value

/-- The token that `withAuth` verifies. -/
def token : Bytes :=
  if r.headerToken = [] then r.query (bytesOf "token") else r.headerToken

end Request

/-! ## The server -/

/-- What happens to a request. -/
inductive Outcome where
  /-- a handler runs, with the user of the request's context -/
  | run (handler : Handler) (user : Option UserRow)
  | error (reply : ErrorReply)
  /-- a redirect, or a refusal by `net/http` itself -/
  | answered
  deriving DecidableEq, Repr

/-- The names that a guard accepts. -/
def Guard.accepts : Guard → String → Bool
  | .vmID, id => namePattern id
  | .backupID, id => idPattern id
  | .scheduleID, id =>
    match id.toList with
    | 's' :: 'c' :: 'h' :: '-' :: cs => 1 ≤ cs.length && cs.length ≤ 60 && cs.all idChar
    | _ => false
  | .taskID, id =>
    match id.toList with
    | 't' :: 'a' :: 's' :: 'k' :: '-' :: cs => 1 ≤ cs.length && cs.length ≤ 64 && cs.all idChar
    | _ => false
  | .none, _ | .admin, _ => true

/-- What a guard says of other names. -/
def Guard.message : Guard → String
  | .vmID => "Invalid virtual machine identifier"
  | .backupID => "Invalid backup identifier"
  | .scheduleID => "Invalid backup schedule identifier"
  | .taskID => "Invalid task identifier"
  | .none | .admin => ""

/-- A guard and the handler inside; `{id}` is the only wildcard. -/
def runGuarded (guard : Guard) (handler : Handler) (id : Bytes) (user : Option UserRow) : Outcome :=
  match guard with
  | .none => .run handler user
  | .admin =>
    match user with
    | none => .error (writeError .unauthorized "Authentication required")
    | some u =>
      if u.role ≠ "admin" then .error (writeError .forbidden "Admin role required")
      else .run handler user
  | guard =>
    if guard.accepts (String.ofList (Utf8.decode id)) then .run handler user
    else .error (writeError .validationError guard.message)

/-- `ServeHTTP` of the router. -/
def route (r : Request) (u : URL) (user : Option UserRow) : Outcome :=
  if r.target = bytesOf "*" then .answered
  else
    match findHandler routes r.method u with
    | .handler e ids => runGuarded e.handler.1 e.handler.2 (ids.head?.getD []) user
    | _ => .answered

/-- The auth service; `read` gives the token that a text is. -/
structure AuthService (T : Type) where
  jwt : JwtLibrary T
  read : Bytes → T
  secret : String
  table : UserTable

/-- `Verify` -/
def AuthService.verify {T : Type} (authn : AuthService T) (token : Bytes) (now : ℤ) :
    Except UserError UserRow :=
  authn.table.verify authn.jwt authn.secret (authn.read token) now

/-- `Server` -/
structure Server (T : Type) where
  /-- none: authentication is off -/
  authn : Option (AuthService T)

namespace Server

variable {T : Type}

/-- `withAuth` -/
def withAuth (s : Server T) (now : ℤ) (r : Request) (u : URL) : Outcome :=
  match s.authn with
  | none => route r u none
  | some authn =>
    if ∃ p ∈ publicPaths, u.path = bytesOf p then route r u none
    else
      match authn.verify r.token now with
      | .error _ => .error (writeError .unauthorized "Authentication required")
      | .ok user => route r u (some user)

/-- A request from its arrival; `net/http` refuses a path that cannot be read. -/
def serve (s : Server T) (now : ℤ) (r : Request) : Outcome :=
  match setPath r.target with
  | none => .answered
  | some u => s.withAuth now r u

end Server

/-! ## The gate -/

/-- Every pattern has a method and does not ask for a slash at the end of the path, and **no
pattern of a handler that is not open** covers a path that is let by. -/
theorem routes_closed : ∀ e ∈ routes,
    (e.pattern.method ≠ bytesOf "CONNECT" ∧ e.pattern.method ≠ [] ∧ .lit [slash] ∉ e.pattern.segs) ∧
      (e.handler.2.isOpen = false →
        ∀ p ∈ publicPaths, covers e.pattern.segs (bytesOf p) = false) := by
  decide +kernel

/-- The user management is for admins. -/
theorem routes_admin : ∀ e ∈ routes, e.handler.2.managesUsers = true → e.handler.1 = .admin := by
  decide

theorem runGuarded_eq_run {guard : Guard} {handler h : Handler} {id : Bytes}
    {user user' : Option UserRow} (hrun : runGuarded guard handler id user = .run h user') :
    h = handler ∧ user' = user ∧ (guard = .admin → ∃ u, user = some u ∧ u.role = "admin") := by
  have hname (g : Guard) (hg : g ≠ .admin)
      (h' : (if g.accepts (String.ofList (Utf8.decode id)) then Outcome.run handler user
        else .error (writeError .validationError g.message)) = .run h user') :
      h = handler ∧ user' = user ∧ (g = .admin → ∃ u, user = some u ∧ u.role = "admin") := by
    split at h' <;> cases h'
    exact ⟨rfl, rfl, fun hadmin => absurd hadmin hg⟩
  cases guard with
  | none =>
    cases hrun
    exact ⟨rfl, rfl, fun hadmin => by cases hadmin⟩
  | admin =>
    cases user with
    | none => cases hrun
    | some u =>
      have h' : (if u.role ≠ "admin" then
          Outcome.error (writeError .forbidden "Admin role required")
        else .run handler (some u)) = .run h user' := hrun
      split at h' <;> cases h'
      rename_i hrole
      exact ⟨rfl, rfl, fun _ => ⟨u, rfl, not_not.mp hrole⟩⟩
  | vmID => exact hname .vmID (by decide) hrun
  | backupID => exact hname .backupID (by decide) hrun
  | scheduleID => exact hname .scheduleID (by decide) hrun
  | taskID => exact hname .taskID (by decide) hrun

/-- Inversion for the router. -/
theorem route_eq_run {r : Request} {u : URL} {user user' : Option UserRow} {h : Handler}
    (hrun : route r u user = .run h user') :
    user' = user ∧ (h.isOpen = false → ∀ p ∈ publicPaths, u.path ≠ bytesOf p) ∧
      (h.managesUsers = true → ∃ v, user = some v ∧ v.role = "admin") := by
  rw [route] at hrun
  split at hrun
  · cases hrun
  split at hrun
  · rename_i e ids hfound
    obtain ⟨hmem, hfits, hslash⟩ := findHandler_fits hfound
    obtain ⟨⟨hconnect, hany, hlit⟩, hclosed⟩ := routes_closed e hmem
    obtain ⟨rfl, rfl, hadmin⟩ := runGuarded_eq_run hrun
    have hcovers := hfits.covers hlit ((hslash.resolve_left hconnect).resolve_left hany)
    refine ⟨rfl, fun hopen p hp hpath => ?_, fun hmanages => hadmin (routes_admin e hmem hmanages)⟩
    rw [hpath, hclosed hopen p hp] at hcovers
    cases hcovers
  · cases hrun

/-- **The gate**: with an auth service, a handler that is not open runs only for a token of the
header or of the query that `Verify` accepts, and one of the user management only for an admin. -/
theorem auth_gate {T : Type} {s : Server T} {authn : AuthService T} {now : ℤ} {r : Request}
    {h : Handler} {user : Option UserRow} (hauth : s.authn = some authn)
    (hrun : s.serve now r = .run h user) (hopen : h.isOpen = false) :
    ∃ token u, (token = r.headerToken ∨ token = r.query (bytesOf "token")) ∧
      authn.verify token now = .ok u ∧ user = some u ∧
      (h.managesUsers = true → u.role = "admin") := by
  rw [Server.serve] at hrun
  split at hrun
  · cases hrun
  rename_i u hu
  rw [Server.withAuth, hauth] at hrun
  dsimp only at hrun
  split at hrun
  · -- the path is let by, so no pattern of the handler fits it
    rename_i hpublic
    obtain ⟨p, hp, hpath⟩ := hpublic
    exact absurd hpath ((route_eq_run hrun).2.1 hopen p hp)
  · split at hrun
    · cases hrun
    · rename_i v hverify
      obtain ⟨rfl, -, hadmin⟩ := route_eq_run hrun
      refine ⟨r.token, v, ?_, hverify, rfl, fun hmanages => ?_⟩
      · rw [Request.token]
        split
        · exact .inr rfl
        · exact .inl rfl
      · obtain ⟨w, hw, hrole⟩ := hadmin hmanages
        cases hw
        exact hrole

/-! ### An admin -/

namespace AdminRequest

/-- The admin `root`. -/
def root : UserRow := ⟨1, "root", "root-pass", "admin", 0⟩

/-- Every token is one of `root`. -/
def authn : AuthService (String × TokenClaims) where
  jwt := NameAgain.jwt
  read _ := ("secret", ⟨"root", 1, "admin", 0, 86400⟩)
  secret := "secret"
  table := ⟨[root], 1, by decide, by decide, by decide⟩

/-- `DELETE /api/v1/users/2`, with the number escaped. -/
def request : Request where
  method := bytesOf "DELETE"
  target := bytesOf "/api/v1/users/%32"
  rawQuery := []
  headers := [("Authorization", bytesOf "Bearer t")]

theorem serve_request :
    (Server.mk (some authn)).serve 60 request = .run .deleteUser (some root) := by
  decide +kernel

end AdminRequest

theorem auth_gate_admin :
    ∃ token u, (token = AdminRequest.request.headerToken ∨
        token = AdminRequest.request.query (bytesOf "token")) ∧
      AdminRequest.authn.verify token 60 = .ok u ∧ some AdminRequest.root = some u ∧
      (Handler.deleteUser.managesUsers = true → u.role = "admin") :=
  auth_gate rfl AdminRequest.serve_request rfl

end Ultrav

import Ultrav.DaemonRuns
import Ultrav.NetworkValidation

/-!
# Networks over time

Requests for networks run side by side, each a few calls to libvirt, which keeps a definition of a
network and, while that is active, what it was started with.

* `Networks.createNetwork` … `Networks.deleteNetwork` — the calls of the provider, as programs.
* `Networks.Request` / `Networks.Request.prog` — the requests, with the checks of the API.
* `Networks.Request.keeps` — a request changes a definition only once it has seen the network
  inactive.
* `Networks.active_defined`, `active_stays`, `written` — what follows for every run.
-/

namespace Ultrav

open Xml Octets

namespace Networks

/-! ## The calls -/

/-- How a request ends without a network. -/
inductive Failure where
  /-- the check of the API -/
  | validation (text : String)
  | alreadyExists
  | notFound
  /-- `ErrInvalidNetworkState` -/
  | state (text : String)
  /-- an error of `networkCreateXML` -/
  | create (e : NetworkError)
  /-- an error of libvirt -/
  | libvirt (call : String)

/-- A request at work. -/
abbrev Prog := Daemon.Prog String NetworkXML Unit Empty (Except Failure (Option Network))

/-- A network that is active can do without a definition. -/
def kind : Daemon.Kind Unit := ⟨true, ()⟩

/-- What libvirt makes of a document; it names a bridge that has no name. -/
def read (autoBridge doc : String) : Option (String × NetworkXML) :=
  (parse doc).bind fun root => (decodeNetwork root).map fun nx =>
    (networkName root,
      { nx with bridgeName := if nx.bridgeName = "" then autoBridge else nx.bridgeName })

/-- The values of a network that has no readable document. -/
def noXML : NetworkXML := ⟨"", "", "", 0, false, ""⟩

/-- `GetNetwork` -/
def getNetwork (id : String) : Prog :=
  .call (.lookup id) fun
    | none => .ret (.error .notFound)
    | some h => .call (.status h) fun
      | none => .ret (.error (.libvirt "is active"))
      | some live => .call (.getAutostart h) fun autostart => .call (.describe h) fun nx =>
        .ret (.ok (some (networkToModel id live.isSome (autostart.getD false) (nx.getD noXML))))

/-- `CreateNetwork` -/
def createNetwork (autoBridge : String) (req : NetworkCreate) (autostart : Option Bool) : Prog :=
  match networkCreateXML req with
  | .error e => .ret (.error (.create e))
  | .ok doc => .call (.lookup req.name) fun
    | some _ => .ret (.error .alreadyExists)
    | none => match read autoBridge doc with
      | none => .ret (.error (.libvirt "define"))
      | some (name, nx) => .call (.define name nx) fun
        | none => .ret (.error (.libvirt "define"))
        | some h => .call (.create h) fun
          | false => .call (.undefine h) fun _ => .ret (.error (.libvirt "create"))
          | true => .call (.setAutostart h (autostart.getD true)) fun _ => getNetwork req.name

/-- `StartNetwork` -/
def startNetwork (id : String) : Prog :=
  .call (.lookup id) fun
    | none => .ret (.error .notFound)
    | some h => .call (.status h) fun
      | none => .ret (.error (.libvirt "is active"))
      | some (some _) => .ret (.error (.state "network is already active"))
      | some none => .call (.create h) fun
        | false => .ret (.error (.libvirt "create"))
        | true => getNetwork id

/-- `StopNetwork` -/
def stopNetwork (id : String) : Prog :=
  .call (.lookup id) fun
    | none => .ret (.error .notFound)
    | some h => .call (.status h) fun
      | none => .ret (.error (.libvirt "is active"))
      | some none => .ret (.error (.state "network is already inactive"))
      | some (some _) => .call (.destroy h) fun
        | false => .ret (.error (.libvirt "destroy"))
        | true => getNetwork id

/-- The rest of `UpdateNetwork`, with the document of the new definition. -/
def redefine (autoBridge id doc : String) (autostart : Option Bool) : Prog :=
  match read autoBridge doc with
  | none => .ret (.error (.libvirt "define"))
  | some (name, nx) => .call (.define name nx) fun
    | none => .ret (.error (.libvirt "define"))
    | some _ => match autostart with
      | none => getNetwork id
      | some b => .call (.lookup id) fun
        | none => getNetwork id
        | some h => .call (.setAutostart h b) fun _ => getNetwork id

/-- `UpdateNetwork` -/
def updateNetwork (autoBridge id : String) (req : NetworkUpdate) : Prog :=
  .call (.lookup id) fun
    | none => .ret (.error .notFound)
    | some h => .call (.status h) fun
      | none => .ret (.error (.libvirt "is active"))
      | some live =>
        if !req.structural then
          match req.autostart with
          | none => getNetwork id
          | some b => .call (.setAutostart h b) fun
            | false => .ret (.error (.libvirt "set autostart"))
            | true => getNetwork id
        else match live with
          | some _ => .ret (.error (.state "stop the network before structural changes"))
          | none => .call (.describe h) fun
            | none => .ret (.error (.libvirt "get xml desc"))
            | some nx => match mergeUpdate id req nx with
              | .error _ =>
                .ret (.error (.state "cannot determine current subnet; pass cidr explicitly"))
              | .ok create => match networkCreateXML create with
                | .error e => .ret (.error (.create e))
                | .ok doc => redefine autoBridge id doc req.autostart

/-- `DeleteNetwork` -/
def deleteNetwork (id : String) : Prog :=
  .call (.lookup id) fun
    | none => .ret (.error .notFound)
    | some h => .call (.status h) fun
      | none => .ret (.error (.libvirt "is active"))
      | some (some _) => .ret (.error (.state "stop the network before deleting"))
      | some none => .call (.undefine h) fun
        | false => .ret (.error (.libvirt "undefine"))
        | true => .ret (.ok none)

/-- A request, with the name that libvirt would give to a bridge. -/
inductive Request where
  | create (autoBridge : String) (req : NetworkCreate) (autostart : Option Bool)
  | update (autoBridge id : String) (req : NetworkUpdate)
  | get (id : String)
  | start (id : String)
  | stop (id : String)
  | delete (id : String)

/-- What stands around a handler with an identifier. -/
def guarded (id : String) (p : Prog) : Prog :=
  requireValidVMID id (fun text => .ret (.error (.validation text))) p

/-- What the handlers do with it. -/
def Request.prog : Request → Prog
  | create autoBridge req autostart =>
    if validateCreateNetwork req = "" then createNetwork autoBridge req autostart
    else .ret (.error (.validation (validateCreateNetwork req)))
  | update autoBridge id req => guarded id <|
    if validateUpdateNetwork req = "" then updateNetwork autoBridge id req
    else .ret (.error (.validation (validateUpdateNetwork req)))
  | get id => guarded id (getNetwork id)
  | start id => guarded id (startNetwork id)
  | stop id => guarded id (stopNetwork id)
  | delete id => guarded id (deleteNetwork id)

/-- What happens: a request, or the next call of one of them. -/
inductive Event where
  | request (r : Request)
  | act (i : ℕ) (fails : Bool)

/-- The steps of the daemon and its programs. -/
def Event.toDaemon :
    Event → Daemon.Event String NetworkXML Unit Empty (Except Failure (Option Network))
  | request r => .begin r.prog
  | act i fails => .act i fails

/-- libvirt and the requests at work. -/
abbrev System := Daemon.System String NetworkXML Unit Empty (Except Failure (Option Network))

/-- One step. -/
def step (s : System) (e : Event) : Option System := s.step kind e.toDaemon

/-! ## What they keep to -/

/-- A network as the provider writes it: on a bridge that is named, or on a subnet with its
gateway. -/
inductive Written (nx : NetworkXML) : Prop where
  | bridge (hmode : nx.forwardMode = "bridge") (hname : ifaceNamePattern nx.bridgeName = true)
      (haddress : nx.address = "" ∧ nx.ipPrefix = 0) (hdhcp : nx.dhcp = false)
      (hdomain : nx.domainName = "")
  | subnet (ip : List Octet) (p : ℕ) (hmode : nx.forwardMode = "nat" ∨ nx.forwardMode = "")
      (hip : ip.length = 4) (hp : p ≤ 32)
      (haddress : nx.address = .ofList (ipText (gatewayOf ip p)) ∧ nx.ipPrefix = p)
      (hdomain : nx.domainName = "")

/-- What is active is what is defined, and a definition is changed or removed when the network is
not active. -/
def care : Daemon.Care String NetworkXML Empty where
  agrees live defined := defined = some live
  self _ := rfl
  needs name
    | .define k _ => k = name
    | .undefine h => h.name = name
    | _ => False

/-- What the requests keep to. A definition is changed once the network is seen inactive, and is one
that is `kept`; a network that is stopped is one of `stops`. -/
def rules (stops : String → Prop) (kept : String → NetworkXML → Prop) :
    Daemon.Rules String NetworkXML Unit Empty where
  may held c := Daemon.Careful kind care held c ∧ ∀ h, c = .destroy h → stops h.name
  sound name nx := legalText name = name ∧ kept name nx
  relies _ _ := True

/-- A call that neither changes a definition nor stops anything. -/
def Harmless : Daemon.Call String NetworkXML Empty → Prop
  | .define _ _ | .undefine _ | .modify _ _ | .destroy _ => False
  | .lookup _ | .status _ | .describe _ | .definition _ | .create _ | .getAutostart _
  | .setAutostart _ _ | .other _ => True

section Keeps

open Daemon.Prog

variable {stops : String → Prop} {kept : String → NetworkXML → Prop} {id autoBridge doc : String}
  {held : Option String}

theorem may_of_harmless {c : Daemon.Call String NetworkXML Empty} (hc : Harmless c) :
    (rules stops kept).may held c := by
  cases c with
  | define | undefine | modify | destroy => cases hc
  | lookup | status | describe | definition | create | getAutostart | setAutostart | other =>
    exact ⟨trivial, by rintro _ ⟨⟩⟩

theorem read_of_says {name : String} {nx : NetworkXML} (h : Says doc name nx) :
    read autoBridge doc = some (name,
      { nx with bridgeName := if nx.bridgeName = "" then autoBridge else nx.bridgeName }) := by
  obtain ⟨root, hparse, rfl, hdecode⟩ := h
  simp [read, hparse, hdecode]

/-- **A document of the provider** says the name, and a network as it is written. -/
theorem read_networkCreateXML {req : NetworkCreate} (h : networkCreateXML req = .ok doc)
    (hlegal : legalText req.name = req.name) :
    ∃ nx, read autoBridge doc = some (req.name, nx) ∧ Written nx := by
  rcases networkCreateXML_eq_ok h with ⟨bridge, h⟩ | ⟨ip, p, h⟩
  · obtain ⟨hne, hname⟩ := ifaceNamePattern_legal h.pattern
    refine ⟨_, by rw [h.document, read_of_says (says_bridgeXML req.name bridge), hlegal], ?_⟩
    refine .bridge rfl ?_ ⟨rfl, rfl⟩ rfl rfl
    simp only [hname, if_neg hne]
    exact h.pattern
  · have hsays := says_subnetXML req.name (decide (req.mode = .nat))
      (if req.dhcpEnabled.getD true then
        some (gatewayOf ip p, addToIP (filled ip (prefixMask 4 p)) (-1)) else none)
      (gatewayOf ip p) p
    simp only [decide_eq_true_eq] at hsays
    refine ⟨_, by rw [h.document, read_of_says hsays, hlegal], ?_⟩
    refine .subnet ip p ?_ h.length h.size ⟨rfl, rfl⟩ rfl
    by_cases hnat : req.mode = .nat
    · exact .inl (if_pos hnat)
    · exact .inr (if_neg hnat)

theorem getNetwork_keeps : (getNetwork id).Keeps (rules stops kept) held := by
  refine keeps_lookup (may_of_harmless trivial) trivial fun h nx _ _ => ?_
  have hread : ∀ held live, (Daemon.Prog.call (.getAutostart h) fun autostart =>
      .call (.describe h) fun nx => .ret (.ok (some (networkToModel id live
        (autostart.getD false) (nx.getD noXML)))) : Prog).Keeps (rules stops kept) held := by
    intro held live
    refine keeps_getAutostart (may_of_harmless trivial) fun _ => ?_
    exact keeps_describe (may_of_harmless trivial) trivial fun _ _ => trivial
  exact keeps_status (may_of_harmless trivial) trivial (hread _ _) fun _ _ => hread _ _

theorem createNetwork_keeps {req : NetworkCreate} {autostart : Option Bool}
    (hlegal : legalText req.name = req.name) (hkept : ∀ name nx, Written nx → kept name nx) :
    (createNetwork autoBridge req autostart).Keeps (rules stops kept) held := by
  rw [createNetwork]
  cases hdoc : networkCreateXML req with
  | error e => trivial
  | ok doc =>
    obtain ⟨nx, hread, hwritten⟩ := @read_networkCreateXML autoBridge _ _ hdoc hlegal
    refine keeps_lookup (may_of_harmless trivial) ?_ fun _ _ _ _ => trivial
    simp only [hread]
    refine keeps_define ⟨.inl ⟨rfl, rfl⟩, by rintro _ ⟨⟩⟩ ⟨hlegal, hkept _ nx hwritten⟩ trivial
      fun h hh => ?_
    -- the definition that is taken back is of the name that was free
    refine keeps_create (may_of_harmless trivial) ?_ ?_
    · refine keeps_undefine ⟨fun _ => .inl ⟨?_, rfl⟩, by rintro _ ⟨⟩⟩ trivial trivial
      exact congrArg some hh.symm
    · exact keeps_setAutostart (may_of_harmless trivial) getNetwork_keeps getNetwork_keeps

theorem startNetwork_keeps : (startNetwork id).Keeps (rules stops kept) held := by
  refine keeps_lookup (may_of_harmless trivial) trivial fun h nx _ _ => ?_
  refine keeps_status (may_of_harmless trivial) trivial ?_ fun _ _ => trivial
  exact keeps_create (may_of_harmless trivial) trivial getNetwork_keeps

theorem stopNetwork_keeps (hstops : stops id) :
    (stopNetwork id).Keeps (rules stops kept) held := by
  refine keeps_lookup (may_of_harmless trivial) trivial fun h nx hname _ => ?_
  refine keeps_status (may_of_harmless trivial) trivial trivial fun _ _ => ?_
  refine keeps_destroy ⟨trivial, ?_⟩ trivial getNetwork_keeps
  rintro _ ⟨⟩
  exact hname ▸ hstops

theorem redefine_keeps {autostart : Option Bool} {nx : NetworkXML}
    (hread : read autoBridge doc = some (id, nx)) (hsound : legalText id = id ∧ kept id nx) :
    (redefine autoBridge id doc autostart).Keeps (rules stops kept) (some id) := by
  simp only [redefine, hread]
  refine keeps_define ⟨.inl ⟨rfl, rfl⟩, by rintro _ ⟨⟩⟩ hsound trivial fun h hh => ?_
  cases autostart with
  | none => exact getNetwork_keeps
  | some b =>
    refine keeps_lookup (may_of_harmless trivial) getNetwork_keeps fun h nx _ _ => ?_
    exact keeps_setAutostart (may_of_harmless trivial) getNetwork_keeps getNetwork_keeps

theorem mergeUpdate_name {req : NetworkUpdate} {nx : NetworkXML} {create : NetworkCreate}
    (h : mergeUpdate id req nx = .ok create) : create.name = id := by
  rw [mergeUpdate] at h
  split at h
  · obtain rfl := Except.ok.inj h
    rfl
  · obtain rfl := Except.ok.inj h
    rfl
  · cases hsubnet : mergedSubnet req nx with
    | error e =>
      rw [hsubnet] at h
      cases h
    | ok cidr =>
      rw [hsubnet] at h
      obtain rfl := Except.ok.inj h
      rfl

theorem updateNetwork_keeps {req : NetworkUpdate} (hkept : ∀ name nx, Written nx → kept name nx) :
    (updateNetwork autoBridge id req).Keeps (rules stops kept) held := by
  refine keeps_lookup (may_of_harmless trivial) trivial fun h nx hname hsound => ?_
  have hflag : ∀ held, (match req.autostart with
      | none => getNetwork id
      | some b => .call (.setAutostart h b) fun
        | false => .ret (.error (.libvirt "set autostart"))
        | true => getNetwork id : Prog).Keeps (rules stops kept) held := by
    intro held
    cases req.autostart with
    | none => exact getNetwork_keeps
    | some b => exact keeps_setAutostart (may_of_harmless trivial) trivial getNetwork_keeps
  refine keeps_status (may_of_harmless trivial) trivial ?_ fun g _ => ?_
  · by_cases hstructural : req.structural = true
    · simp only [hstructural, Bool.not_true, Bool.false_eq_true, if_false]
      refine keeps_describe (may_of_harmless trivial) trivial fun nx _ => ?_
      cases hmerge : mergeUpdate id req nx with
      | error e =>
        simp only [hmerge]
        trivial
      | ok create =>
        cases hdoc : networkCreateXML create with
        | error e =>
          simp only [hmerge, hdoc]
          trivial
        | ok doc =>
          obtain rfl := mergeUpdate_name hmerge
          obtain ⟨written, hread, hwritten⟩ := @read_networkCreateXML autoBridge _ _ hdoc hsound.1
          simp only [hmerge, hdoc, hname]
          exact redefine_keeps hread ⟨hsound.1, hkept _ written hwritten⟩
    · simp only [hstructural, Bool.not_false, if_true]
      exact hflag _
  · by_cases hstructural : req.structural = true
    · simp only [hstructural, Bool.not_true, Bool.false_eq_true, if_false]
      trivial
    · simp only [hstructural, Bool.not_false, if_true]
      exact hflag _

theorem deleteNetwork_keeps : (deleteNetwork id).Keeps (rules stops kept) held := by
  refine keeps_lookup (may_of_harmless trivial) trivial fun h nx _ _ => ?_
  refine keeps_status (may_of_harmless trivial) trivial ?_ fun _ _ => trivial
  exact keeps_undefine ⟨fun _ => .inl ⟨rfl, rfl⟩, by rintro _ ⟨⟩⟩ trivial trivial

theorem guarded_keeps {p : Prog} (hp : p.Keeps (rules stops kept) held) :
    (guarded id p).Keeps (rules stops kept) held := by
  rw [guarded, requireValidVMID]
  split
  · exact hp
  · trivial

/-- **Every request** changes a definition only once it has seen the network inactive, and makes it
one as the provider writes it. -/
theorem Request.keeps (r : Request) (hstops : ∀ id, r = .stop id → stops id)
    (hkept : ∀ name nx, Written nx → kept name nx) : r.prog.Keeps (rules stops kept) none := by
  cases r with
  | create autoBridge req autostart =>
    rw [Request.prog]
    split
    · rename_i hvalid
      refine createNetwork_keeps (legalText_of_namePattern ?_) hkept
      by_contra hname
      rw [validateCreateNetwork, if_pos (by simpa using hname)] at hvalid
      simp at hvalid
    · trivial
  | update autoBridge id req =>
    refine guarded_keeps ?_
    split
    · exact updateNetwork_keeps hkept
    · trivial
  | get id => exact guarded_keeps getNetwork_keeps
  | start id => exact guarded_keeps startNetwork_keeps
  | stop id => exact guarded_keeps (stopNetwork_keeps (hstops id rfl))
  | delete id => exact guarded_keeps deleteNetwork_keeps

end Keeps

/-! ## Runs -/

/-- What libvirt has before a run: networks that are defined or active, of names that a document can
hold. -/
def Proper (d : Daemon.State String NetworkXML Unit) : Prop := ∀ name o, d.objects name = some o →
  (o.persistent.isSome ∨ o.live.isSome) ∧ legalText name = name

/-- It has this network of that name. -/
def Holds (d : Daemon.State String NetworkXML Unit) (name : String) (nx : NetworkXML) : Prop :=
  ∃ o, d.objects name = some o ∧ (o.persistent = some nx ∨ ∃ l, o.live = some l ∧ l.config = nx)

/-- It is as the provider writes it, or was there before. -/
def Kept (s₀ : System) (name : String) (nx : NetworkXML) : Prop :=
  Written nx ∨ Holds s₀.daemon name nx

/-- The network `lan`. -/
def lan : NetworkXML := ⟨"virbr1", "", "11.1.1.1", 24, true, ""⟩

/-- A host where it is defined, and not active. -/
def lanHost : System :=
  ⟨⟨fun name => if name = "lan" then some ⟨0, some lan, none, false⟩ else none, 1⟩, []⟩

/-- It is started. -/
def lanStart : List Event := [.request (.start "lan"), .act 0 false, .act 0 false, .act 0 false]

/-- There is a request to delete it. -/
def lanDelete : List Event := [.request (.delete "lan"), .act 1 false, .act 1 false]

/-- After the first, and after both. -/
def lanUp : System := (Machine.run step lanHost lanStart).getD lanHost

def lanKept : System := (Machine.run step lanUp lanDelete).getD lanUp

theorem run_lanStart : Machine.run step lanHost lanStart = some lanUp := by rfl

theorem proper_lanHost : Proper lanHost.daemon := by
  intro name o ho
  obtain ⟨rfl, ho⟩ := Option.ite_none_right_eq_some.mp ho
  obtain rfl := Option.some.inj ho
  exact ⟨.inl rfl, legalText_of_namePattern (by decide)⟩

section Runs

variable {s₀ s₁ s : System} {es es' : List Event} {k : String}

/-- The rules hold before a run, of what is there already. -/
theorem obeys (stops : String → Prop) (hproper : Proper s₀.daemon) (hstart : s₀.running = []) :
    s₀.Obeys (rules stops (Kept s₀)) := by
  refine ⟨fun name o ho => ?_, by simp [hstart]⟩
  obtain ⟨hthere, hlegal⟩ := hproper name o ho
  exact ⟨hthere, fun nx hnx => ⟨hlegal, .inr ⟨o, ho, .inl hnx⟩⟩,
    fun l hl => ⟨hlegal, .inr ⟨o, ho, .inr ⟨l, hl, rfl⟩⟩⟩⟩

/-- And along a run from any state, when nothing else is stopped. -/
theorem regular (s₀ s : System) {stops : String → Prop}
    (hstops : ∀ id, .request (.stop id) ∈ es → stops id) : Machine.Along (Daemon.System.step kind)
      (fun s e => s.Regular (rules stops (Kept s₀)) kind e) s (es.map Event.toDaemon) := by
  refine Machine.Along.map (f := Event.toDaemon) ?_
  refine Machine.along_of_prefixes fun pre e post t hes _ => ?_
  cases e with
  | request r => exact r.keeps (fun id hr => hstops id (by simp [hes, hr])) fun _ _ => .inl
  | act i fails => exact fun _ _ _ => trivial

/-- **What libvirt has of a network** is as the provider writes it, unless it was there before. -/
theorem written {nx : NetworkXML} (hproper : Proper s₀.daemon) (hstart : s₀.running = [])
    (hrun : Machine.run step s₀ es = some s) (hnx : Holds s.daemon k nx) :
    Written nx ∨ Holds s₀.daemon k nx := by
  have hobeys := obeys (fun _ => True) hproper hstart
  have hregular := @regular es s₀ s₀ (fun _ => True) fun _ _ => trivial
  have hend := Daemon.obeys_of_run hobeys hregular ((Machine.run_map ..).symm.trans hrun)
  obtain ⟨o, ho, hnx | ⟨l, hl, rfl⟩⟩ := hnx
  · exact ((hend.sound k o ho).2.1 nx hnx).2
  · exact ((hend.sound k o ho).2.2 l hl).2

/-- A host without networks. -/
def emptyHost : System := ⟨⟨fun _ => none, 0⟩, []⟩

/-- The network is created there. -/
def lanCreate : List Event :=
  [.request (.create "virbr1" ⟨none, some "11.1.1.0/24", some true, .isolated, "lan"⟩ none),
    .act 0 false, .act 0 false]

set_option maxRecDepth 20000 in
theorem written_lan : Written lan ∨ Holds emptyHost.daemon "lan" lan :=
  have hrun : Machine.run step emptyHost lanCreate =
      some ((Machine.run step emptyHost lanCreate).getD emptyHost) := by rfl
  written (by rintro _ _ ⟨⟩) rfl hrun ⟨⟨0, some lan, none, false⟩, rfl, .inl rfl⟩

/-- **A network that is active stays so**, on what it was started with, whatever is asked meanwhile,
unless a request stops it. -/
theorem active_stays {u : ℕ} {nx : NetworkXML} (hproper : Proper s₀.daemon)
    (hstart : s₀.running = []) (hrun : Machine.run step s₀ es = some s₁)
    (hactive : s₁.daemon.Runs k u nx) (hrun' : Machine.run step s₁ es' = some s)
    (hstop : .request (.stop k) ∉ es ++ es') : s.daemon.Runs k u nx := by
  have hstops : ∀ id, .request (.stop id) ∈ es ++ es' → id ≠ k := by
    rintro id hid rfl
    exact hstop hid
  have hobeys := obeys (· ≠ k) hproper hstart
  have hobeys' := Daemon.obeys_of_run hobeys
    (regular s₀ s₀ fun id hid => hstops id (List.mem_append_left _ hid))
    ((Machine.run_map ..).symm.trans hrun)
  have hregular := regular s₀ s₁ fun id hid => hstops id (List.mem_append_right es hid)
  refine Daemon.live_of_run (fun _ _ hmay => ?_) hobeys' hactive
    (hregular.and_forall fun e he => ?_) ((Machine.run_map ..).symm.trans hrun')
  · exact Daemon.spares_of_destroy hmay.2
  · obtain ⟨e, -, rfl⟩ := List.mem_map.mp he
    cases e with
    | request | act => trivial

theorem active_stays_lan : lanKept.daemon.Runs "lan" 0 lan :=
  active_stays proper_lanHost rfl run_lanStart
    ⟨⟨0, some lan, some ⟨lan, ()⟩, false⟩, (), rfl, rfl, rfl⟩
    (by rfl : Machine.run step lanUp lanDelete = some lanKept) (by simp [lanStart, lanDelete])

/-- No request starts what another one minds. -/
theorem noRace_lanStart : Machine.Along step (fun s e => s.NoRace kind care e.toDaemon) lanHost
    lanStart :=
  have hquiet {s : System} (h : s.running.length = 1) :
      s.NoRace kind care (Event.toDaemon (.act 0 false)) := Daemon.System.noRace_of_alone h
  .cons (by exact trivial) rfl <| .cons (hquiet rfl) rfl <| .cons (hquiet rfl) rfl <|
    .cons (hquiet rfl) rfl <| .nil _

/-- It is started after a request to delete it has seen it inactive. -/
def lanRace : List Event :=
  [.request (.delete "lan"), .request (.start "lan"), .act 0 false, .act 0 false, .act 1 false,
    .act 1 false, .act 1 false, .act 0 false]

/-- Then it is active, and not defined. -/
theorem not_defined_lanRace :
    ∃ s, Machine.run step lanHost lanRace = some s ∧ ¬ s.daemon.Agrees care := by
  refine ⟨(Machine.run step lanHost lanRace).getD lanHost, rfl, fun hdefined => ?_⟩
  have hactive := hdefined "lan" ⟨0, none, some ⟨lan, ()⟩, false⟩ ⟨lan, ()⟩ rfl rfl
  cases hactive

end Runs

end Networks

end Ultrav

import LibvirtProvider.Machine
import LibvirtProvider.Reservation

/-!
# The provider: operations that open a connection

The model of `provider.go`. Each operation connects to the host its
configuration names, does its work over the connection and closes it. There
are several hosts, and which of them a URI leads to is a fact of the world;
two URIs may lead to the same one.

The rest of the module carries what is known of a program on a network over
to a host, and what is known of a program on a host over to the world: a run
of the larger program is a run of the smaller one on a part of the state, and
everything else is what it was.
-/

namespace LibvirtProvider

open Interaction

/-! ## The hosts -/

/-- **The hosts**, and which of them a URI leads to. Hosts are numbered, and
several URIs may lead to one: a change of the URI need not be a change of the
host. -/
structure World where
  hostOf : String → Option ℕ
  hosts : ℕ → Host

/-- The world with another state of a host. -/
def World.setHost (w : World) (h : ℕ) (s : Host) : World :=
  { w with hosts := Function.update w.hosts h s }

@[simp] theorem World.hosts_setHost_self (w : World) (h : ℕ) (s : Host) :
    (w.setHost h s).hosts h = s := Function.update_self _ _ _

theorem World.hosts_setHost_of_ne (w : World) {h h' : ℕ} (hne : h' ≠ h) (s : Host) :
    (w.setHost h s).hosts h' = w.hosts h' := Function.update_of_ne hne _ _

@[simp] theorem World.hostOf_setHost (w : World) (h : ℕ) (s : Host) :
    (w.setHost h s).hostOf = w.hostOf := rfl

@[simp] theorem World.setHost_hosts (w : World) (h : ℕ) : w.setHost h (w.hosts h) = w := by
  rw [World.setHost, Function.update_eq_self]

@[simp] theorem World.setHost_setHost (w : World) (h : ℕ) (s s' : Host) :
    (w.setHost h s).setHost h s' = w.setHost h s' := by
  rw [World.setHost, World.setHost, Function.update_idem]
  rfl

/-- `*libvirt.Connect`: the host at its other end. -/
structure ConnRef where
  host : ℕ
  deriving DecidableEq, Repr

/-- What the provider calls: `connect`, and the calls over a connection. -/
inductive ProviderOp where
  | connect (cfg : InfraConfig)
  | libvirt (conn : ConnRef) (o : LibvirtOp)

/-- The signature of the provider's calls. -/
def ProviderSig : Signature where
  Op := ProviderOp
  Ans
    | .connect _ => Except GoError ConnRef
    | .libvirt _ o => LibvirtSig.Ans o

/-- **The calls on the world.** A connection may fail for any reason, and a
URI that leads nowhere is always refused. A call over a connection is one on
the host at its end. -/
def providerStep (w : World) :
    (o : ProviderSig.Op) → LibvirtChoice → Option (ProviderSig.Ans o × World)
  | .connect cfg, c =>
    match c.fault, w.hostOf cfg.uri with
    | some code, _ => some (.error (.wrap "connect to libvirt" (.libvirt (.other code))), w)
    | none, none => some (.error (.wrap "connect to libvirt" (.libvirt (.other 38))), w)
    | none, some h => some (.ok ⟨h⟩, w)
  | .libvirt conn o, c =>
    (libvirtStep (w.hosts conn.host) o c).map fun r => (r.1, w.setHost conn.host r.2)

/-- What the calls mean, over every choice of the environment. -/
def providerSem : Sem ProviderSig World := Prog.semOf providerStep

/-! ## The operations -/

/-- A program of the provider that can fail. -/
abbrev ProviderM (α : Type) := ExceptT GoError (Prog ProviderSig) α

/-- A program over an open connection. -/
def ConnRef.on {α : Type} (conn : ConnRef) (p : LibvirtM α) : ProviderM α :=
  ExceptT.mk (p.run.interp fun o => Prog.perform (σ := ProviderSig) (.libvirt conn o))

/-- What the operations have in common: connect, and go on over the
connection. Closing it is left out; nothing depends on it. -/
def connected {α : Type} (cfg : MachineConfig) (p : LibvirtM α) : ProviderM α := do
  let conn : ConnRef ← ExceptT.adapt (.wrap "connect to libvirt host")
    (ExceptT.mk (Prog.perform (σ := ProviderSig) (.connect cfg.toInfraConfig)))
  conn.on p

/-- `Provider.CreateMachine`. -/
def createMachine (cfg : MachineConfig) : ProviderM Unit := connected cfg (createDomain cfg)

/-- `Provider.StartMachine`. -/
def startMachine (cfg : MachineConfig) : ProviderM Unit := connected cfg (startDomain cfg)

/-- `Provider.GetMachineState`. -/
def getMachineState (cfg : MachineConfig) : ProviderM DomainState :=
  connected cfg (getDomainState cfg.domainName)

/-- `Provider.DeleteMachine`. Its success is what the controller takes the
machine's finalizer off for. -/
def deleteMachine (cfg : MachineConfig) : ProviderM Unit := connected cfg (deleteResources cfg)

/-- `Provider.GetMachineAddress`. -/
def getMachineAddress (cfg : MachineConfig) : ProviderM String :=
  connected cfg (machineAddressOn cfg)

theorem connected_calls {α : Type} {P : ProviderSig.Op → Prop} {cfg : MachineConfig}
    {p : LibvirtM α} (hconnect : P (.connect cfg.toInfraConfig))
    (hp : ∀ conn, p.run.Calls fun o => P (.libvirt conn o)) : (connected cfg p).run.Calls P := by
  refine .bind_except (.adapt ⟨hconnect, fun _ => trivial⟩) fun conn => ?_
  exact (hp conn).interp fun o ho => ⟨ho, fun _ => trivial⟩

/-! ## From a host to the world -/

section World

variable {α : Type} {w w' : World} {cfg : MachineConfig}

theorem providerSem_libvirt {conn : ConnRef} {o : LibvirtOp} {r : LibvirtSig.Ans o} :
    providerSem w (.libvirt conn o) r w' ↔
      ∃ s', libvirtSem (w.hosts conn.host) o r s' ∧ w' = w.setHost conn.host s' := by
  constructor
  · rintro ⟨c, hc⟩
    obtain ⟨⟨r', s'⟩, hx, heq⟩ := Option.map_eq_some_iff.mp hc
    cases heq
    exact ⟨s', ⟨c, hx⟩, rfl⟩
  · rintro ⟨s', ⟨c, hc⟩, rfl⟩
    exact ⟨c, Option.map_eq_some_iff.mpr ⟨(r, s'), hc, rfl⟩⟩

theorem providerSem_connect {c : InfraConfig} {r : Except GoError ConnRef}
    (h : providerSem w (.connect c) r w') :
    w' = w ∧ ((∃ e, r = .error e) ∨ ∃ host, w.hostOf c.uri = some host ∧ r = .ok ⟨host⟩) := by
  obtain ⟨choice, hc⟩ := h
  cases hf : choice.fault with
  | some code =>
    simp only [providerStep, hf] at hc
    cases hc
    exact ⟨rfl, Or.inl ⟨_, rfl⟩⟩
  | none =>
    cases hh : w.hostOf c.uri with
    | none =>
      simp only [providerStep, hf, hh] at hc
      cases hc
      exact ⟨rfl, Or.inl ⟨_, rfl⟩⟩
    | some host =>
      simp only [providerStep, hf, hh] at hc
      cases hc
      exact ⟨rfl, Or.inr ⟨host, rfl, rfl⟩⟩

/-- Which host a URI leads to does not change. -/
theorem providerSem_hostOf {o : ProviderSig.Op} {r : ProviderSig.Ans o}
    (h : providerSem w o r w') : w'.hostOf = w.hostOf := by
  cases o with
  | connect cfg => rw [(providerSem_connect h).1]
  | libvirt conn o =>
    obtain ⟨s', -, rfl⟩ := providerSem_libvirt.mp h
    rfl

/-- No call changes the form of the errors, of any host. -/
theorem providerSem_errors {o : ProviderSig.Op} {r : ProviderSig.Ans o}
    (h : providerSem w o r w') (host : ℕ) : (w'.hosts host).errors = (w.hosts host).errors := by
  cases o with
  | connect cfg => rw [(providerSem_connect h).1]
  | libvirt conn o =>
    obtain ⟨s', hs, rfl⟩ := providerSem_libvirt.mp h
    by_cases hhost : host = conn.host
    · subst hhost
      rw [World.hosts_setHost_self]
      exact libvirtSem_errors hs
    · rw [World.hosts_setHost_of_ne _ hhost]

/-- A call over a connection, as a call of the provider. -/
def ConnRef.event (conn : ConnRef) (ev : Event LibvirtSig) : Event ProviderSig :=
  ⟨.libvirt conn ev.1, ev.2⟩

/-- **A run over a connection is a run on the host at its end**, with the same
calls. The other hosts are what they were. -/
theorem exec_on {conn : ConnRef} {p : Prog LibvirtSig α} {tr : List (Event ProviderSig)} {a : α} :
    Prog.Exec providerSem
        (p.interp fun o => Prog.perform (σ := ProviderSig) (.libvirt conn o)) w tr w' a ↔
      ∃ tr' s', Prog.Exec libvirtSem p (w.hosts conn.host) tr' s' a ∧ tr = tr'.map conn.event
        ∧ w' = w.setHost conn.host s' := by
  refine Prog.exec_interp_part (fun w : World => w.hosts conn.host)
    (fun w s => w.setHost conn.host s) (fun w s => w.hosts_setHost_self conn.host s)
    (fun w s s' => w.setHost_setHost conn.host s s') (fun w => w.setHost_hosts conn.host) ?_
  intro w o r tr w'
  constructor
  · intro h
    obtain ⟨hs, rfl⟩ := Prog.exec_perform.mp h
    obtain ⟨s', hx, rfl⟩ := providerSem_libvirt.mp hs
    exact ⟨s', hx, rfl, rfl⟩
  · rintro ⟨s', hs, rfl, rfl⟩
    exact Prog.exec_perform.mpr ⟨providerSem_libvirt.mpr ⟨s', hs, rfl⟩, rfl⟩

/-- **A run of an operation**: there is no connection and nothing happens, or
it is a run on the host the URI leads to. -/
theorem connected_exec {p : LibvirtM α} {tr : List (Event ProviderSig)} {r : Except GoError α}
    (h : Prog.Exec providerSem (connected cfg p).run w tr w' r) :
    (∃ e, r = .error e) ∧ w' = w
      ∧ (∃ e, tr = [⟨.connect cfg.toInfraConfig, (.error e : Except GoError ConnRef)⟩])
    ∨ ∃ host tr' s', w.hostOf cfg.uri = some host
      ∧ Prog.Exec libvirtSem p.run (w.hosts host) tr' s' r
      ∧ tr = ⟨.connect cfg.toInfraConfig, (.ok ⟨host⟩ : Except GoError ConnRef)⟩
          :: tr'.map (ConnRef.event ⟨host⟩)
      ∧ w' = w.setHost host s' := by
  rcases Prog.exec_bind_except.mp h with ⟨e, hx, rfl⟩ | ⟨conn, w₁, _, tr₁, rfl, hx, h₁⟩
  · obtain ⟨r', hx, hr⟩ := Prog.exec_adapt.mp hx
    obtain ⟨hs, rfl⟩ := Prog.exec_perform.mp hx
    refine Or.inl ⟨⟨e, rfl⟩, (providerSem_connect hs).1, ?_⟩
    cases r' with
    | error e' => exact ⟨e', rfl⟩
    | ok conn => cases hr
  · obtain ⟨hs, rfl⟩ := Prog.exec_perform.mp (Prog.exec_adapt_ok.mp hx)
    obtain ⟨rfl, ⟨e, hr⟩ | ⟨host, hhost, hr⟩⟩ := providerSem_connect hs
    · cases hr
    cases hr
    obtain ⟨tr', s', hexec, rfl, rfl⟩ := exec_on.mp h₁
    exact Or.inr ⟨host, tr', s', hhost, hexec, rfl, rfl⟩

/-- A run on the host is one of the operation. -/
theorem exec_connected {p : LibvirtM α} {host : ℕ} {tr : List (Event LibvirtSig)} {s' : Host}
    {r : Except GoError α} (hhost : w.hostOf cfg.uri = some host)
    (h : Prog.Exec libvirtSem p.run (w.hosts host) tr s' r) :
    Prog.Exec providerSem (connected cfg p).run w
      (⟨.connect cfg.toInfraConfig, (.ok ⟨host⟩ : Except GoError ConnRef)⟩
        :: tr.map (ConnRef.event ⟨host⟩)) (w.setHost host s') r := by
  have hconnect : providerSem w (.connect cfg.toInfraConfig) (.ok ⟨host⟩ : Except GoError ConnRef)
      w := ⟨{}, by simp only [providerStep, hhost]⟩
  refine Prog.exec_bind_except.mpr (Or.inr ⟨⟨host⟩, w, [_], _, rfl, ?_, exec_on.mpr
    ⟨tr, s', h, rfl, rfl⟩⟩)
  exact Prog.exec_adapt_ok.mpr (Prog.exec_perform.mpr ⟨hconnect, rfl⟩)

end World

/-! ## From a network to a host -/

/-- The host with another state of a network. -/
def Host.setNetwork (s : Host) (name : String) (network : Network) : Host :=
  { s with networks := Function.update s.networks name (some network) }

@[simp] theorem Host.networks_setNetwork_self (s : Host) (name : String) (network : Network) :
    (s.setNetwork name network).networks name = some network := Function.update_self _ _ _

theorem Host.networks_setNetwork_of_ne (s : Host) {name name' : String} (hne : name' ≠ name)
    (network : Network) : (s.setNetwork name network).networks name' = s.networks name' :=
  Function.update_of_ne hne _ _

/-- A call on a network, as a call on the host. -/
def NetworkRef.event (net : NetworkRef) (ev : Event NetworkSig) : Event LibvirtSig :=
  ⟨.network net ev.1, ev.2⟩

theorem Host.setNetwork_self {s : Host} {name : String} {network : Network}
    (h : s.networks name = some network) : s.setNetwork name network = s := by
  rw [Host.setNetwork, ← h, Function.update_eq_self]

/-- A call on a network that is there. -/
theorem libvirtStep_network {s s' : Host} {net : NetworkRef} {network : Network}
    {o : NetworkOp} {c : LibvirtChoice} {r : NetworkSig.Ans o}
    (hnet : s.networks net.name = some network) :
    libvirtStep s (.network net o) c = some (r, s') ↔
      ∃ network', networkStep network o ⟨c.fault, c.leases⟩ = some (r, network')
        ∧ s' = s.setNetwork net.name network' := by
  simp only [libvirtStep, hnet]
  constructor
  · intro h
    obtain ⟨⟨_, network'⟩, hx, heq⟩ := Option.map_eq_some_iff.mp h
    cases heq
    exact ⟨network', hx, rfl⟩
  · rintro ⟨network', hx, rfl⟩
    exact Option.map_eq_some_iff.mpr ⟨(r, network'), hx, rfl⟩

/-- **A run on a network of a host**, for a meaning of the calls on a host
that goes to the network for those on it. -/
theorem exec_onNetwork_iff {α : Type} {sem : Sem LibvirtSig Host} {sem' : Sem NetworkSig Network}
    {net : NetworkRef} {p : Prog NetworkSig α} {s s' : Host} {network : Network}
    {tr : List (Event LibvirtSig)} {a : α}
    (hsem : ∀ (s : Host) network (o : NetworkOp) (r : NetworkSig.Ans o) s',
      s.networks net.name = some network → (sem s (.network net o) r s' ↔
        ∃ network', sem' network o r network' ∧ s' = s.setNetwork net.name network'))
    (hnet : s.networks net.name = some network) :
    Prog.Exec sem (p.interp fun o => Prog.perform (σ := LibvirtSig) (.network net o)) s tr s' a ↔
      ∃ tr' network', Prog.Exec sem' p network tr' network' a ∧ tr = tr'.map net.event
        ∧ s' = s.setNetwork net.name network' := by
  refine Prog.exec_interp_at (fun (s : Host) network => s.networks net.name = some network)
    (fun s network => s.setNetwork net.name network)
    (fun s network => Host.networks_setNetwork_self s net.name network)
    (fun s _ _ => by simp [Host.setNetwork]) (fun _ _ => Host.setNetwork_self) ?_ hnet
  intro s network o r tr s' hs
  constructor
  · intro h
    obtain ⟨hs', rfl⟩ := Prog.exec_perform.mp h
    obtain ⟨network', hx, rfl⟩ := (hsem s network o r s' hs).mp hs'
    exact ⟨network', hx, rfl, rfl⟩
  · rintro ⟨network', hx, rfl, rfl⟩
    exact Prog.exec_perform.mpr ⟨(hsem s network o r _ hs).mpr ⟨network', hx, rfl⟩, rfl⟩

/-- **A run on a network of a host** is a run on the network, and of the host
nothing else changes. What is known of reservations on a network is used on a
host through this. -/
theorem exec_onNetwork {α : Type} {net : NetworkRef} {p : Prog NetworkSig α} {s s' : Host}
    {network : Network} {tr : List (Event LibvirtSig)} {a : α}
    (hnet : s.networks net.name = some network)
    (h : Prog.Exec libvirtSem
      (p.interp fun o => Prog.perform (σ := LibvirtSig) (.network net o)) s tr s' a) :
    ∃ tr' network', Prog.Exec networkSem p network tr' network' a
      ∧ s' = s.setNetwork net.name network' := by
  have hsem : ∀ (s : Host) network (o : NetworkOp) (r : NetworkSig.Ans o) s',
      s.networks net.name = some network → (libvirtSem s (.network net o) r s' ↔
        ∃ network', networkSem network o r network' ∧ s' = s.setNetwork net.name network') := by
    intro s network o r s' hs
    constructor
    · rintro ⟨c, hc⟩
      obtain ⟨network', hx, rfl⟩ := (libvirtStep_network hs).mp hc
      exact ⟨network', ⟨_, hx⟩, rfl⟩
    · rintro ⟨network', ⟨c, hc⟩, rfl⟩
      exact ⟨{ fault := c.fault, leases := c.leases }, (libvirtStep_network hs).mpr ⟨_, hc, rfl⟩⟩
  obtain ⟨tr', network', he, -, rfl⟩ := (exec_onNetwork_iff hsem hnet).mp h
  exact ⟨tr', network', he, rfl⟩

/-- **A run of `machineAddressOn`** changes nothing: leases are read only. -/
theorem machineAddressOn_exec {cfg : MachineConfig} {s s' : Host} {tr : List (Event LibvirtSig)}
    {r : Except GoError String} (h : Prog.Exec libvirtSem (machineAddressOn cfg).run s tr s' r) :
    s' = s := by
  have hleases (net : NetworkRef) :
      (Conn.onNetwork net (machineAddress cfg.network cfg.mac)).run.Calls
        fun o : LibvirtOp => o.isQuery = true ∨ ∃ net, o = .network net .getDHCPLeases :=
    Prog.Calls.interp (P := fun o : NetworkOp => o = .getDHCPLeases)
      (.bind_except (.adapt ⟨rfl, fun _ => trivial⟩) fun _ => trivial)
      fun o ho => ⟨Or.inr ⟨net, by rw [ho]⟩, fun _ => trivial⟩
  have hcalls : (machineAddressOn cfg).run.Calls
      fun o : LibvirtOp => o.isQuery = true ∨ ∃ net, o = .network net .getDHCPLeases :=
    .bind_except (.adapt ⟨Or.inl rfl, fun _ => trivial⟩) hleases
  refine hcalls.keeps id (fun t o r t' ho hs => ?_) h
  rcases ho with ho | ⟨net, rfl⟩
  · exact libvirtSem_query hs ho
  · rcases libvirtSem_network hs with ⟨heq, -⟩ | ⟨network, network', hnet, hn, rfl⟩
    · exact heq
    · rw [networkSem_getDHCPLeases hn, ← hnet, Function.update_eq_self]

/-! ## A host to run on -/

/-- A host with a base image, a pool for the machines and a network. -/
def freshHost : Host where
  storage :=
    { pools := fun
        | "base" => some ⟨"/base", fun
          | "ubuntu.qcow2" => some ⟨newVolume "ubuntu.qcow2", some []⟩
          | _ => none⟩
        | "vms" => some ⟨"/vms", fun _ => none⟩
        | _ => none
      streams := fun _ => none
      nextStream := 0 }
  domains := ∅
  networks
    | "default" => some (rangeNetwork "192.168.122.9" [])
    | _ => none

/-- The configuration of a machine for it. -/
def nodeConfig : MachineConfig where
  uri := "qemu:///system"
  basePool := "base"
  domainPool := "vms"
  network := "default"
  credentials := none
  domainName := "default-node-1"
  domainUUID := "5d3b6c0e"
  hostname := "node-1"
  baseImage := "ubuntu.qcow2"
  memoryMiB := 2048
  vcpu := 2
  diskSize := 20
  userData := [35, 99]

/-- What the calls answer when all goes well. -/
def faultless : LibvirtChoice := { image := [1, 2, 3] }

/-- The world with that host only. -/
def freshWorld : World where
  hostOf _ := some 0
  hosts _ := freshHost

/-- The host, as it would answer through a binding that hands over
`*libvirt.Error`. -/
def pointerHost : Host := { freshHost with errors := .pointer }

/-- The world with that host only. -/
def pointerWorld : World where
  hostOf _ := some 0
  hosts _ := pointerHost

/-- A host with both volumes of a machine put in place: an empty overlay of
the base image, and an ISO with some content. -/
def Host.stock (s : Host) (cfg : MachineConfig) (iso : Bytes) : Host :=
  { s with
    storage :=
      (s.storage.setVolume cfg.domainPool cfg.domainDiskName
        (some ⟨((newVolume cfg.domainDiskName).withCapacity cfg.diskSizeGiB
          "G").withBackingStore "/base/ubuntu.qcow2" defaultVolumeFormat, none⟩)).setVolume
      cfg.domainPool cfg.isoDiskName (some ⟨isoVolume cfg iso, some iso⟩) }

/-- The host with the machine's volumes. No lookup of a volume comes back
without one there, so that a domain can be created on it whatever form the
errors have. -/
def stockedHost : Host := freshHost.stock nodeConfig [1, 2, 3]

/-- The world with the stocked host only. -/
def stockedWorld : World where
  hostOf _ := some 0
  hosts _ := stockedHost

end LibvirtProvider

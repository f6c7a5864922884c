import LibvirtProvider.Cleanup
import LibvirtProvider.Interleaving
import LibvirtProvider.Manager

/-!
# What an operation may change

The things on a host that are a machine's own are the domain of its name, the
two volumes of its names in the domain pool, and the host entries of its MAC
or name in its network. The operations find them by name and from then on
work on handles, and a host is shared: by the operations of other machines,
which run at the same time, by the base images, and by whatever else is on it.

`toolMonitor` says what the operations do with the handles of storage and
networks, as `handleMonitor` does for domains: nothing is created but in the
domain pool and under the machine's own names, nothing is deleted or written to
but what was found under them, and an upload goes over a stream of its own.
From this it follows that a call changes nothing but what is the machine's own,
in every order of the calls of any number of operations, with any of them
failing and any operation stopped anywhere (`operations_keep_to_their_own`).
-/

namespace LibvirtProvider

open Interaction

/-! ## What is on a host -/

/-- **A thing on a host** that can be someone's own. An entry of a network is
a thing by itself; the rest of the network is its shape. -/
inductive Asset where
  | domain (name : String)
  | volume (pool name : String)
  | entry (net : String) (e : NetworkDHCPHost)
  | shape (net : String)

/-- The name is one of a volume of the machine. -/
def MachineConfig.OwnVolume (cfg : MachineConfig) (name : String) : Prop :=
  name = cfg.domainDiskName ∨ name = cfg.isoDiskName

/-- A thing is a machine's own. The shape of a network is nobody's: machines
only add entries to it, and take them away. -/
def Asset.Of (cfg : MachineConfig) : Asset → Prop
  | .domain name => name = cfg.domainName
  | .volume pool name => pool = cfg.domainPool ∧ cfg.OwnVolume name
  | .entry net e => net = cfg.network ∧ ownEntry cfg.domainName e = true
  | .shape _ => False

/-- **What is a machine's own**, on the host its configuration names. Which
host that is plays no part here. -/
def MachineConfig.assets (cfg : MachineConfig) : Set Asset := { x | x.Of cfg }

/-- **Nothing but some things has changed** from one state of a host to
another. For the entries of a network this is said of any selection of them
that has none of the things in it: they are what they were, and in the order
they were in. -/
structure KeepsBut (A : Set Asset) (s s' : Host) : Prop where
  domains : ∀ name, .domain name ∉ A → s'.domains.lookup name = s.domains.lookup name
  volumes : ∀ pool name, .volume pool name ∉ A →
    s'.storage.volume pool name = s.storage.volume pool name
  targets : ∀ pool, s'.storage.target pool = s.storage.target pool
  entries : ∀ net (p : NetworkDHCPHost → Bool), (∀ e, p e = true → .entry net e ∉ A) →
    (s'.networks net).map (fun network => network.hosts.filter p)
      = (s.networks net).map fun network => network.hosts.filter p
  shapes : ∀ net, .shape net ∉ A →
    (s'.networks net).map Network.shape = (s.networks net).map Network.shape

namespace KeepsBut

variable {A B : Set Asset} {s s' s'' : Host}

theorem refl (A : Set Asset) (s : Host) : KeepsBut A s s where
  domains _ _ := rfl
  volumes _ _ _ := rfl
  targets _ := rfl
  entries _ _ _ := rfl
  shapes _ _ := rfl

theorem trans (h : KeepsBut A s s') (h' : KeepsBut A s' s'') : KeepsBut A s s'' where
  domains name hname := (h'.domains name hname).trans (h.domains name hname)
  volumes pool name hname := (h'.volumes pool name hname).trans (h.volumes pool name hname)
  targets pool := (h'.targets pool).trans (h.targets pool)
  entries net p hp := (h'.entries net p hp).trans (h.entries net p hp)
  shapes net hnet := (h'.shapes net hnet).trans (h.shapes net hnet)

theorem mono (h : KeepsBut A s s') (hAB : A ⊆ B) : KeepsBut B s s' where
  domains name hname := h.domains name fun hmem => hname (hAB hmem)
  volumes pool name hname := h.volumes pool name fun hmem => hname (hAB hmem)
  targets := h.targets
  entries net p hp := h.entries net p fun e he hmem => hp e he (hAB hmem)
  shapes net hnet := h.shapes net fun hmem => hnet (hAB hmem)

end KeepsBut

/-! ## Handles of storage and networks -/

/-- **A handle** that something can be changed with. -/
inductive Tool where
  | pool (ref : StoragePoolRef)
  | vol (ref : StorageVolRef)
  | stream (ref : StreamRef)
  | net (ref : NetworkRef)

/-- The handles a call changes something with. A call that only reads needs
none: it cannot do any harm. -/
def LibvirtOp.uses : LibvirtOp → List Tool
  | .storageVolCreateXML pool _ _ => [.pool pool]
  | .deleteVol vol _ => [.vol vol]
  | .upload vol stream _ _ _ => [.vol vol, .stream stream]
  | .sendAll stream _ | .finish stream | .abort stream => [.stream stream]
  | .network net _ => [.net net]
  | _ => []

/-- What a call writes has the machine's name. -/
def LibvirtOp.NamesOwn (cfg : MachineConfig) : LibvirtOp → Prop
  | .storageVolCreateXML _ xml _ => cfg.OwnVolume xml.name
  | .network _ (.update _ parentIndex host _) =>
    parentIndex = 0 ∧ host.mac = cfg.mac ∧ host.name = cfg.domainName
  | _ => True

/-- **The handles a machine's operation comes by**: of the domain pool, of a
volume of the machine in it, of the machine's network, and of new streams. The
base pool and the base image are looked up as well, but no handle of theirs is
among these. -/
inductive Learns (cfg : MachineConfig) (q : Set Tool) :
    (o : LibvirtOp) → LibvirtSig.Ans o → Tool → Prop where
  | pool {ref : StoragePoolRef} :
      Learns cfg q (.lookupStoragePoolByName cfg.domainPool)
        (.ok ref : Except GoError StoragePoolRef) (.pool ref)
  | vol {pool : StoragePoolRef} {name : String} {ref : StorageVolRef} (hpool : .pool pool ∈ q)
      (hname : cfg.OwnVolume name) :
      Learns cfg q (.lookupStorageVolByName pool name)
        (.ok ref : Except GoError StorageVolRef) (.vol ref)
  | stream {flags : ℕ} {ref : StreamRef} :
      Learns cfg q (.newStream flags) (.ok ref : Except GoError StreamRef) (.stream ref)
  | net {ref : NetworkRef} :
      Learns cfg q (.lookupNetworkByName cfg.network)
        (.ok ref : Except GoError NetworkRef) (.net ref)

/-- **The monitor of storage and networks**, of a machine. Its state is the
handles that the operation has come by, and a call is allowed if it has the
handles it uses and writes the machine's own names. -/
def toolMonitor (cfg : MachineConfig) : Monitor LibvirtSig (Set Tool) where
  next q o r := { t | t ∈ q ∨ Learns cfg q o r t }
  allows q o := (∀ t ∈ LibvirtOp.uses o, t ∈ q) ∧ LibvirtOp.NamesOwn cfg o

section Obeys

variable {α β : Type} {cfg : MachineConfig} {q : Set Tool}

/-- Calls that need no handle but known ones are allowed, and nothing is
forgotten over them. Most parts of an operation are of this kind. -/
theorem tools_of_calls {p : Prog LibvirtSig α}
    (hp : p.Calls fun o : LibvirtOp => (∀ t ∈ o.uses, t ∈ q) ∧ o.NamesOwn cfg) :
    p.Obeys (toolMonitor cfg) (fun q' _ => q ⊆ q') q := by
  refine Prog.Calls.obeys_invariant (M := toolMonitor cfg) (I := fun q' => q ⊆ q')
    (fun q' o hq ho => ⟨fun t ht => hq (ho.1 t ht), ho.2⟩) (fun q' o r hq ho t ht => ?_) hp
    subset_rfl
  exact Or.inl (hq ht)

theorem tools_bind {x : LibvirtM α} {f : α → LibvirtM β}
    (hx : x.run.Calls fun o : LibvirtOp => (∀ t ∈ o.uses, t ∈ q) ∧ o.NamesOwn cfg)
    (hf : ∀ a q', q ⊆ q' → (f a).run.Obeys (toolMonitor cfg) (fun _ _ => True) q') :
    (x >>= f).run.Obeys (toolMonitor cfg) (fun _ _ => True) q := by
  refine Prog.obeys_bind_except.mpr ((tools_of_calls hx).mono ?_)
  rintro q' (err | a) hq
  · trivial
  · exact hf a q' hq

/-- The calls that need no handle. -/
theorem needless {o : LibvirtOp} (huses : o.uses = []) (hown : o.NamesOwn cfg) :
    (∀ t ∈ o.uses, t ∈ q) ∧ o.NamesOwn cfg := by
  rw [huses]
  exact ⟨fun _ h => absurd h List.not_mem_nil, hown⟩

theorem needless_of_asksStorage (o : LibvirtOp) (ho : o.asksStorage = true) :
    (∀ t ∈ o.uses, t ∈ q) ∧ o.NamesOwn cfg := by
  refine needless ?_ ?_
  · cases o <;> first | rfl | cases ho
  · cases o <;> trivial

/-- Reading a network and writing entries of the machine, over a handle of its
network. -/
theorem onNetwork_tools {net : NetworkRef} {p : NetworkM α} (hnet : .net net ∈ q)
    (hp : p.run.Calls fun o : NetworkOp => ∀ cmd i host flags, o = .update cmd i host flags →
      i = 0 ∧ host.mac = cfg.mac ∧ host.name = cfg.domainName) :
    (Conn.onNetwork net p).run.Obeys (toolMonitor cfg) (fun _ _ => True) q := by
  refine (tools_of_calls ?_).mono fun _ _ _ => trivial
  refine hp.interp fun o ho => ⟨⟨fun t ht => ?_, ?_⟩, fun _ => trivial⟩
  · rw [List.mem_singleton.mp ht]
    exact hnet
  · cases o with
    | update cmd i host flags => exact ho cmd i host flags rfl
    | _ => trivial

theorem networkXML_calls_query {P : NetworkOp → Prop} (hP : P (.getXMLDesc 0)) :
    networkXML.run.Calls P :=
  networkXML_calls.mono fun o ho => by
    obtain rfl : o = .getXMLDesc 0 := ho
    exact hP

theorem reserveMachineIP_calls_own (netName : String) :
    (reserveMachineIP netName cfg.domainName cfg.mac).run.Calls fun o : NetworkOp =>
      ∀ cmd i host flags, o = .update cmd i host flags →
        i = 0 ∧ host.mac = cfg.mac ∧ host.name = cfg.domainName := by
  refine .bind_except (networkXML_calls_query fun _ _ _ _ h => nomatch h) fun network => ?_
  rw [ExceptT.run_bind, NetworkM.ofComp]
  cases hplan : (planHostUpdate network cfg.domainName cfg.mac).run with
  | none =>
    refine ⟨?_, fun r => r.elim⟩
    rintro _ _ _ _ ⟨⟩
  | some r =>
    cases r with
    | error err => trivial
    | ok plan =>
      obtain ⟨planned, update⟩ := plan
      have hupdate : ∀ ip cmd, (ExceptT.adapt (GoError.wrap
          s!"update DHCP host entry for {cfg.domainName} on network {netName}")
          (updateHost cmd ⟨cfg.mac, cfg.domainName, ip⟩) >>= fun _ => pure planned :
          NetworkM String).run.Calls fun o : NetworkOp => ∀ cmd i host flags,
            o = .update cmd i host flags →
              i = 0 ∧ host.mac = cfg.mac ∧ host.name = cfg.domainName := by
        refine fun ip cmd => .bind_except (.adapt ⟨?_, fun _ => trivial⟩) fun _ => trivial
        rintro _ _ _ _ ⟨⟩
        exact ⟨rfl, rfl, rfl⟩
      obtain ⟨-, -, ⟨_, -, -, hp⟩ | ⟨_, -, -, hp⟩ | ⟨-, hp⟩⟩ := planHostUpdate_spec hplan
      · cases hp
        trivial
      · obtain rfl : update = some (.modify, ⟨cfg.mac, cfg.domainName, planned⟩) := hp
        exact hupdate _ _
      · obtain rfl : update = some (.addLast, ⟨cfg.mac, cfg.domainName, planned⟩) := hp
        exact hupdate _ _

theorem releaseMachineIP_calls_own (netName : String) :
    (releaseMachineIP netName cfg.domainName cfg.mac).run.Calls fun o : NetworkOp =>
      ∀ cmd i host flags, o = .update cmd i host flags →
        i = 0 ∧ host.mac = cfg.mac ∧ host.name = cfg.domainName := by
  refine .bind_except (networkXML_calls_query fun _ _ _ _ h => nomatch h) fun network => ?_
  split
  · trivial
  · refine .adapt ⟨?_, fun _ => trivial⟩
    rintro _ _ _ _ ⟨⟩
    exact ⟨rfl, rfl, rfl⟩

/-! A program that can fail and goes on with what it has found. -/

theorem tools_lift_bind {K : α → Set Tool → Prop} {x : LibvirtM α}
    {f : Except GoError α → LibvirtM β}
    (hx : x.run.Obeys (toolMonitor cfg) (fun q' r => ∀ a, r = .ok a → K a q') q)
    (herr : ∀ err q', (f (.error err)).run.Obeys (toolMonitor cfg) (fun _ _ => True) q')
    (hok : ∀ a q', K a q' → (f (.ok a)).run.Obeys (toolMonitor cfg) (fun _ _ => True) q') :
    (ExceptT.lift x.run >>= f).run.Obeys (toolMonitor cfg) (fun _ _ => True) q := by
  refine Prog.obeys_lift_bind.mpr (hx.mono fun q' r hr => ?_)
  cases r with
  | error err => exact herr err q'
  | ok a => exact hok a q' (hr a rfl)

theorem tools_adapt_bind {K : α → Set Tool → Prop} {x : LibvirtM α} {f : α → LibvirtM β}
    {g : GoError → GoError}
    (hx : x.run.Obeys (toolMonitor cfg) (fun q' r => ∀ a, r = .ok a → K a q') q)
    (hok : ∀ a q', K a q' → (f a).run.Obeys (toolMonitor cfg) (fun _ _ => True) q') :
    (ExceptT.adapt g x >>= f).run.Obeys (toolMonitor cfg) (fun _ _ => True) q := by
  refine Prog.obeys_bind_except.mpr (Prog.obeys_adapt.mpr (hx.mono fun q' r hr => ?_))
  cases r with
  | error err => trivial
  | ok a => exact hok a q' (hr a rfl)

/-! What the lookups find. -/

theorem lookupStoragePoolByName_tools :
    (Conn.lookupStoragePoolByName cfg.domainPool).run.Obeys (toolMonitor cfg)
      (fun q' r => ∀ pool, r = .ok pool → .pool pool ∈ q') q := by
  refine ⟨needless rfl trivial, ?_⟩
  rintro _ pool rfl
  exact Or.inr .pool

theorem lookupStorageVolByName_tools {pool : StoragePoolRef} {name : String}
    (hpool : .pool pool ∈ q) (hname : cfg.OwnVolume name) :
    (Conn.lookupStorageVolByName pool name).run.Obeys (toolMonitor cfg)
      (fun q' r => ∀ vol, r = .ok vol → .vol vol ∈ q') q := by
  refine ⟨needless rfl trivial, ?_⟩
  rintro _ vol rfl
  exact Or.inr (.vol hpool hname)

theorem lookupNetworkByName_tools :
    (Conn.lookupNetworkByName cfg.network).run.Obeys (toolMonitor cfg)
      (fun q' r => ∀ net, r = .ok net → .net net ∈ q') q := by
  refine ⟨needless rfl trivial, ?_⟩
  rintro _ net rfl
  exact Or.inr .net

theorem newStream_tools :
    (Conn.newStream 0).run.Obeys (toolMonitor cfg)
      (fun q' r => ∀ stream, r = .ok stream → .stream stream ∈ q' ∧ q ⊆ q') q := by
  refine ⟨needless rfl trivial, ?_⟩
  rintro _ stream rfl
  exact ⟨Or.inr .stream, fun _ ht => Or.inl ht⟩

/-! The programs. -/

theorem storageVolUpload_tools {buff : Bytes} {vol : StorageVolRef} (hvol : .vol vol ∈ q) :
    (storageVolUpload buff vol).run.Obeys (toolMonitor cfg) (fun _ _ => True) q := by
  refine tools_adapt_bind newStream_tools fun stream q' hq => ?_
  have hknown : ∀ t ∈ [Tool.vol vol, Tool.stream stream], t ∈ q' := by
    intro t ht
    rcases List.mem_cons.mp ht with rfl | ht
    · exact hq.2 hvol
    · rw [List.mem_singleton.mp ht]
      exact hq.1
  have hown : ∀ t ∈ [Tool.stream stream], t ∈ q' := fun t ht =>
    hknown t (List.mem_cons_of_mem _ ht)
  refine (tools_of_calls ?_).mono fun _ _ _ => trivial
  refine .bind_except (.adapt ⟨⟨hknown, trivial⟩, fun _ => trivial⟩) fun _ =>
    .lift_bind ⟨⟨hown, trivial⟩, fun _ => trivial⟩ fun r => ?_
  cases r with
  | error err => exact .lift_bind ⟨⟨hown, trivial⟩, fun _ => trivial⟩ fun _ => trivial
  | ok _ => exact .adapt ⟨⟨hown, trivial⟩, fun _ => trivial⟩

theorem storageVolCreateXML_own {pool : StoragePoolRef} {xml : StorageVolume}
    (hpool : .pool pool ∈ q) (hname : cfg.OwnVolume xml.name) :
    (∀ t ∈ (LibvirtOp.storageVolCreateXML pool xml 0).uses, t ∈ q)
      ∧ (LibvirtOp.storageVolCreateXML pool xml 0).NamesOwn cfg := by
  refine ⟨fun t ht => ?_, hname⟩
  rw [List.mem_singleton.mp ht]
  exact hpool

theorem createISODisk_tools {pool : StoragePoolRef} (hpool : .pool pool ∈ q) :
    (createISODisk pool cfg).run.Obeys (toolMonitor cfg) (fun _ _ => True) q := by
  refine tools_bind (getVolumePath_calls needless_of_asksStorage _ _) fun path q₁ h₁ => ?_
  split
  · trivial
  refine tools_bind (.adapt (writeCloudInitISO_calls needless_of_asksStorage cfg))
    fun buff q₂ h₂ => tools_bind (.adapt (.bind_except (.adapt
      ⟨storageVolCreateXML_own (h₂ (h₁ hpool)) (Or.inr rfl), fun _ => trivial⟩)
      fun _ => .adapt ⟨needless rfl trivial, fun _ => trivial⟩)) fun path q₃ h₃ => ?_
  refine Prog.obeys_bind_except.mpr
    ((lookupStorageVolByName_tools (h₃ (h₂ (h₁ hpool))) (Or.inr rfl)).mono fun q₄ r hr => ?_)
  cases r with
  | error err => trivial
  | ok vol =>
    exact tools_adapt_bind (K := fun _ _ => True)
      ((storageVolUpload_tools (hr vol rfl)).mono fun _ _ _ _ _ => trivial) fun _ _ _ => trivial

theorem createDomain_tools :
    (createDomain cfg).run.Obeys (toolMonitor cfg) (fun _ _ => True) q := by
  refine tools_adapt_bind lookupStoragePoolByName_tools fun domainPool q₀ hpool =>
    tools_bind (.adapt ⟨needless rfl trivial, fun _ => trivial⟩) fun basePool q₁ h₁ =>
    tools_bind (.adapt (createRootDisk_calls needless_of_asksStorage fun xml hxml =>
      storageVolCreateXML_own (h₁ hpool) (Or.inl hxml))) fun diskPath q₂ h₂ =>
    tools_adapt_bind (K := fun _ _ => True)
      ((createISODisk_tools (h₂ (h₁ hpool))).mono fun _ _ _ _ _ => trivial)
      fun cloudISOPath q₃ _ =>
    tools_adapt_bind lookupNetworkByName_tools fun network q₄ hnet =>
    Prog.obeys_bind_except.mpr
      ((onNetwork_tools hnet (reserveMachineIP_calls_own _)).mono fun q₅ r _ => ?_)
  cases r with
  | error err => trivial
  | ok _ =>
    have hcalls : (defineAndStart cfg (machineDomain cfg diskPath cloudISOPath)).run.Calls
        fun o => (∀ t ∈ LibvirtOp.uses o, t ∈ q₅) ∧ LibvirtOp.NamesOwn cfg o :=
      defineAndStart_calls (needless rfl trivial) (fun _ => needless rfl trivial)
        fun _ => needless rfl trivial
    exact (tools_of_calls hcalls).mono fun _ _ _ => trivial

theorem deleteVolume_tools {name : String} (hname : cfg.OwnVolume name) :
    (deleteVolume cfg.domainPool name).run.Obeys (toolMonitor cfg) (fun _ _ => True) q := by
  refine tools_lift_bind lookupStoragePoolByName_tools (fun err q' => ?_) fun pool q₁ hpool =>
    tools_lift_bind (lookupStorageVolByName_tools hpool hname) (fun err q' => ?_)
      fun vol q₂ hvol => Prog.obeys_adapt.mpr ⟨⟨fun t ht => ?_, trivial⟩, fun _ => trivial⟩
  · dsimp only
    split <;> trivial
  · dsimp only
    split <;> trivial
  · rw [List.mem_singleton.mp ht]
    exact hvol

theorem deleteResources_tools :
    (deleteResources cfg).run.Obeys (toolMonitor cfg) (fun _ _ => True) q := by
  have hdomain : (deleteDomain cfg.domainName).run.Calls fun o : LibvirtOp =>
      (∀ t ∈ o.uses, t ∈ q) ∧ o.NamesOwn cfg := by
    refine deleteDomain_calls (fun o ho => needless ?_ ?_) (fun _ => ?_) (fun _ => ?_) _
    · cases o <;> first | rfl | cases ho
    · cases o <;> trivial
    · exact needless rfl trivial
    · exact needless rfl trivial
  refine tools_bind hdomain fun _ q₁ _ =>
    Prog.obeys_bind_except.mpr ((deleteVolume_tools (Or.inl rfl)).mono fun q₂ r _ => ?_)
  cases r with
  | error err => trivial
  | ok _ => ?_
  refine Prog.obeys_bind_except.mpr ((deleteVolume_tools (Or.inr rfl)).mono fun q₃ r _ => ?_)
  cases r with
  | error err => trivial
  | ok _ => ?_
  refine tools_lift_bind lookupNetworkByName_tools (fun err q' => ?_) fun net q' hnet =>
    onNetwork_tools hnet (releaseMachineIP_calls_own _)
  dsimp only
  split <;> trivial

/-- **Every operation keeps to the handles of its machine**, from whichever
handles it starts with. The parts above are put together in the order of the
source. -/
theorem provideOn_tools (o : MachineOp) :
    (provideOn o).Obeys (toolMonitor o.cfg) (fun _ _ => True) q := by
  cases o with
  | getMachineState cfg =>
    have hcalls : (getDomainState cfg.domainName).run.Calls fun x : LibvirtOp =>
        (∀ t ∈ x.uses, t ∈ q) ∧ x.NamesOwn cfg := by
      refine .lift_bind ⟨needless rfl trivial, fun _ => trivial⟩ fun found => ?_
      cases found with
      | error err =>
        dsimp only
        split <;> trivial
      | ok dom =>
        exact .bind_except (.adapt ⟨needless rfl trivial, fun _ => trivial⟩) fun _ => trivial
    exact (tools_of_calls hcalls).mono fun _ _ _ => trivial
  | createMachine cfg => exact createDomain_tools
  | startMachine cfg =>
    have hcalls : (startDomain cfg).run.Calls fun x : LibvirtOp =>
        (∀ t ∈ x.uses, t ∈ q) ∧ x.NamesOwn cfg :=
      .bind_except (.adapt ⟨needless rfl trivial, fun _ => trivial⟩) fun _ =>
        .adapt ⟨needless rfl trivial, fun _ => trivial⟩
    exact (tools_of_calls hcalls).mono fun _ _ _ => trivial
  | deleteMachine cfg => exact deleteResources_tools
  | getMachineAddress cfg =>
    refine tools_adapt_bind lookupNetworkByName_tools fun net q' hnet =>
      onNetwork_tools hnet (.bind_except (.adapt ⟨?_, fun _ => trivial⟩) fun _ => trivial)
    rintro _ _ _ _ ⟨⟩

end Obeys

/-! ## What a call changes -/

section Sem

variable {s s' : Host} {o : LibvirtOp} {r : LibvirtSig.Ans o}

/-- **A call changes the domain of its handle only**, or the one it defines.
Any other name is looked up with the same result before and after. -/
theorem libvirtSem_lookup_of_ne {name : String} (h : libvirtSem s o r s')
    (hdefine : ∀ xml, o = .domainDefineXML xml → name ≠ xml.name)
    (hhandle : ∀ dom, o.handle = some dom → name ≠ dom.name) :
    s'.domains.lookup name = s.domains.lookup name := by
  cases o with
  | domainDefineXML xml =>
    rcases libvirtSem_domainDefineXML h with ⟨-, rfl⟩ | ⟨_, -, -, d, -, -, rfl⟩
    · rfl
    · exact AList.lookup_insert_ne (hdefine xml rfl)
  | setAutostart dom autostart =>
    rcases libvirtSem_setAutostart h with ⟨-, rfl⟩ | ⟨-, d, -, -, rfl⟩
    · rfl
    · exact AList.lookup_insert_ne (hhandle dom rfl)
  | create dom =>
    rcases libvirtSem_create h with ⟨-, rfl⟩ | ⟨-, d, -, -, rfl⟩
    · rfl
    · exact AList.lookup_insert_ne (hhandle dom rfl)
  | destroy dom =>
    rcases libvirtSem_destroy h with ⟨-, rfl⟩ | ⟨-, d, -, -, rfl⟩
    · rfl
    · dsimp only
      split
      · exact AList.lookup_insert_ne (hhandle dom rfl)
      · exact AList.lookup_erase_ne (hhandle dom rfl)
  | undefine dom =>
    rcases libvirtSem_undefine h with ⟨-, rfl⟩ | ⟨-, d, -, -, rfl⟩
    · rfl
    · dsimp only
      split
      · exact AList.lookup_insert_ne (hhandle dom rfl)
      · exact AList.lookup_erase_ne (hhandle dom rfl)
  | _ => rw [libvirtSem_domains h rfl]

/-- **The end of an upload** is that of the volume the stream is bound to. The
call names only the stream, so that which volume is written depends on what
was bound to it before. -/
theorem libvirtSem_finish_volume {stream : StreamRef} {r : Except GoError Unit}
    {pool name : String} (h : libvirtSem s (.finish stream) r s')
    (hne : ∀ st, s.storage.streams stream.id = some st → st.target ≠ some (pool, name)) :
    s'.storage.volume pool name = s.storage.volume pool name := by
  rcases LibvirtChoice.exists_answer.mp h with ⟨-, rfl⟩ | ⟨-, rfl⟩
  · rfl
  simp only [Host.onStorage, Storage.finish]
  split
  · rfl
  rename_i st hst
  split
  · rfl
  rename_i p n htarget
  split
  · rfl
  · refine Storage.volume_setVolume_of_ne _ _ ?_
    rintro ⟨rfl, rfl⟩
    exact hne st hst htarget

@[simp] theorem Storage.streams_setVolume (s : Storage) (pool name : String) (v : Option Volume) :
    (s.setVolume pool name v).streams = s.streams := by
  unfold Storage.setVolume
  split <;> rfl

@[simp] theorem Storage.nextStream_setVolume (s : Storage) (pool name : String)
    (v : Option Volume) : (s.setVolume pool name v).nextStream = s.nextStream := by
  unfold Storage.setVolume
  split <;> rfl

/-- **What a call makes of the streams**: a new one, or one that is bound to a
volume, or one that keeps what it is bound to or is closed. The content is
left aside; what is bound to what is all that matters here. -/
inductive StreamEdit (s s' : Storage) : LibvirtOp → Prop where
  | new {flags : ℕ}
      (hstreams : s'.streams = Function.update s.streams s.nextStream (some ⟨none, []⟩))
      (hnext : s'.nextStream = s.nextStream + 1) : StreamEdit s s' (.newStream flags)
  | bind {vol : StorageVolRef} {stream : StreamRef} {offset length flags : ℕ}
      (hstreams : s'.streams = Function.update s.streams stream.id
        (some ⟨some (vol.pool, vol.name), []⟩))
      (hnext : s'.nextStream = s.nextStream) :
      StreamEdit s s' (.upload vol stream offset length flags)
  | keep {o : LibvirtOp}
      (hstreams : ∀ id st, s'.streams id = some st →
        ∃ st₀, s.streams id = some st₀ ∧ st.target = st₀.target)
      (hnext : s'.nextStream = s.nextStream) : StreamEdit s s' o

theorem StreamEdit.same {s : Storage} {o : LibvirtOp} : StreamEdit s s o :=
  .keep (fun _ st hst => ⟨st, hst, rfl⟩) rfl

/-- A stream is closed, or keeps what it is bound to. -/
theorem StreamEdit.of_update {s s' : Storage} {o : LibvirtOp} {i : ℕ} {x : Option Stream}
    (hx : ∀ st, x = some st → ∃ st₀, s.streams i = some st₀ ∧ st.target = st₀.target)
    (hstreams : s'.streams = Function.update s.streams i x)
    (hnext : s'.nextStream = s.nextStream) : StreamEdit s s' o := by
  refine .keep (fun id st hst => ?_) hnext
  rw [hstreams] at hst
  by_cases hid : id = i
  · subst hid
    rw [Function.update_self] at hst
    exact hx st hst
  · rw [Function.update_of_ne hid] at hst
    exact ⟨st, hst, rfl⟩

theorem libvirtSem_streams (h : libvirtSem s o r s') : StreamEdit s.storage s'.storage o := by
  cases hstorage : o.touchesStorage with
  | false =>
    rw [libvirtSem_storage h hstorage]
    exact .same
  | true =>
    cases o with
    | newStream flags =>
      rcases LibvirtChoice.exists_answer.mp h with ⟨-, rfl⟩ | ⟨-, rfl⟩
      · exact .same
      · exact .new rfl rfl
    | storageVolCreateXML pool xml flags =>
      rcases LibvirtChoice.exists_answer.mp h with ⟨-, rfl⟩ | ⟨-, rfl⟩
      · exact .same
      simp only [Host.onStorage, Storage.storageVolCreateXML]
      split
      · exact .same
      split
      · exact .same
      · exact .keep (fun _ st hst => ⟨st, by simpa using hst, rfl⟩) (by simp)
    | deleteVol vol flags =>
      rcases LibvirtChoice.exists_answer.mp h with ⟨-, rfl⟩ | ⟨-, rfl⟩
      · exact .same
      simp only [Host.onStorage, Storage.deleteVol]
      split
      · exact .same
      · exact .keep (fun _ st hst => ⟨st, by simpa using hst, rfl⟩) (by simp)
    | upload vol stream offset length flags =>
      rcases LibvirtChoice.exists_answer.mp h with ⟨-, rfl⟩ | ⟨-, rfl⟩
      · exact .same
      simp only [Host.onStorage, Storage.upload]
      split
      · exact .bind rfl (by simp)
      · exact .same
      · exact .same
    | sendAll stream chunks =>
      rcases LibvirtChoice.exists_answer.mp h with ⟨-, rfl⟩ | ⟨-, rfl⟩
      · exact .same
      simp only [Host.onStorage, Storage.sendAll]
      split
      · exact .same
      · rename_i st hst
        refine .of_update ?_ rfl rfl
        rintro _ ⟨⟩
        exact ⟨st, hst, rfl⟩
    | finish stream =>
      have hclose {t : Storage} (hstreams : t.streams
          = Function.update s.storage.streams stream.id none)
          (hnext : t.nextStream = s.storage.nextStream) :
          StreamEdit s.storage t (.finish stream) := by
        refine .of_update ?_ hstreams hnext
        rintro _ ⟨⟩
      rcases LibvirtChoice.exists_answer.mp h with ⟨-, rfl⟩ | ⟨-, rfl⟩
      · exact .same
      simp only [Host.onStorage, Storage.finish]
      split
      · exact .same
      split
      · exact hclose rfl rfl
      split
      · exact .same
      · exact hclose (by simp) (by simp)
    | abort stream =>
      rcases LibvirtChoice.exists_answer.mp h with ⟨-, rfl⟩ | ⟨-, rfl⟩
      · exact .same
      · refine .of_update ?_ rfl rfl
        rintro _ ⟨⟩
    | _ => cases hstorage

theorem libvirtSem_newStream_id {flags : ℕ} {stream : StreamRef}
    (h : libvirtSem s (.newStream flags) (.ok stream) s') :
    stream.id = s.storage.nextStream ∧ s'.storage.nextStream = s.storage.nextStream + 1 := by
  rcases LibvirtChoice.exists_answer.mp h with ⟨⟨code, hr⟩, -⟩ | ⟨hr, rfl⟩
  · cases hr
  · cases hr
    exact ⟨rfl, rfl⟩

end Sem

/-! ## What one call of an operation changes -/

/-- A handle is one of a machine's. -/
def Tool.Of (cfg : MachineConfig) : Tool → Prop
  | .pool ref => ref.name = cfg.domainPool
  | .vol ref => ref.pool = cfg.domainPool ∧ cfg.OwnVolume ref.name
  | .stream _ => True
  | .net ref => ref.name = cfg.network

/-- What a stream is bound to, if anything, is among some things. For a
machine's streams these are its volumes. -/
def Storage.BoundIn (s : Storage) (id : ℕ) (A : Set Asset) : Prop :=
  ∀ st, s.streams id = some st → ∀ pool name, st.target = some (pool, name) →
    .volume pool name ∈ A

theorem StreamEdit.boundIn {s s' : Storage} {o : LibvirtOp} {id : ℕ} {A : Set Asset}
    (h : StreamEdit s s' o) (hold : s.BoundIn id A)
    (hbind : ∀ vol stream offset length flags, o = .upload vol stream offset length flags →
      stream.id = id → .volume vol.pool vol.name ∈ A) : s'.BoundIn id A := by
  intro st hst pool name htarget
  cases h with
  | new hstreams _ =>
    rw [hstreams] at hst
    by_cases hid : id = s.nextStream
    · subst hid
      rw [Function.update_self] at hst
      cases hst
      cases htarget
    · rw [Function.update_of_ne hid] at hst
      exact hold st hst pool name htarget
  | @bind vol stream offset length flags hstreams _ =>
    rw [hstreams] at hst
    by_cases hid : id = stream.id
    · subst hid
      rw [Function.update_self] at hst
      cases hst
      cases htarget
      exact hbind vol stream offset length flags rfl rfl
    · rw [Function.update_of_ne hid] at hst
      exact hold st hst pool name htarget
  | keep hstreams _ =>
    obtain ⟨st₀, hst₀, heq⟩ := hstreams id st hst
    exact hold st₀ hst₀ pool name (heq ▸ htarget)

theorem StreamEdit.nextStream_le {s s' : Storage} {o : LibvirtOp} (h : StreamEdit s s' o) :
    s.nextStream ≤ s'.nextStream := by
  cases h with
  | new _ hnext => exact hnext ▸ Nat.le_succ _
  | bind _ hnext | keep _ hnext => exact hnext.ge

/-- What is known of a machine's handles: they are of its own, and an upload
over one of its streams is to one of its volumes. The last is about the host
and not only about the handles, and so depends on what others do to the
streams. -/
structure Holds (cfg : MachineConfig) (q : Set DomainRef × Set Tool) (s : Host) : Prop where
  domains : ∀ dom ∈ q.1, dom.name = cfg.domainName
  tools : ∀ t ∈ q.2, t.Of cfg
  streams : ∀ stream, .stream stream ∈ q.2 → s.storage.BoundIn stream.id cfg.assets

/-- The two monitors of a machine's operations: `handleMonitor` for domains
and `toolMonitor` for the rest. -/
def machineMonitor (cfg : MachineConfig) : Monitor LibvirtSig (Set DomainRef × Set Tool) :=
  (handleMonitor cfg.domainName cfg.domainUUID).prod (toolMonitor cfg)

theorem provideOn_machineMonitor (o : MachineOp) :
    (provideOn o).Obeys (machineMonitor o.cfg) (fun _ _ => True) (∅, ∅) :=
  ((provideOn_obeys o).prod (provideOn_tools o)).mono fun _ _ _ => trivial

section Step

variable {cfg : MachineConfig} {q : Set DomainRef × Set Tool} {s s' : Host} {o : LibvirtOp}
  {r : LibvirtSig.Ans o}

/-- An update for a machine leaves every other entry as it is. libvirt finds
the entry by its MAC or its name, and those are the machine's. -/
theorem filter_update {d : String} {network network' : Network} {cmd : NetworkUpdateCommand}
    {host : NetworkDHCPHost} {p : NetworkDHCPHost → Bool} (hmac : host.mac = deriveDomainMAC d)
    (hname : host.name = d) (hp : ∀ e, p e = true → ¬ ownEntry d e = true)
    (hu : network.update cmd 0 host = some network') :
    network'.hosts.filter p = network.hosts.filter p := by
  have hdrop {e : NetworkDHCPHost} (h : foldKey e.mac = foldKey (deriveDomainMAC d) ∨ e.name = d)
      (pre post : List NetworkDHCPHost) : (pre ++ e :: post).filter p = (pre ++ post).filter p := by
    rw [List.filter_append, List.filter_cons_of_neg fun he => hp e he (ownEntry_iff.mpr h),
      List.filter_append]
  cases cmd with
  | addLast =>
    rw [(Network.update_addLast hu).1, hdrop (Or.inr hname), network.hosts_eq]
  | modify =>
    obtain ⟨pre, a, post, hhosts, hhosts', -, ha, -⟩ := Network.update_modify hu
    rw [hmac, hname] at ha
    rw [hhosts, hhosts', hdrop (Or.inr hname), hdrop ha]
  | delete =>
    obtain ⟨pre, a, post, hhosts, hhosts', ha, -, -⟩ := Network.update_delete hu
    rw [hmac] at ha
    rw [hhosts, hhosts', hdrop (Or.inl ha)]

/-- **A call that the monitors allow changes nothing but what is the machine's
own.** Each field is one kind of thing, and for each it is the handle that
says which one the call is about. -/
theorem Holds.keepsBut (h : Holds cfg q s) (ho : (machineMonitor cfg).allows q o)
    (hs : libvirtSem s o r s') : KeepsBut cfg.assets s s' where
  domains name hname := by
    refine libvirtSem_lookup_of_ne hs ?_ ?_
    · rintro xml rfl
      rw [ho.1.1]
      exact hname
    · rintro dom hdom rfl
      refine hname (h.domains dom ?_)
      cases o with
      | lookupDomainByName _ | domainDefineXML _ => cases hdom
      | _ => exact ho.1 dom hdom
  volumes pool name hname := by
    have hvol {ref : StorageVolRef} (href : .vol ref ∈ q.2) :
        ¬ (ref.pool = pool ∧ ref.name = name) := by
      rintro ⟨rfl, rfl⟩
      exact hname (h.tools _ href)
    cases o with
    | finish stream =>
      refine libvirtSem_finish_volume hs fun st hst htarget => hname ?_
      exact h.streams stream (ho.2.1 _ (List.mem_singleton_self _)) st hst pool name htarget
    | storageVolCreateXML ref xml flags =>
      refine libvirtSem_volume hs ?_
      have hpool : ref.name = cfg.domainPool := h.tools _ (ho.2.1 _ (List.mem_singleton_self _))
      have hne : ¬ (ref.name = pool ∧ xml.name = name) := by
        rintro ⟨rfl, rfl⟩
        exact hname ⟨hpool, ho.2.2⟩
      simpa [LibvirtOp.leavesVolume] using not_and_or.mp hne
    | deleteVol ref flags =>
      refine libvirtSem_volume hs ?_
      simpa [LibvirtOp.leavesVolume] using
        not_and_or.mp (hvol (ho.2.1 _ (List.mem_singleton_self _)))
    | upload ref stream offset length flags =>
      refine libvirtSem_volume hs ?_
      simpa [LibvirtOp.leavesVolume] using not_and_or.mp (hvol (ho.2.1 _ List.mem_cons_self))
    | _ => exact libvirtSem_volume hs rfl
  targets := libvirtSem_target hs
  entries net p hp := by
    cases o with
    | network ref x =>
      have hnet : ref.name = cfg.network := h.tools _ (ho.2.1 _ (List.mem_singleton_self _))
      rcases libvirtSem_network hs with ⟨rfl, -⟩ | ⟨network, network', hn, hx, rfl⟩
      · rfl
      dsimp only
      by_cases hne : net = ref.name
      · subst hne
        rw [Function.update_self, hn, Option.map_some, Option.map_some, Option.some.injEq]
        cases x with
        | getXMLDesc flags => rw [(networkSem_getXMLDesc.mp hx).1]
        | getDHCPLeases => rw [networkSem_getDHCPLeases hx]
        | hang => exact r.elim
        | update cmd parentIndex host flags =>
          obtain ⟨rfl, hmac, hname⟩ := ho.2.2
          rcases networkSem_update hx with ⟨-, rfl⟩ | ⟨-, hu⟩
          · rfl
          · exact filter_update hmac hname (fun e he hown => hp e he ⟨hnet, hown⟩) hu
      · rw [Function.update_of_ne hne]
    | _ => rw [libvirtSem_networks hs rfl]
  shapes net _ := by
    cases o with
    | network ref x =>
      rcases libvirtSem_network hs with ⟨rfl, -⟩ | ⟨network, network', hn, hx, rfl⟩
      · rfl
      dsimp only
      by_cases hne : net = ref.name
      · subst hne
        rw [Function.update_self, hn, Option.map_some, Option.map_some, Option.some.injEq]
        exact networkSem_shape hx
      · rw [Function.update_of_ne hne]
    | _ => rw [libvirtSem_networks hs rfl]

/-- **What is known of the handles stays true** of the machine that makes the
call, with the handle it has got by it. -/
theorem Holds.call (h : Holds cfg q s) (ho : (machineMonitor cfg).allows q o)
    (hs : libvirtSem s o r s') : Holds cfg ((machineMonitor cfg).next q o r) s' where
  domains := by
    intro dom hdom
    cases o with
    | lookupDomainByName n =>
      rcases hdom with hdom | rfl
      · exact h.domains dom hdom
      · obtain ⟨d, -, rfl⟩ := libvirtSem_lookupDomainByName_ok hs
        exact ho.1
    | domainDefineXML xml =>
      rcases hdom with hdom | rfl
      · exact h.domains dom hdom
      · rcases libvirtSem_domainDefineXML hs with ⟨⟨e, he⟩, -⟩ | ⟨u, -, he, -⟩
        · cases he
        · cases he
          exact ho.1.1
    | _ => exact h.domains dom hdom
  tools := by
    rintro t (ht | ht)
    · exact h.tools t ht
    · cases ht with
      | pool =>
        rw [(libvirtSem_lookupStoragePoolByName_ok hs).1]
        rfl
      | vol hpool hname =>
        rw [libvirtSem_lookupStorageVolByName_ok hs]
        exact ⟨h.tools _ hpool, hname⟩
      | stream => trivial
      | net =>
        rw [(libvirtSem_lookupNetworkByName_ok hs).1]
        rfl
  streams := by
    rintro stream (ht | ht)
    · refine (libvirtSem_streams hs).boundIn (h.streams stream ht) ?_
      rintro vol _ offset length flags rfl -
      exact h.tools _ (ho.2.1 _ List.mem_cons_self)
    · cases ht
      intro st hst pool name htarget
      cases (libvirtSem_newStream_ok hs).symm.trans hst
      cases htarget

/-- **What is known of the handles stays true** of a machine whose streams are
none of the call's. So calls of others do no harm as long as streams are not
shared. -/
theorem Holds.other (h : Holds cfg q s) (hs : libvirtSem s o r s')
    (ho : ∀ vol stream offset length flags, o = .upload vol stream offset length flags →
      .stream stream ∉ q.2) : Holds cfg q s' where
  domains := h.domains
  tools := h.tools
  streams := by
    intro stream ht
    refine (libvirtSem_streams hs).boundIn (h.streams stream ht) ?_
    rintro vol ⟨_⟩ offset length flags rfl rfl
    exact absurd ht (ho vol _ offset length flags rfl)

end Step

/-! ## Operations side by side -/

/-- **What clients run**: each the operations of its machine, any number of
them one after the other. Two clients can be of the same machine. -/
def operationsOf {ι : Type} (cfg : ι → MachineConfig) (i : ι) (p : Prog LibvirtSig Unit) : Prop :=
  ∃ o : MachineOp, o.cfg = cfg i ∧ p = (provideOn o >>= fun _ => .done ())

/-- The streams of a host are as they were. -/
def SameStreams (s s' : Host) : Prop :=
  s'.storage.streams = s.storage.streams ∧ s'.storage.nextStream = s.storage.nextStream

/-- What is known of the handles of all clients: no stream is of two of them.
That there is none is due to libvirt, which gives every new stream a number of
its own. -/
structure HandlesApart {ι : Type} (cfg : ι → MachineConfig) (q : ι → Set DomainRef × Set Tool)
    (s : Host) : Prop where
  holds : ∀ i, Holds (cfg i) (q i) s
  opened : ∀ i stream, .stream stream ∈ (q i).2 → stream.id < s.storage.nextStream
  apart : ∀ i j stream, .stream stream ∈ (q i).2 → .stream stream ∈ (q j).2 → i = j

namespace HandlesApart

variable {ι : Type} [DecidableEq ι] {cfg : ι → MachineConfig}
  {q : ι → Set DomainRef × Set Tool} {s s' : Host} {i : ι}

/-- The state of a host and the handles of one client change. -/
theorem set {qi : Set DomainRef × Set Tool} (h : HandlesApart cfg q s)
    (hnext : s.storage.nextStream ≤ s'.storage.nextStream)
    (hothers : ∀ j, j ≠ i → Holds (cfg j) (q j) s') (hi : Holds (cfg i) qi s')
    (hopened : ∀ stream, .stream stream ∈ qi.2 → stream.id < s'.storage.nextStream)
    (hapart : ∀ j stream, j ≠ i → .stream stream ∈ qi.2 → .stream stream ∉ (q j).2) :
    HandlesApart cfg (Function.update q i qi) s' where
  holds j := by
    by_cases hj : j = i
    · subst hj
      rw [Function.update_self]
      exact hi
    · rw [Function.update_of_ne hj]
      exact hothers j hj
  opened j stream hst := by
    by_cases hj : j = i
    · subst hj
      rw [Function.update_self] at hst
      exact hopened stream hst
    · rw [Function.update_of_ne hj] at hst
      exact (h.opened j stream hst).trans_le hnext
  apart j k stream hst hst' := by
    by_cases hj : j = i
    · subst hj
      by_cases hk : k = j
      · exact hk.symm
      · rw [Function.update_self] at hst
        rw [Function.update_of_ne hk] at hst'
        exact absurd hst' (hapart k stream hk hst)
    · rw [Function.update_of_ne hj] at hst
      by_cases hk : k = i
      · subst hk
        rw [Function.update_self] at hst'
        exact absurd hst (hapart j stream hj hst')
      · rw [Function.update_of_ne hk] at hst'
        exact h.apart j k stream hst hst'

/-- **One call of a client**, from a state in which all is well, leads to one
in which all is well: for itself by `Holds.call`, for the others by
`Holds.other`. -/
theorem call (h : HandlesApart cfg q s) {o : LibvirtOp} {r : LibvirtSig.Ans o}
    (ho : (machineMonitor (cfg i)).allows (q i) o) (hs : libvirtSem s o r s') :
    HandlesApart cfg (Function.update q i ((machineMonitor (cfg i)).next (q i) o r)) s' := by
  have hnext := (libvirtSem_streams hs).nextStream_le
  refine h.set hnext (fun j hj => (h.holds j).other hs ?_) ((h.holds i).call ho hs) ?_ ?_
  · rintro vol stream offset length flags rfl hst
    exact hj (h.apart j i stream hst (ho.2.1 _ (List.mem_cons_of_mem _ List.mem_cons_self)))
  · rintro stream (hst | hst)
    · exact (h.opened i stream hst).trans_le hnext
    · cases hst
      obtain ⟨hid, hnew⟩ := libvirtSem_newStream_id hs
      omega
  · rintro j stream hj (hst | hst) hst'
    · exact hj (h.apart j i stream hst' hst)
    · cases hst
      -- a stream that is new has not been opened before
      have hid := (libvirtSem_newStream_id hs).1
      have hlt := h.opened j stream hst'
      omega

/-- A client begins a new operation, with no handles. Those of the operation
before are forgotten, as in the source, where they are local. -/
theorem start (h : HandlesApart cfg q s) (i : ι) :
    HandlesApart cfg (Function.update q i (∅, ∅)) s :=
  h.set le_rfl (fun j _ => h.holds j) ⟨nofun, nofun, nofun⟩ nofun nofun

omit [DecidableEq ι] in
theorem sameStreams (h : HandlesApart cfg q s) (hs : SameStreams s s') :
    HandlesApart cfg q s' where
  holds j := by
    refine ⟨(h.holds j).domains, (h.holds j).tools, fun stream hst => ?_⟩
    unfold Storage.BoundIn
    rw [hs.1]
    exact (h.holds j).streams stream hst
  opened j stream hst := hs.2 ▸ h.opened j stream hst
  apart := h.apart

end HandlesApart

section Side

variable {ι : Type} [DecidableEq ι] {cfg : ι → MachineConfig} {env : Host → Host → Prop}
  {B : Set Asset} {c₀ c c' : Pool ι Host LibvirtSig Unit}

/-- What is known along a run of clients from a host in a given state: the
invariant, and what has been kept since the beginning. -/
def Beginning (cfg : ι → MachineConfig) (B : Set Asset) (s₀ : Host)
    (q : ι → Set DomainRef × Set Tool) (s : Host) : Prop :=
  HandlesApart cfg q s ∧ KeepsBut (B ∪ ⋃ i, (cfg i).assets) s₀ s

theorem monitored_of_reach (henv : ∀ s s', env s s' → KeepsBut B s s' ∧ SameStreams s s')
    (hidle : ∀ i, c₀.prog i = .done ())
    (hreach : Pool.Reach libvirtSem (operationsOf cfg) env (fun _ _ => True) c₀ c) :
    Pool.Monitored (fun i => machineMonitor (cfg i)) (Beginning cfg B c₀.state) c := by
  have hstart : Pool.Monitored (fun i => machineMonitor (cfg i)) (Beginning cfg B c₀.state) c₀ := by
    refine ⟨fun _ => (∅, ∅), ⟨⟨fun _ => ⟨nofun, nofun, nofun⟩, nofun, nofun⟩, .refl _ _⟩,
      fun i => ?_⟩
    rw [hidle i]
    trivial
  refine hstart.reach (fun _ => (∅, ∅)) ?_ ?_ ?_ ?_ hreach
  · intro q s i o r s' h ho hs _
    have hown := ((h.1.holds i).keepsBut ho hs).mono
      (B := B ∪ ⋃ i, (cfg i).assets) fun x hx => Or.inr (Set.mem_iUnion.mpr ⟨i, hx⟩)
    exact ⟨h.1.call ho hs, h.2.trans hown⟩
  · exact fun q s i h => ⟨h.1.start i, h.2⟩
  · rintro i _ ⟨o, ho, rfl⟩
    rw [← ho]
    exact Prog.obeys_bind.mpr (provideOn_machineMonitor o)
  · intro q s s' h hs
    obtain ⟨hkeeps, hstreams⟩ := henv s s' hs
    exact ⟨h.1.sameStreams hstreams, h.2.trans (hkeeps.mono fun x hx => Or.inl hx)⟩

/-- **An operation on its own** changes nothing but what is its machine's,
whatever fails. This is the case of one client, with nothing else going on. -/
theorem provideOn_keepsBut {o : MachineOp} {s s' : Host} {tr : List (Event LibvirtSig)}
    {r : o.Result} (h : Prog.Exec libvirtSem (provideOn o) s tr s' r) :
    KeepsBut o.cfg.assets s s' := by
  have hrun : Prog.Exec libvirtSem (provideOn o >>= fun _ => .done ()) s (tr ++ []) s' () :=
    Prog.exec_bind.mpr ⟨r, s', tr, [], rfl, h, rfl, rfl, rfl⟩
  have hreach : Pool.Reach libvirtSem (operationsOf fun _ : Unit => o.cfg) (fun _ _ => False)
      (fun _ _ => True) ⟨s, fun _ => .done ()⟩ _ :=
    Pool.reach_of_start (i := ()) rfl ⟨o, rfl, rfl⟩ hrun
  obtain ⟨q, hq, -⟩ := monitored_of_reach (B := ∅) (fun _ _ h => h.elim) (fun _ => rfl) hreach
  refine hq.2.mono ?_
  rintro x (hx | hx)
  · exact hx.elim
  · obtain ⟨_, hx⟩ := Set.mem_iUnion.mp hx
    exact hx

/-- **Operations keep to their own.** Let any number of clients run operations
for machines on a host, in any order of their calls, with any call failing and
any operation stopped anywhere, while something else changes some things on the
host and no upload that is under way. Nothing else has changed then but what is
one of the machines' own; and every call changes nothing but what is its own
machine's. -/
theorem operations_keep_to_their_own
    (henv : ∀ s s', env s s' → KeepsBut B s s' ∧ SameStreams s s')
    (hidle : ∀ i, c₀.prog i = .done ())
    (hreach : Pool.Reach libvirtSem (operationsOf cfg) env (fun _ _ => True) c₀ c) :
    KeepsBut (B ∪ ⋃ i, (cfg i).assets) c₀.state c.state
    ∧ ∀ i ev c', Pool.Step libvirtSem (operationsOf cfg) env c (.call i ev) c' →
        KeepsBut (cfg i).assets c.state c'.state := by
  obtain ⟨q, hq, hobeys⟩ := monitored_of_reach henv hidle hreach
  refine ⟨hq.2, fun i ev c' hstep => ?_⟩
  cases hstep with
  | call hp hs =>
    have hi := hobeys i
    rw [hp] at hi
    exact (hq.1.holds i).keepsBut hi.1 hs

end Side

/-! Two machines are created at the same time, call by call, on a host with a
domain that is none of theirs. Their volumes are on it from an earlier attempt:
without them the creation would stop at the first lookup that finds none. -/

/-- The two machines. -/
def pairConfig : Fin 2 → MachineConfig
  | 0 => nodeConfig
  | 1 => { nodeConfig with domainName := "default-node-4", domainUUID := "9a41be55" }

/-- A host with a domain that is neither's, and with the volumes of both. -/
def sharedHost : Host :=
  let host := stockedHost.stock (pairConfig 1) [4, 5]
  { host with
    domains := host.domains.insert "router"
      ⟨"2f0c81d7", newDomain "router", true, true, .running, true⟩ }

/-- The calls of the two, in turn. -/
def pairSchedule (n : ℕ) : List (Pool.Move (Fin 2) LibvirtChoice LibvirtSig Unit) :=
  [.start 0 (provideOn (.createMachine (pairConfig 0)) >>= fun _ => .done ()),
   .start 1 (provideOn (.createMachine (pairConfig 1)) >>= fun _ => .done ())]
  ++ (List.range n).flatMap fun _ => [.call 0 faultless, .call 1 faultless]

/-- Where they begin. -/
def pairPool : Pool (Fin 2) Host LibvirtSig Unit where
  state := sharedHost
  prog _ := .done ()

theorem operations_keep_to_their_own_pair : ∃ c,
    Pool.Reach libvirtSem (operationsOf pairConfig) (fun _ _ => False) (fun _ _ => True) pairPool c
    ∧ (∀ i, (c.state.domains.lookup (pairConfig i).domainName).map Domain.active = some true)
    ∧ KeepsBut (∅ ∪ ⋃ i, (pairConfig i).assets) pairPool.state c.state
    ∧ ∀ i ev c', Pool.Step libvirtSem (operationsOf pairConfig) (fun _ _ => False) c
        (.call i ev) c' → KeepsBut (pairConfig i).assets c.state c'.state := by
  have hend : (Pool.play libvirtStep pairPool (pairSchedule 12)).map (fun c =>
      decide (∀ i, (c.state.domains.lookup (pairConfig i).domainName).map Domain.active
        = some true)) = some true := by decide +kernel
  obtain ⟨c, hc, hup⟩ := Option.map_eq_some_iff.mp hend
  have hreach : Pool.Reach libvirtSem (operationsOf pairConfig) (fun _ _ => False)
      (fun _ _ => True) pairPool c := by
    refine Pool.reach_of_play (fun i p hp => ?_) hc
    simp only [pairSchedule, List.mem_append, List.mem_cons, List.mem_flatMap, reduceCtorEq,
      Pool.Move.start.injEq, List.not_mem_nil, or_false, and_false, exists_false] at hp
    rcases hp with ⟨rfl, rfl⟩ | ⟨rfl, rfl⟩
    · exact ⟨.createMachine (pairConfig 0), rfl, rfl⟩
    · exact ⟨.createMachine (pairConfig 1), rfl, rfl⟩
  exact ⟨c, hreach, of_decide_eq_true hup,
    operations_keep_to_their_own (fun _ _ h => h.elim) (fun _ => rfl) hreach⟩

end LibvirtProvider

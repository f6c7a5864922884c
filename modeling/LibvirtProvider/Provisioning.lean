import LibvirtProvider.Ensures
import LibvirtProvider.Manager
import LibvirtProvider.Relocation
import LibvirtProvider.Settling
import LibvirtProvider.Setup

/-!
# Creating a machine again

An attempt to create a machine that fails is tried again, and each attempt
starts from what the ones before it have left: a root disk, an image that is
half written, a host entry, a domain that was defined and not started. What is
proved here is that none of it is in the way. On a host where the pools, the
base image and a vacant address are there (`Supplied`) an attempt in which no
call fails ends with the domain running (`createDomain_succeeds`), and so does
starting a domain that is there (`startDomain_yields`).

The first of the two is about a binding whose errors come as pointers, which is
what the code looks for. With the errors as they are the code does not recognise
that a volume is not there yet, and then an attempt that would have to make one
fails (`createDomain_value`).

The past matters in three places (`Orderly`): the host entry is found under
the machine's MAC or not at all, no other domain has taken the UUID, and a
domain that does not run is shut off.
-/

namespace LibvirtProvider

open Interaction

/-! ## The address -/

/-- **There is room in a network** for a MAC: a candidate is vacant. The
address that the machine has already counts as vacant for it. -/
def Network.Room (network : Network) (mac : String) : Prop :=
  ∃ candidates, (allocationCandidates network).run = some (.ok candidates)
    ∧ ∃ c ∈ candidates, Vacant network.hosts mac (formatIPv4 c)

instance (hosts : List NetworkDHCPHost) (mac ip : String) : Decidable (Vacant hosts mac ip) :=
  decidable_of_iff (∀ e ∈ lastOwner hosts ip, foldKey e.mac = foldKey mac) Iff.rfl

instance (network : Network) (mac : String) : Decidable (network.Room mac) :=
  decidable_of_iff (∃ r ∈ (allocationCandidates network).run, ∃ candidates ∈ r.toOption,
      ∃ c ∈ candidates, Vacant network.hosts mac (formatIPv4 c)) <| by
    constructor
    · rintro ⟨r, hr, candidates, hcand, hc⟩
      cases r with
      | error err => cases hcand
      | ok l =>
        cases hcand
        exact ⟨candidates, hr, hc⟩
    · rintro ⟨candidates, hcand, hc⟩
      exact ⟨.ok candidates, hcand, candidates, rfl, hc⟩

/-- An entry that has a machine's name, in the first `<ip>` element, has its
MAC. Otherwise the update would be refused, as the name is taken. -/
def Named (d : String) (network : Network) : Prop :=
  ∀ e ∈ network.firstHosts, e.name = d → foldKey e.mac = foldKey (deriveDomainMAC d)

section Reserve

variable {network network' : Network} {d d' mac : String} {host : NetworkDHCPHost}

/-- Where there is room, the allocator returns an address: its search goes
through the candidates and stops at a vacant one. -/
theorem Network.Room.allocate (h : network.Room mac) (d : String) :
    ∃ ip, (allocateMachineIPIn network d mac).run = some (.ok ip) := by
  obtain ⟨candidates, hcand, c, hc, hvac⟩ := h
  have hne : candidates ≠ [] := List.ne_nil_of_mem hc
  have hok : ¬ ∃ err, (allocateMachineIPIn network d mac).run = some (.error err) := by
    rw [allocateMachineIPIn_error_iff hcand hne]
    exact fun hall => hall c hc hvac
  rw [allocateMachineIPIn_eq hcand hne] at hok ⊢
  cases hfind : (probeOrder candidates d).find? _ with
  | none =>
    rw [hfind] at hok
    exact absurd ⟨_, rfl⟩ hok
  | some c => exact ⟨_, rfl⟩

/-- Where there is room, there is a first element. -/
theorem Network.Room.ips_ne_nil (h : network.Room mac) : network.ips ≠ [] := by
  rintro hnil
  obtain ⟨candidates, hcand, -⟩ := h
  rw [allocationCandidates, hnil] at hcand
  cases hcand

theorem Network.exists_update_zero {cmd : NetworkUpdateCommand} (hne : network.ips ≠ []) :
    (∃ network', network.update cmd 0 host = some network')
      ↔ ∃ l, updateHosts cmd host network.firstHosts = some l := by
  constructor
  · rintro ⟨network', h⟩
    exact ⟨_, (Network.update_zero h).1⟩
  · rintro ⟨l, hl⟩
    obtain ⟨ip, rest, hips⟩ := List.exists_cons_of_ne_nil hne
    rw [Network.firstHosts, hips] at hl
    exact ⟨⟨network.ips.set 0 (ip.withHosts l)⟩, by simp [Network.update, hips, hl]⟩

theorem ofComp_yields {α : Type} {sem : Sem NetworkSig Network} {x : GoComp α} {a : α}
    (h : x.run = some (.ok a)) :
    Prog.Yields sem (NetworkM.ofComp x).run network network (.ok a) := by
  rw [NetworkM.ofComp, h]
  exact .done _

/-- The entry is written, whichever way the plan says: libvirt does not refuse
it, since the old entry is found where it is to be modified and nothing is in
the way of a new one. -/
theorem exists_update_of_plan {plan : HostPlan} {cmd : NetworkUpdateCommand}
    (hsole : Sole d network)
    (hnamed : Named d network) (hne : network.ips ≠ [])
    (hplan : (planHostUpdate network d (deriveDomainMAC d)).run = some (.ok plan))
    (hupdate : plan.update = some (cmd, host)) :
    ∃ network', network.update cmd 0 host = some network' := by
  rw [Network.exists_update_zero hne]
  obtain ⟨-, hvac, ⟨e, -, -, hnone⟩ | ⟨e, he, -, hmodify⟩ | ⟨he, hadd⟩⟩ := planHostUpdate_spec hplan
  · cases hnone.symm.trans hupdate
  · cases hmodify.symm.trans hupdate
    obtain ⟨hmac, pre, post, hhosts, -⟩ := hostEntryInNetwork_eq_some.mp he
    have hmem : e ∈ network.hosts := hhosts ▸ by simp
    have hfirst := (Network.mem_hosts.mp hmem).resolve_right fun hmem => hsole.rest e hmem hmac
    have hany : network.firstHosts.any (sameMacOrName ⟨deriveDomainMAC d, d, plan.ip⟩) = true :=
      List.any_eq_true.mpr ⟨e, hfirst, by simp [sameMacOrName, equalFold_iff, hmac]⟩
    exact ⟨_, if_pos hany⟩
  · cases hadd.symm.trans hupdate
    have hmac := hostEntryInNetwork_eq_none.mp he
    refine ⟨_, updateHosts_addLast.mpr ⟨fun e he => ?_, rfl⟩⟩
    have hmem := Network.mem_hosts.mpr (Or.inl he)
    exact ⟨hmac e hmem, fun hname => hmac e hmem (hnamed e he hname),
      hvac.unbound hmac e hmem⟩

/-- **The address is reserved**, where there is room. What an earlier attempt
has reserved is found again and does not use up another address. -/
theorem reserveMachineIP_yields (netName : String) (hsole : Sole d network)
    (hnamed : Named d network) (hroom : network.Room (deriveDomainMAC d)) :
    ∃ network' ip, Prog.Yields workingSem
      (reserveMachineIP netName d (deriveDomainMAC d)).run network network' (.ok ip) := by
  obtain ⟨plan, hplan⟩ : ∃ plan, (planHostUpdate network d (deriveDomainMAC d)).run
      = some (.ok plan) := by
    obtain ⟨ip, halloc⟩ := hroom.allocate d
    simp only [planHostUpdate, GoComp.run_bind_eq_ok]
    cases hostEntryInNetwork network (deriveDomainMAC d) with
    | none => exact ⟨_, ip, halloc, rfl⟩
    | some e =>
      refine exists_comm.mp ⟨ip, ?_⟩
      dsimp only
      split
      · exact ⟨_, halloc, rfl⟩
      · exact ⟨_, halloc, rfl⟩
  cases hu : plan.update with
  | none =>
    refine ⟨network, plan.ip,
      .bind_ok (networkXML_yields network) (.bind_ok (ofComp_yields hplan) ?_)⟩
    rw [hu]
    exact .done _
  | some update =>
    obtain ⟨cmd, host⟩ := update
    obtain ⟨network', hnet⟩ := exists_update_of_plan hsole hnamed hroom.ips_ne_nil hplan hu
    have hupdate := updateHost_yields
      (.wrap s!"update DHCP host entry for {d} on network {netName}") cmd host network
    rw [hnet] at hupdate
    refine ⟨network', plan.ip,
      .bind_ok (networkXML_yields network) (.bind_ok (ofComp_yields hplan) ?_)⟩
    rw [hu]
    exact .bind_ok hupdate (.done _)

/-- A reservation or a release leaves names and MACs together, also one for
another machine, which writes its own name beside its own MAC. -/
theorem Named.step (h : Named d network) (hs : ReservationStep {d'} network network') :
    Named d network' := by
  have hown (ip : String) : (⟨deriveDomainMAC d', d', ip⟩ : NetworkDHCPHost).name = d →
      foldKey (deriveDomainMAC d') = foldKey (deriveDomainMAC d) := by
    rintro rfl
    rfl
  cases hs with
  | reserve hmem he =>
    obtain rfl := hmem
    rcases reserveMachineIP_exec he with ⟨-, rfl⟩ | ⟨ip, -, -, -, hcases⟩
    · exact h
    rcases hcases with ⟨_, -, -, rfl⟩ | ⟨x, -, -, hu⟩ | ⟨-, hu⟩
    · exact h
    · obtain ⟨pre, a, post, hfirst, -, -, hfirst'⟩ := updateHosts_modify (Network.update_zero hu).1
      intro e he hname
      rw [hfirst'] at he
      rw [Named, hfirst] at h
      rcases List.mem_append.mp he with he | he
      · exact h e (List.mem_append_left _ he) hname
      · rcases List.mem_cons.mp he with rfl | he
        · exact hown _ hname
        · exact h e (List.mem_append_right _ (List.mem_cons_of_mem _ he)) hname
    · obtain ⟨-, hfirst'⟩ := updateHosts_addLast.mp (Network.update_zero hu).1
      intro e he hname
      rw [hfirst'] at he
      rcases List.mem_append.mp he with he | he
      · exact h e he hname
      · obtain rfl := List.mem_singleton.mp he
        exact hown _ hname
  | release hmem he =>
    rcases releaseMachineIP_exec he with ⟨-, rfl⟩ | ⟨-, -, rfl⟩ | ⟨-, _, -, hu⟩
    · exact h
    · exact h
    · obtain ⟨pre, a, post, hfirst, -, -, -, hfirst'⟩ :=
        updateHosts_delete (Network.update_zero hu).1
      intro e he hname
      rw [hfirst'] at he
      rw [Named, hfirst] at h
      refine h e ?_ hname
      rcases List.mem_append.mp he with he | he
      · exact List.mem_append_left _ he
      · exact List.mem_append_right _ (List.mem_cons_of_mem _ he)

theorem Named.run (h : Named d network) (hr : ReservationRun {d'} network network') :
    Named d network' := by
  induction hr with
  | refl => exact h
  | tail _ hs ih => exact ih.step hs

end Reserve

/-! ## The volumes -/

/-- **Nothing but volumes and streams differs**, and the pools are the same. -/
structure StorageOnly (s s' : Host) : Prop where
  errors : s'.errors = s.errors
  domains : s'.domains = s.domains
  networks : s'.networks = s.networks
  target : ∀ pool, s'.storage.target pool = s.storage.target pool

section Volumes

variable {α : Type} {s s' : Host} {cfg : MachineConfig} {tr : List (Event LibvirtSig)}

theorem StorageOnly.of_calls {p : Prog LibvirtSig α} {a : α}
    (hp : p.Calls fun o : LibvirtOp => o.touchesDomains = false ∧ o.touchesNetworks = false)
    (h : Prog.Exec libvirtSem p s tr s' a) : StorageOnly s s' where
  errors := exec_errors h
  domains := hp.keeps Host.domains (fun _ _ _ _ ho hs => libvirtSem_domains hs ho.1) h
  networks := hp.keeps Host.networks (fun _ _ _ _ ho hs => libvirtSem_networks hs ho.2) h
  target pool := h.keeps (fun t => t.storage.target pool) fun _ _ _ _ hs => libvirtSem_target hs _

theorem lookupStoragePoolByName_yields {name : String} (h : (s.storage.target name).isSome) :
    Prog.Yields workingHostSem (Conn.lookupStoragePoolByName name).run s s (.ok ⟨name⟩) := by
  obtain ⟨p, hp⟩ := Option.isSome_iff_exists.mp (by simpa [Storage.target] using h)
  refine perform_yields fun _ hc => ?_
  rw [libvirtStep, LibvirtChoice.answer_of_fault_eq_none hc, Storage.lookupStoragePoolByName, hp]
  rfl

theorem lookupStorageVolByName_yields (s : Host) (pool : StoragePoolRef) (name : String) :
    Prog.Yields workingHostSem (Conn.lookupStorageVolByName pool name).run s s
      ((s.storage.lookupStorageVolByName pool name).mapError s.errors.error) :=
  perform_yields fun _ hc => LibvirtChoice.answer_of_fault_eq_none hc _

theorem getPath_yields (s : Host) (vol : StorageVolRef) :
    Prog.Yields workingHostSem (Conn.getPath vol).run s s
      ((s.storage.getPath vol).mapError s.errors.error) :=
  perform_yields fun _ hc => LibvirtChoice.answer_of_fault_eq_none hc _

theorem exists_getPath {pool name : String} {v : Volume} (h : s.storage.volume pool name = some v) :
    ∃ path, s.storage.getPath ⟨pool, name⟩ = .ok path := by
  obtain ⟨dir, hdir⟩ := Option.isSome_iff_exists.mp (Storage.isSome_target_of_volume h)
  exact ⟨_, s.storage.getPath_eq_ok.mpr ⟨dir, v, hdir, h, rfl⟩⟩

/-- A volume that is not there has none, if the error is recognised that says
so. The empty path is the sign to create it. -/
theorem getVolumePath_yields_of_none (hform : s.errors = .pointer) (pool : StoragePoolRef)
    {name : String} (h : s.storage.volume pool.name name = none) :
    Prog.Yields workingHostSem (getVolumePath pool name).run s s (.ok "") := by
  have hlookup : (s.storage.lookupStorageVolByName pool name).mapError s.errors.error
      = .error (.libvirtPtr .noStorageVol) := by
    rw [Storage.lookupStorageVolByName, h, hform]
    rfl
  refine .lift_bind (lookupStorageVolByName_yields s pool name) ?_
  rw [hlookup]
  exact .done _

/-- A volume that is there has a path. -/
theorem getVolumePath_yields_of_some (pool : StoragePoolRef) {name : String} {v : Volume}
    (h : s.storage.volume pool.name name = some v) :
    ∃ path, path ≠ ""
      ∧ Prog.Yields workingHostSem (getVolumePath pool name).run s s (.ok path) := by
  obtain ⟨path, hpath⟩ := exists_getPath h
  have hlookup : (s.storage.lookupStorageVolByName pool name).mapError s.errors.error
      = .ok ⟨pool.name, name⟩ := by
    rw [Storage.lookupStorageVolByName, h]
    rfl
  refine ⟨path, s.storage.getPath_ne_empty hpath,
    .lift_bind (lookupStorageVolByName_yields s pool name) ?_⟩
  rw [hlookup]
  have hyields := (getPath_yields s ⟨pool.name, name⟩).adapt
    (GoError.wrap s!"get volume path for {name}")
  rw [hpath] at hyields
  exact hyields

/-- A volume is created where there is none. -/
theorem createVolume_yields (pool : StoragePoolRef) (xml : StorageVolume)
    (htarget : (s.storage.target pool.name).isSome)
    (hv : s.storage.volume pool.name xml.name = none) :
    ∃ s' path, Prog.Yields workingHostSem (createVolume pool xml).run s s' (.ok path)
      ∧ s'.storage.volume pool.name xml.name = some ⟨xml, none⟩ := by
  let s' : Host := { s with storage := s.storage.setVolume pool.name xml.name (some ⟨xml, none⟩) }
  have hv' : s'.storage.volume pool.name xml.name = some ⟨xml, none⟩ :=
    s.storage.volume_setVolume_self _ htarget
  obtain ⟨path, hpath⟩ := exists_getPath hv'
  have hcreate : s.storage.storageVolCreateXML pool xml
      = (.ok ⟨pool.name, xml.name⟩, s'.storage) := by
    obtain ⟨p, hp⟩ := Option.isSome_iff_exists.mp (by simpa [Storage.target] using htarget)
    have hnone : p.volumes xml.name = none := by simpa [Storage.volume, hp] using hv
    simp only [Storage.storageVolCreateXML, hp, hnone]
    rfl
  have hyields : Prog.Yields workingHostSem (Conn.storageVolCreateXML pool xml 0).run s s'
      (.ok ⟨pool.name, xml.name⟩) := by
    refine perform_yields fun _ hc => ?_
    rw [libvirtStep, LibvirtChoice.answer_of_fault_eq_none hc, hcreate]
    rfl
  refine ⟨s', path, .bind_ok (hyields.adapt _) ?_, hv'⟩
  have hget := (getPath_yields s' ⟨pool.name, xml.name⟩).adapt (GoError.wrap "get VM disk path")
  rw [hpath] at hget
  exact hget

/-- **The root disk is made**, where it or the base image is there. One that
an earlier attempt has left is taken as it is. -/
theorem createRootDisk_succeeds (hform : s.errors = .pointer)
    (htarget : (s.storage.target cfg.domainPool).isSome)
    (himage : (s.storage.volume cfg.basePool cfg.baseImage).isSome) :
    Prog.Succeeds workingHostSem (createRootDisk ⟨cfg.basePool⟩ ⟨cfg.domainPool⟩ cfg) s
      fun s' _ => StorageOnly s s' := by
  have hmade : Prog.Succeeds workingHostSem (createRootDisk ⟨cfg.basePool⟩ ⟨cfg.domainPool⟩ cfg) s
      fun _ _ => True := by
    cases hv : s.storage.volume cfg.domainPool cfg.domainDiskName with
    | some v =>
      obtain ⟨path, hne, hpath⟩ := getVolumePath_yields_of_some ⟨cfg.domainPool⟩ hv
      refine (Prog.Yields.bind_ok hpath ?_).succeeds (t := s) (a := path) trivial
      rw [if_pos hne]
      exact .done _
    | none =>
      obtain ⟨image, himage⟩ := Option.isSome_iff_exists.mp himage
      obtain ⟨basePath, hne, hbase⟩ := getVolumePath_yields_of_some ⟨cfg.basePool⟩ himage
      obtain ⟨s', path, hcreate, -⟩ := createVolume_yields ⟨cfg.domainPool⟩
        (rootVolume cfg basePath) htarget hv
      refine (Prog.Yields.bind_ok (getVolumePath_yields_of_none hform ⟨cfg.domainPool⟩ hv)
        ?_).succeeds (t := s') (a := path) trivial
      rw [if_neg (fun h => h rfl)]
      refine .bind_ok hbase ?_
      rw [if_neg hne]
      exact hcreate.adapt _
  refine (Prog.Ensures.and_exec hmade fun tr s' r he => StorageOnly.of_calls
    (createRootDisk_calls ?_ fun _ _ => ⟨rfl, rfl⟩) (exec_of_working he)).mono ?_
  · intro o ho
    obtain ⟨hd, -, hn⟩ := LibvirtOp.isQuery_iff.mp (LibvirtOp.isQuery_of_asksStorage ho)
    exact ⟨hd, hn⟩
  · rintro s' r ⟨⟨a, rfl, -⟩, hs⟩
    exact ⟨a, rfl, hs⟩

/-! ### The image -/

theorem iso_succeeds (s : Host) (o : ISOOp) :
    Prog.Succeeds workingHostSem (Conn.iso o) s fun s' _ => s' = s := by
  refine .perform ⟨.ok (o.result {}), s, {}, rfl, rfl⟩ ?_
  rintro r s' ⟨c, hc, hstep⟩
  simp only [libvirtStep, hc] at hstep
  cases hstep
  exact ⟨_, rfl, rfl⟩

theorem writeISOFile_succeeds (s : Host) (name : String) (data : ISOFileData) :
    Prog.Succeeds workingHostSem (writeISOFile name data) s fun s' _ => s' = s := by
  refine .bind (.adapt _ (iso_succeeds s _)) ?_
  rintro _ _ rfl
  refine .lift_bind (iso_succeeds _ _) ?_
  rintro _ _ ⟨_, rfl, rfl⟩
  exact .adapt _ (iso_succeeds _ _)

theorem populateISO_succeeds (s : Host) (userData : Bytes) (metaData : CloudInitMetaData) :
    Prog.Succeeds workingHostSem (populateISO userData metaData) s fun s' _ => s' = s := by
  refine .bind (writeISOFile_succeeds s _ _) ?_
  rintro _ _ rfl
  refine .bind (writeISOFile_succeeds _ _ _) ?_
  rintro _ _ rfl
  exact .adapt _ (iso_succeeds _ _)

theorem buildCloudInitISO_succeeds (s : Host) (isoPath : String) (cfg : MachineConfig) :
    Prog.Succeeds workingHostSem (buildCloudInitISO isoPath cfg) s fun s' _ => s' = s := by
  refine .bind (.adapt _ (iso_succeeds s _)) ?_
  rintro s _ rfl
  refine .lift_bind (Q := fun t r => ∃ a : Unit, r = .ok a ∧ t = s) ?_ ?_
  · show Prog.Succeeds workingHostSem _ s fun t _ => t = s
    refine .bind (.adapt _ (iso_succeeds s _)) ?_
    rintro s _ rfl
    refine .lift_bind (populateISO_succeeds s _ _) ?_
    rintro s _ ⟨_, rfl, rfl⟩
    exact .adapt _ (iso_succeeds s _)
  · rintro s _ ⟨_, rfl, rfl⟩
    refine .lift_bind (iso_succeeds s _) ?_
    rintro s _ ⟨_, rfl, rfl⟩
    exact .pure rfl

theorem writeCloudInitISO_succeeds (s : Host) (cfg : MachineConfig) :
    Prog.Succeeds workingHostSem (writeCloudInitISO cfg) s fun s' _ => s' = s := by
  refine .bind (.adapt _ (iso_succeeds s _)) ?_
  rintro _ _ rfl
  refine .bind (buildCloudInitISO_succeeds _ _ _) ?_
  rintro _ _ rfl
  refine .bind (.adapt _ (iso_succeeds _ _)) ?_
  rintro _ _ rfl
  exact .adapt _ (iso_succeeds _ _)

/-- **An upload to a volume that is there goes through**, over whatever was
written to it before. -/
theorem storageVolUpload_succeeds {pool name : String} {v : Volume} (buff : Bytes)
    (hv : s.storage.volume pool name = some v) :
    Prog.Succeeds workingHostSem (storageVolUpload buff ⟨pool, name⟩) s fun _ _ => True := by
  let stream : StreamRef := ⟨s.storage.nextStream⟩
  have hnew : Prog.Succeeds workingHostSem (Conn.newStream 0) s fun s₁ a => a = stream
      ∧ s₁.storage.volume pool name = some v
      ∧ s₁.storage.streams stream.id = some ⟨none, []⟩ := by
    refine Prog.Yields.succeeds (a := stream) (t := { s with storage := s.storage.newStream.2 })
      (perform_yields fun _ hc => ?_) ⟨rfl, hv, Function.update_self _ _ _⟩
    rw [libvirtStep, LibvirtChoice.answer_of_fault_eq_none hc]
    rfl
  refine .bind (.adapt _ hnew) ?_
  rintro s₁ _ ⟨rfl, hv₁, hst₁⟩
  have htarget := Storage.isSome_target_of_volume hv₁
  have hupload : Prog.Succeeds workingHostSem (Conn.upload ⟨pool, name⟩ stream 0 buff.length 0) s₁
      fun s₂ _ => s₂.storage.volume pool name = some { v with content := none }
        ∧ s₂.storage.streams stream.id = some ⟨some (pool, name), []⟩ := by
    refine Prog.Yields.succeeds (a := ()) (t := { s₁ with
      storage := (s₁.storage.upload ⟨pool, name⟩ stream).2 }) (perform_yields fun _ hc => ?_) ?_
    · rw [libvirtStep, LibvirtChoice.answer_of_fault_eq_none hc,
        s₁.storage.upload_eq hv₁ hst₁]
      rfl
    · rw [s₁.storage.upload_eq hv₁ hst₁]
      exact ⟨s₁.storage.volume_setVolume_self _ htarget, Function.update_self _ _ _⟩
  refine .bind (.adapt _ hupload) ?_
  rintro s₂ _ ⟨hv₂, hst₂⟩
  have hsend (chunks : List Bytes) : Prog.Succeeds workingHostSem (Conn.sendAll stream chunks) s₂
      fun s₃ _ => s₃.storage.volume pool name = some { v with content := none }
        ∧ ∃ sent, s₃.storage.streams stream.id = some ⟨some (pool, name), sent⟩ := by
    refine Prog.Yields.succeeds (a := ()) (t := { s₂ with
      storage := (s₂.storage.sendAll stream chunks).2 }) (perform_yields fun _ hc => ?_) ?_
    · rw [libvirtStep, LibvirtChoice.answer_of_fault_eq_none hc, s₂.storage.sendAll_eq hst₂]
      rfl
    · rw [s₂.storage.sendAll_eq hst₂]
      exact ⟨hv₂, _, Function.update_self _ _ _⟩
  refine .lift_bind (hsend _) ?_
  rintro s₃ _ ⟨_, rfl, hv₃, sent, hst₃⟩
  refine .adapt _ (Prog.Yields.succeeds (a := ()) (t := { s₃ with
    storage := (s₃.storage.finish stream).2 }) (perform_yields fun _ hc => ?_) trivial)
  rw [libvirtStep, LibvirtChoice.answer_of_fault_eq_none hc, s₃.storage.finish_eq hst₃ hv₃]
  rfl

/-- **The volume of the image is made**, or was there. One that is there is
taken as it is, also if an earlier attempt has written only a part of the
image to it. -/
theorem createISODisk_succeeds (hform : s.errors = .pointer)
    (htarget : (s.storage.target cfg.domainPool).isSome) :
    Prog.Succeeds workingHostSem (createISODisk ⟨cfg.domainPool⟩ cfg) s
      fun s' _ => StorageOnly s s' := by
  have hmade : Prog.Succeeds workingHostSem (createISODisk ⟨cfg.domainPool⟩ cfg) s
      fun _ _ => True := by
    cases hv : s.storage.volume cfg.domainPool cfg.isoDiskName with
    | some v =>
      obtain ⟨path, hne, hpath⟩ := getVolumePath_yields_of_some ⟨cfg.domainPool⟩ hv
      refine (Prog.Yields.bind_ok hpath ?_).succeeds (t := s) (a := path) trivial
      rw [if_pos hne]
      exact .done _
    | none =>
      refine .bind ((getVolumePath_yields_of_none hform ⟨cfg.domainPool⟩ hv).succeeds
        (Q := fun t path => t = s ∧ path = "") ⟨rfl, rfl⟩) ?_
      rintro _ _ ⟨rfl, rfl⟩
      rw [if_neg (fun h => h rfl)]
      refine .bind (.adapt _ (writeCloudInitISO_succeeds _ cfg)) ?_
      rintro _ buff rfl
      obtain ⟨s₁, path, hcreate, hv₁⟩ := createVolume_yields ⟨cfg.domainPool⟩
        (isoVolume cfg buff) htarget hv
      refine .bind (.adapt _ (hcreate.succeeds (Q := fun t _ => s₁ = t) rfl)) ?_
      rintro _ _ rfl
      have hlookup := lookupStorageVolByName_yields s₁ ⟨cfg.domainPool⟩ cfg.isoDiskName
      have hvol : s₁.storage.volume cfg.domainPool cfg.isoDiskName = some ⟨_, none⟩ := hv₁
      rw [Storage.lookupStorageVolByName, hvol] at hlookup
      refine .bind (hlookup.succeeds (Q := fun t vol => s₁ = t
        ∧ vol = ⟨cfg.domainPool, cfg.isoDiskName⟩) ⟨rfl, rfl⟩) ?_
      rintro _ _ ⟨rfl, rfl⟩
      refine .bind (.adapt _ (storageVolUpload_succeeds buff hvol)) ?_
      rintro _ _ -
      exact .pure trivial
  refine (Prog.Ensures.and_exec hmade fun tr s' r he => StorageOnly.of_calls
    (createISODisk_calls ?_ (fun _ _ => ⟨rfl, rfl⟩) ?_) (exec_of_working he)).mono ?_
  · intro o ho
    obtain ⟨hd, -, hn⟩ := LibvirtOp.isQuery_iff.mp (LibvirtOp.isQuery_of_asksStorage ho)
    exact ⟨hd, hn⟩
  · intro o ho
    cases o <;> first | exact ⟨rfl, rfl⟩ | cases ho
  · rintro s' r ⟨⟨a, rfl, -⟩, hs⟩
    exact ⟨a, rfl, hs⟩

end Volumes

/-! ## The domain -/

/-- A domain that runs, or is shut off. libvirt knows more states, such as one
that is paused; nothing in this code leads to them. -/
def Domain.Steady (d : Domain) : Prop :=
  d.active = true ∧ d.state = .running ∨ d.active = false ∧ d.state = .shutoff

/-- **The domain of a name is up.** This is what creating a machine is for,
and what is told of it afterwards. -/
def Host.Up (s : Host) (name : String) : Prop :=
  ∃ d, s.domains.lookup name = some d ∧ d.active = true ∧ d.state = .running

instance (s : Host) (name : String) : Decidable (s.Up name) :=
  decidable_of_iff (∃ d ∈ s.domains.lookup name, d.active = true ∧ d.state = .running) Iff.rfl

/-- **What a machine finds in order** on a host: its entry stands alone and
under its name, no other domain has its UUID, and its domain is one that can
be started or deleted. All of it is about what went on before, and is kept by
every operation. -/
structure Orderly (name uuid net : String) (s : Host) : Prop where
  sole : ∀ network, s.networks net = some network → Sole name network
  named : ∀ network, s.networks net = some network → Named name network
  uuids : ∀ n d, n ≠ name → s.domains.lookup n = some d → d.uuid ≠ uuid
  steady : ∀ d, s.domains.lookup name = some d → d.Steady
  standing : s.domains.Standing name

/-- **What a machine needs** on a host: the pools, the base image, and an
address in the network. This is up to the operator, and to how many other
machines there are. -/
structure Supplied (cfg : MachineConfig) (s : Host) : Prop where
  domainPool : (s.storage.target cfg.domainPool).isSome
  image : (s.storage.volume cfg.basePool cfg.baseImage).isSome
  network : ∃ network, s.networks cfg.network = some network ∧ network.Room cfg.mac

instance (cfg : MachineConfig) (s : Host) : Decidable (Supplied cfg s) :=
  decidable_of_iff ((s.storage.target cfg.domainPool).isSome
      ∧ (s.storage.volume cfg.basePool cfg.baseImage).isSome
      ∧ ∃ network ∈ s.networks cfg.network, network.Room cfg.mac)
    ⟨fun h => ⟨h.1, h.2.1, h.2.2⟩, fun h => ⟨h.domainPool, h.image, h.network⟩⟩

section Domain

variable {s : Host} {cfg : MachineConfig} {name : String} {d : Domain}

/-- **A new domain is defined**, where no other one has its UUID. Under the
name there is none, so nothing is redefined either. -/
theorem domainDefineXML_yields {xml : DomainXML} (hname : s.domains.lookup xml.name = none)
    (huuid : xml.uuid ≠ "")
    (huuids : ∀ n d, n ≠ xml.name → s.domains.lookup n = some d → d.uuid ≠ xml.uuid) :
    Prog.Yields workingHostSem (Conn.domainDefineXML xml).run s
      { s with domains := s.domains.insert xml.name ⟨xml.uuid, xml, true, false, .shutoff, false⟩ }
      (.ok ⟨xml.name, xml.uuid⟩) := by
  have hany : ¬ (s.domains.entries.any fun e =>
      e.1 != xml.name && e.2.uuid == xml.uuid) = true := by
    intro h
    obtain ⟨e, he, hclash⟩ := List.any_eq_true.mp h
    obtain ⟨hn, hu⟩ := Bool.and_eq_true_iff.mp hclash
    exact huuids e.1 e.2 (by simpa using hn) (AList.mem_lookup_iff.mpr he) (beq_iff_eq.mp hu)
  refine perform_yields fun _ hc => ?_
  rw [libvirtStep, LibvirtChoice.answer_of_fault_eq_none hc]
  simp only [Domains.domainDefineXML, if_neg huuid, if_neg hany, hname, Host.onDomains]
  rfl

theorem setAutostart_yields {autostart : Bool} (h : s.domains.lookup name = some d)
    (hp : d.persistent = true) :
    Prog.Yields workingHostSem (Conn.setAutostart ⟨name, d.uuid⟩ autostart).run s
      { s with domains := s.domains.insert name { d with autostart := autostart } } (.ok ()) := by
  refine perform_yields fun _ hc => ?_
  rw [libvirtStep, LibvirtChoice.answer_of_fault_eq_none hc, Domains.setAutostart,
    Domains.get_eq_some.mpr ⟨h, rfl⟩]
  simp only [hp, Host.onDomains, if_true]
  rfl

theorem create_yields (h : s.domains.lookup name = some d) (ha : d.active = false) :
    Prog.Yields workingHostSem (Conn.create ⟨name, d.uuid⟩).run s
      { s with domains := s.domains.insert name { d with active := true, state := .running } }
      (.ok ()) := by
  refine perform_yields fun _ hc => ?_
  rw [libvirtStep, LibvirtChoice.answer_of_fault_eq_none hc, Domains.create,
    Domains.get_eq_some.mpr ⟨h, rfl⟩]
  simp only [ha, Host.onDomains, Bool.false_eq_true, if_false]
  rfl

theorem Host.up_insert (s : Host) (name : String) (d : Domain) :
    Host.Up { s with domains := s.domains.insert name { d with active := true, state := .running } }
      name :=
  ⟨_, AList.lookup_insert _, rfl, rfl⟩

/-- **A domain that is not there is defined and started.** The two calls
follow each other, and an attempt that is cut off between them is taken up by
`startDomain`. -/
theorem defineAndStart_succeeds {xml : DomainXML} (hname : xml.name = cfg.domainName)
    (hxuuid : xml.uuid = cfg.domainUUID) (hnone : s.domains.lookup cfg.domainName = none)
    (huuid : cfg.domainUUID ≠ "")
    (huuids : ∀ n d, n ≠ cfg.domainName → s.domains.lookup n = some d →
      d.uuid ≠ cfg.domainUUID) :
    Prog.Succeeds workingHostSem (defineAndStart cfg xml) s
      fun s' _ => s'.Up cfg.domainName := by
  rw [← hname] at hnone huuids ⊢
  rw [← hxuuid] at huuid huuids
  let d : Domain := ⟨xml.uuid, xml, true, false, .shutoff, false⟩
  let s₁ : Host := { s with domains := s.domains.insert xml.name d }
  have hauto : Prog.Yields workingHostSem (Conn.setAutostart ⟨xml.name, xml.uuid⟩ true).run s₁ _
      (.ok ()) := setAutostart_yields (d := d) (AList.lookup_insert _) rfl
  have hcreate : Prog.Yields workingHostSem (Conn.create ⟨xml.name, xml.uuid⟩).run _ _
      (.ok ()) := create_yields (s := { s₁ with
        domains := s₁.domains.insert xml.name { d with autostart := true } })
      (d := { d with autostart := true }) (AList.lookup_insert _) rfl
  exact Prog.Yields.succeeds (.bind_ok ((domainDefineXML_yields hnone huuid huuids).adapt _)
    (.bind_ok (hauto.adapt _) (hcreate.adapt _))) (Host.up_insert _ _ _)

/-- **An attempt to create a machine in which no call fails succeeds**, whatever
the attempts before it have left, if the code recognises that there is no volume
yet. With the errors of the binding it does not (`createDomain_value`). -/
theorem createDomain_succeeds (hform : s.errors = .pointer)
    (horder : Orderly cfg.domainName cfg.domainUUID cfg.network s)
    (hsupply : Supplied cfg s) (huuid : cfg.domainUUID ≠ "")
    (hnone : s.domains.lookup cfg.domainName = none) :
    Prog.Succeeds workingHostSem (createDomain cfg) s fun s' _ => s'.Up cfg.domainName := by
  obtain ⟨image, himage⟩ := Option.isSome_iff_exists.mp hsupply.image
  obtain ⟨network, hnet, hroom⟩ := hsupply.network
  refine .bind (.adapt _ ((lookupStoragePoolByName_yields hsupply.domainPool).succeeds
    (Q := fun t pool => s = t ∧ pool = ⟨cfg.domainPool⟩) ⟨rfl, rfl⟩)) ?_
  rintro _ _ ⟨rfl, rfl⟩
  refine .bind (.adapt _ ((lookupStoragePoolByName_yields
    (Storage.isSome_target_of_volume himage)).succeeds
    (Q := fun t pool => s = t ∧ pool = ⟨cfg.basePool⟩) ⟨rfl, rfl⟩)) ?_
  rintro _ _ ⟨rfl, rfl⟩
  refine .bind (.adapt _ (createRootDisk_succeeds hform hsupply.domainPool hsupply.image)) ?_
  intro s₁ diskPath hs₁
  have htarget : (s₁.storage.target cfg.domainPool).isSome :=
    (hs₁.target _).symm ▸ hsupply.domainPool
  refine .bind (.adapt _ (createISODisk_succeeds (hs₁.errors.trans hform) htarget)) ?_
  intro s₂ isoPath hs₂
  -- neither the domains nor the networks were touched so far
  have hdomains : s₂.domains = s.domains := hs₂.domains.trans hs₁.domains
  have hnetworks : s₂.networks = s.networks := hs₂.networks.trans hs₁.networks
  have hnet₂ : s₂.networks cfg.network = some network := hnetworks ▸ hnet
  have hlookup : Prog.Yields workingHostSem (Conn.lookupNetworkByName cfg.network).run s₂ s₂
      (.ok ⟨cfg.network⟩) := by
    refine perform_yields fun _ hc => ?_
    rw [libvirtStep, LibvirtChoice.answer_of_fault_eq_none hc, Host.lookupNetworkByName, hnet₂]
    rfl
  refine .bind (.adapt _ (hlookup.succeeds
    (Q := fun t net => s₂ = t ∧ net = ⟨cfg.network⟩) ⟨rfl, rfl⟩)) ?_
  rintro _ _ ⟨rfl, rfl⟩
  obtain ⟨network', ip, hreserve⟩ := reserveMachineIP_yields cfg.network
    (horder.sole network hnet) (horder.named network hnet) hroom
  refine .bind ((onNetwork_yields ⟨cfg.network⟩ hnet₂ hreserve).succeeds
    (Q := fun t _ => t.domains = s.domains) hdomains) ?_
  intro s₃ _ hs₃
  refine defineAndStart_succeeds rfl rfl ?_ huuid ?_
  · rw [hs₃]
    exact hnone
  · rw [hs₃]
    exact horder.uuids

/-- **A domain that is shut off is started.** It is looked up first, so this
needs that it is there, and is the same for either form of the errors. -/
theorem startDomain_yields (cfg : MachineConfig) (h : s.domains.lookup cfg.domainName = some d)
    (ha : d.active = false) :
    ∃ s', Prog.Yields workingHostSem (startDomain cfg).run s s' (.ok ())
      ∧ s'.Up cfg.domainName := by
  have hlookup := lookupDomainByName_yields s cfg.domainName
  rw [Domains.lookupDomainByName, h] at hlookup
  exact ⟨_, .bind_ok (hlookup.adapt _) ((create_yields h ha).adapt _), Host.up_insert _ _ _⟩

/-- **What is told of a domain**: its state, if it is there. If it is not, that
is said as well where the error of the lookup is recognised, and is an error
where it comes by value. -/
def Host.told (s : Host) (name : String) : Except GoError DomainState :=
  match s.domains.lookup name, s.errors with
  | some d, _ => .ok (.of d.state)
  | none, .pointer => .ok .notFound
  | none, .value => .error (.wrap ("lookup domain " ++ quote name) (.libvirt .noDomain))

theorem getDomainState_yields (s : Host) (name : String) :
    Prog.Yields workingHostSem (getDomainState name).run s s (s.told name) := by
  refine .lift_bind (lookupDomainByName_yields s name) ?_
  rw [Domains.lookupDomainByName, Host.told]
  cases h : s.domains.lookup name with
  | none => cases s.errors <;> exact .done _
  | some d =>
    have hstate : (s.domains.getState ⟨name, d.uuid⟩).mapError s.errors.error = .ok d.state := by
      rw [Domains.getState, Domains.get_eq_some.mpr ⟨h, rfl⟩]
      rfl
    have hyields : Prog.Yields workingHostSem (Conn.getState ⟨name, d.uuid⟩).run s s
        ((s.domains.getState ⟨name, d.uuid⟩).mapError s.errors.error) :=
      perform_yields fun _ hc => LibvirtChoice.answer_of_fault_eq_none hc _
    rw [hstate] at hyields
    exact .bind_ok (hyields.adapt _) (.done _)

end Domain

/-! ## What any number of operations leave -/

/-- **An operation for the machine, or for another one**: that one has another
MAC, and a UUID of its own. A machine with the same MAC would share the host
entry. -/
def Beside (name uuid : String) (cfg : MachineConfig) : Prop :=
  cfg.domainName = name
  ∨ cfg.mac ≠ deriveDomainMAC name ∧ cfg.domainUUID ≠ "" ∧ cfg.domainUUID ≠ uuid

section Keeps

variable {s s' : Host} {name uuid net : String} {o : MachineOp} {tr : List (Event LibvirtSig)}
  {r : o.Result}

/-- **No call leaves a domain that neither runs nor is shut off.** Defining
leaves one shut off, and starting and stopping lead from the one to the other. -/
theorem libvirtSem_steady {o : LibvirtSig.Op} {r : LibvirtSig.Ans o}
    (h : ∀ d, s.domains.lookup name = some d → d.Steady) (hs : libvirtSem s o r s') :
    ∀ d, s'.domains.lookup name = some d → d.Steady := by
  have hinsert {n : String} {d : Domain} (hd : n = name → d.Steady) :
      ∀ x, (s.domains.insert n d).lookup name = some x → x.Steady := by
    intro x hx
    by_cases hn : n = name
    · subst hn
      rw [AList.lookup_insert] at hx
      cases hx
      exact hd rfl
    · rw [AList.lookup_insert_ne (Ne.symm hn)] at hx
      exact h x hx
  have herase (n : String) : ∀ x, (s.domains.erase n).lookup name = some x → x.Steady := by
    intro x hx
    by_cases hn : name = n
    · subst hn
      rw [AList.lookup_erase] at hx
      cases hx
    · rw [AList.lookup_erase_ne hn] at hx
      exact h x hx
  cases ht : o.touchesDomains with
  | false =>
    rw [libvirtSem_domains hs ht]
    exact h
  | true =>
    cases o with
    | domainDefineXML xml =>
      obtain ⟨c, hc⟩ := hs
      rcases LibvirtChoice.exists_answer.mp ⟨c, hc⟩ with ⟨-, rfl⟩ | ⟨-, rfl⟩
      · exact h
      simp only [Host.onDomains, Domains.domainDefineXML]
      generalize (if xml.uuid = "" then c.uuid else xml.uuid) = u
      split
      · exact h
      split
      · exact hinsert fun _ => Or.inr ⟨rfl, rfl⟩
      · rename_i d hd
        split
        · exact hinsert fun hn => h d (hn ▸ hd)
        · exact h
    | setAutostart dom autostart =>
      rcases libvirtSem_setAutostart hs with ⟨-, rfl⟩ | ⟨-, d, hd, -, rfl⟩
      · exact h
      · exact hinsert fun hn => h d (hn ▸ (Domains.get_eq_some.mp hd).1)
    | create dom =>
      rcases libvirtSem_create hs with ⟨-, rfl⟩ | ⟨-, d, -, -, rfl⟩
      · exact h
      · exact hinsert fun _ => Or.inl ⟨rfl, rfl⟩
    | destroy dom =>
      rcases libvirtSem_destroy hs with ⟨-, rfl⟩ | ⟨-, d, -, -, rfl⟩
      · exact h
      dsimp only
      split
      · exact hinsert fun _ => Or.inr ⟨rfl, rfl⟩
      · exact herase _
    | undefine dom =>
      rcases libvirtSem_undefine hs with ⟨-, rfl⟩ | ⟨-, d, hd, -, rfl⟩
      · exact h
      dsimp only
      split
      · exact hinsert fun hn => h d (hn ▸ (Domains.get_eq_some.mp hd).1)
      · exact herase _
    | _ => cases ht

/-- **No other domain gets a UUID**, if none is defined with it. A UUID is
given once, when the domain is defined. -/
theorem libvirtSem_uuids {o : LibvirtSig.Op} {r : LibvirtSig.Ans o}
    (h : ∀ n d, n ≠ name → s.domains.lookup n = some d → d.uuid ≠ uuid)
    (ho : ∀ xml, o = .domainDefineXML xml → xml.name = name ∨ xml.uuid ≠ "" ∧ xml.uuid ≠ uuid)
    (hs : libvirtSem s o r s') :
    ∀ n d, n ≠ name → s'.domains.lookup n = some d → d.uuid ≠ uuid := by
  intro n d hn hd
  by_cases hdefine : ∃ xml, o = .domainDefineXML xml
  · obtain ⟨xml, rfl⟩ := hdefine
    rcases libvirtSem_domainDefineXML hs with ⟨-, rfl⟩ | ⟨u, hu, -, x, hx, -, rfl⟩
    · exact h n d hn hd
    by_cases hname : n = xml.name
    · subst hname
      rw [AList.lookup_insert] at hd
      cases hd
      obtain ⟨hne, huuid⟩ := (ho xml rfl).resolve_left hn
      rwa [hx, hu hne]
    · rw [AList.lookup_insert_ne hname] at hd
      exact h n d hn hd
  · obtain ⟨d₀, hd₀, heq⟩ := libvirtSem_noneNew hs
      (fun xml h => absurd ⟨xml, h⟩ hdefine) d hd
    rw [heq]
    exact h n d₀ hn hd₀

/-- **An operation leaves things in order**, whether it is for this machine or
another one, and whichever of its calls fail. -/
theorem Orderly.provideOn (h : Orderly name uuid net s) (ho : Beside name uuid o.cfg)
    (he : Prog.Exec libvirtSem (provideOn o) s tr s' r) : Orderly name uuid net s' := by
  have hnetworks {network' : Network} (hn : s'.networks net = some network') :
      ∃ network, s.networks net = some network
        ∧ ReservationRun {o.cfg.domainName} network network' := by
    have hrel := networksRun_provideOn o s tr s' r he net
    rw [hn] at hrel
    cases hnet : s.networks net with
    | none =>
      rw [hnet] at hrel
      cases hrel
    | some network =>
      rw [hnet] at hrel
      cases hrel with
      | some hrun => exact ⟨network, rfl, hrun⟩
  have hcalls : (LibvirtProvider.provideOn o).Calls fun x : LibvirtOp => ∀ xml,
      x = .domainDefineXML xml → xml.name = name ∨ xml.uuid ≠ "" ∧ xml.uuid ≠ uuid := by
    refine (provideOn_obeys o).calls fun q x hx => ?_
    rintro xml rfl
    obtain ⟨hname, huuid⟩ := hx
    rw [hname, huuid]
    exact ho.imp_right And.right
  refine ⟨fun network' hn => ?_, fun network' hn => ?_, ?_, ?_, ?_⟩
  · obtain ⟨network, hnet, hrun⟩ := hnetworks hn
    exact (h.sole network hnet).run (ho.imp_right And.left) hrun
  · obtain ⟨network, hnet, hrun⟩ := hnetworks hn
    exact (h.named network hnet).run hrun
  · exact hcalls.invariant (I := fun t : Host => ∀ n d, n ≠ name →
      t.domains.lookup n = some d → d.uuid ≠ uuid)
      (fun _ _ _ _ ht hx hs => libvirtSem_uuids ht hx hs) h.uuids he
  · exact he.invariant (I := fun t : Host => ∀ d, t.domains.lookup name = some d → d.Steady)
      (fun _ _ _ _ ht hs => libvirtSem_steady ht hs) h.steady
  · exact he.invariant (I := fun t : Host => t.domains.Standing name)
      (fun _ _ _ _ ht hs => ht.step hs) h.standing

end Keeps

end LibvirtProvider

import LibvirtProvider.CloudInit
import LibvirtProvider.Standstill
import LibvirtProvider.Status

/-!
# What a provisioned machine has

Creating a machine has a dozen steps, and any of them may fail. A reconcile
that finds no domain starts over; one that finds a domain starts it, or only
takes note of it. What a step before the definition of the domain has left
undone is therefore made up for, and what a step after it has left undone is
not: the domain is set to start with its host right after it is defined.

A machine that is provisioned is set up (`SetUp`) exactly when no call of
`SetAutostart` has failed (`provisioned_setUp_iff`). This is about machines that
are created, which takes errors that are recognised. With a binding that returns
its errors by value, a new machine is not created and never becomes provisioned
(`provisioned_setUp`).
-/

namespace LibvirtProvider

open Interaction

/-! ## A domain that is set up -/

/-- The description of the root disk over a base image. -/
def rootVolume (cfg : MachineConfig) (basePath : String) : StorageVolume :=
  ((newVolume cfg.domainDiskName).withCapacity cfg.diskSizeGiB "G").withBackingStore basePath
    defaultVolumeFormat

/-- The root disk of a machine, as it is described on the host. -/
def Host.rootDisk (s : Host) (cfg : MachineConfig) : Option StorageVolume :=
  (s.storage.volume cfg.domainPool cfg.domainDiskName).map Volume.xml

/-- A disk of the configured size over the base image of the machine. -/
def Overlay (cfg : MachineConfig) (s : Host) (disk : StorageVolume) : Prop :=
  ∃ basePath, s.storage.getPath ⟨cfg.basePool, cfg.baseImage⟩ = .ok basePath
    ∧ disk = rootVolume cfg basePath

/-- A MAC has an entry in the machine's network. -/
def Reserved (cfg : MachineConfig) (s : Host) (mac : String) : Prop :=
  ∃ network, s.networks cfg.network = some network
    ∧ ∃ e ∈ network.hosts, foldKey e.mac = foldKey mac

/-- **A domain as it is built**: it is defined, boots from the root disk,
which is an overlay of the base image, and has one interface, whose MAC is
reserved. All of this is made before the domain is defined, or with it. -/
structure Built (cfg : MachineConfig) (s : Host) (d : Domain) : Prop where
  defined : d.persistent = true
  boots : ∃ path, d.xml.disks.head?.map DomainDisk.file = some path
    ∧ s.storage.getPath ⟨cfg.domainPool, cfg.domainDiskName⟩ = .ok path
  overlay : ∃ disk, s.rootDisk cfg = some disk ∧ Overlay cfg s disk
  reserved : ∃ mac, d.xml.interfaces.map DomainInterface.mac = [some mac] ∧ Reserved cfg s mac

/-- **The machine's domain is completely set up**: it is built, and starts
with its host. The second is a call of its own, after the definition. -/
def SetUp (cfg : MachineConfig) (s : Host) : Prop :=
  ∃ d, s.domains.lookup cfg.domainName = some d ∧ Built cfg s d ∧ d.autostart = true

/-! ## Before the domain is defined -/

/-- **What an attempt starts from**: there is no domain, and the root disk, if
it is there, is an overlay of the base image. -/
structure Prepared (cfg : MachineConfig) (s : Host) : Prop where
  absent : s.domains.lookup cfg.domainName = none
  overlay : ∀ disk, s.rootDisk cfg = some disk → Overlay cfg s disk

/-- The calls that concern neither domains nor the root disk, and delete no
volume. -/
def LibvirtOp.Prepares (cfg : MachineConfig) (o : LibvirtOp) : Prop :=
  o.touchesDomains = false ∧ (∀ vol flags, o ≠ .deleteVol vol flags)
  ∧ ∀ pool xml flags, o = .storageVolCreateXML pool xml flags →
    ¬ (cfg.domainPool = pool.name ∧ cfg.domainDiskName = xml.name)

/-- A call of `SetAutostart` that failed. -/
def failedSetAutostart : Event LibvirtSig → Bool
  | ⟨.setAutostart _ _, .error _⟩ => true
  | _ => false

section Steps

variable {cfg : MachineConfig} {s s' : Host} {tr : List (Event LibvirtSig)}

theorem LibvirtOp.prepares_of_asksStorage {o : LibvirtOp} (h : o.asksStorage = true) :
    o.Prepares cfg := by
  cases o <;> first
    | cases h; done
    | exact ⟨rfl, (fun _ _ h => nomatch h), fun _ _ _ h => nomatch h⟩

theorem LibvirtOp.prepares_of_streams {o : LibvirtOp} (h : o.streams = true) :
    o.Prepares cfg := by
  cases o <;> first
    | cases h; done
    | exact ⟨rfl, (fun _ _ h => nomatch h), fun _ _ _ h => nomatch h⟩

/-- A program that does not set a domain to start with its host does not fail
to. -/
theorem any_failedSetAutostart {α : Type} {p : Prog LibvirtSig α} {a : α}
    (hp : p.Calls fun o : LibvirtOp => ∀ dom autostart, o ≠ .setAutostart dom autostart)
    (h : Prog.Exec libvirtSem p s tr s' a) : tr.any failedSetAutostart = false := by
  rw [List.any_eq_false]
  intro ev hev hfail
  unfold failedSetAutostart at hfail
  split at hfail
  · exact hp.of_mem h hev _ _ rfl
  · cases hfail

/-- **What stays, in a step that prepares.** A step that failed half way
leaves nothing that a later attempt would take for the wrong thing. -/
theorem Prepared.exec {α : Type} {p : Prog LibvirtSig α} {a : α} (hs : Prepared cfg s)
    (hp : p.Calls (LibvirtOp.Prepares cfg)) (h : Prog.Exec libvirtSem p s tr s' a) :
    Prepared cfg s' := by
  refine hp.invariant (I := Prepared cfg) (fun t o r t' ht ho hs => ?_) hs h
  refine ⟨by rw [libvirtSem_domains hs ho.1]; exact ht.absent, fun disk hdisk => ?_⟩
  rw [Host.rootDisk, libvirtSem_volume_xml hs ho.2.2
    fun vol flags h => absurd h (ho.2.1 vol flags)] at hdisk
  obtain ⟨basePath, hpath, rfl⟩ := ht.overlay disk hdisk
  exact ⟨basePath, libvirtSem_getPath hs ho.2.1 hpath, rfl⟩

theorem getPath_of_prepares {α : Type} {p : Prog LibvirtSig α} {a : α} {vol : StorageVolRef}
    {path : String} (hp : p.Calls (LibvirtOp.Prepares cfg)) (h : Prog.Exec libvirtSem p s tr s' a)
    (hpath : s.storage.getPath vol = .ok path) : s'.storage.getPath vol = .ok path :=
  hp.invariant (I := fun t : Host => t.storage.getPath vol = .ok path)
    (fun _ _ _ _ ht ho hs => libvirtSem_getPath hs ho.2.1 ht) hpath h

/-- **A run of `createRootDisk`**: the disk is there already, or is made. -/
theorem createRootDisk_exec {r : Except GoError String} (hs : Prepared cfg s)
    (htarget : (s.storage.target cfg.domainPool).isSome)
    (h : Prog.Exec libvirtSem (createRootDisk ⟨cfg.basePool⟩ ⟨cfg.domainPool⟩ cfg).run s tr s' r) :
    Prepared cfg s' ∧ ∀ path, r = .ok path →
      s'.storage.getPath ⟨cfg.domainPool, cfg.domainDiskName⟩ = .ok path := by
  rcases Prog.exec_bind_except.mp h with ⟨e, hx, rfl⟩ | ⟨path, s₁, tr₁, tr₂, rfl, hx, h₁⟩
  · obtain ⟨rfl, -⟩ := getVolumePath_exec hx
    exact ⟨hs, fun _ h => nomatch h⟩
  obtain ⟨rfl, hpath⟩ := getVolumePath_exec hx
  rcases hpath path rfl with ⟨rfl, hv⟩ | ⟨hne, hget⟩
  swap
  · rw [if_pos hne] at h₁
    obtain ⟨rfl, rfl, rfl⟩ := h₁
    refine ⟨hs, fun path' hr => ?_⟩
    cases hr
    exact hget
  rw [if_neg (fun h => h rfl)] at h₁
  rcases Prog.exec_bind_except.mp h₁ with ⟨e, hx, rfl⟩ | ⟨basePath, s₂, tr₃, tr₄, rfl, hx, h₂⟩
  · obtain ⟨rfl, -⟩ := getVolumePath_exec hx
    exact ⟨hs, fun _ h => nomatch h⟩
  obtain ⟨rfl, hbase⟩ := getVolumePath_exec hx
  rcases hbase basePath rfl with ⟨rfl, -⟩ | ⟨hne, hbase⟩
  · -- there is no base image
    rw [if_pos rfl] at h₂
    obtain ⟨rfl, rfl, rfl⟩ := h₂
    exact ⟨hs, fun _ h => nomatch h⟩
  rw [if_neg hne] at h₂
  obtain ⟨r', hx, rfl⟩ := Prog.exec_adapt.mp h₂
  have hcalls : (createVolume ⟨cfg.domainPool⟩ (rootVolume cfg basePath)).run.Calls
      fun o : LibvirtOp => o.touchesDomains = false ∧ ∀ vol flags, o ≠ .deleteVol vol flags :=
    .bind_except (.adapt ⟨⟨rfl, fun _ _ h => nomatch h⟩, fun _ => trivial⟩) fun _ =>
      .adapt ⟨⟨rfl, fun _ _ h => nomatch h⟩, fun _ => trivial⟩
  change Prog.Exec libvirtSem (createVolume ⟨cfg.domainPool⟩ (rootVolume cfg basePath)).run _ _ _ _
    at hx
  obtain ⟨-, ⟨⟨e, rfl⟩, rfl, -⟩ | ⟨hv', -, hget⟩⟩ := createVolume_exec htarget hv.1 hx
  · exact ⟨hs, fun _ h => nomatch h⟩
  refine ⟨⟨?_, fun disk hdisk => ?_⟩, fun path hr => ?_⟩
  · rw [hcalls.keeps Host.domains (fun _ _ _ _ ho hs => libvirtSem_domains hs ho.1) hx]
    exact hs.absent
  · have heq : s'.rootDisk cfg = some (rootVolume cfg basePath) :=
      Option.map_eq_some_iff.mpr ⟨_, hv', rfl⟩
    cases heq.symm.trans hdisk
    exact ⟨basePath, hcalls.invariant
      (I := fun t : Host => t.storage.getPath ⟨cfg.basePool, cfg.baseImage⟩ = .ok basePath)
      (fun _ _ _ _ ht ho hs => libvirtSem_getPath hs ho.2 ht) hbase hx, rfl⟩
  · cases r' with
    | error e => cases hr
    | ok path' =>
      cases hr
      exact hget path rfl

end Steps

/-! ## An attempt -/

/-- **What holds between attempts**, when some call of `SetAutostart` has
failed or none has. A domain that is there was built, and starts with its host
unless that has failed. There is one domain in the life of a machine here,
since one that is there is never created again. -/
structure Building (cfg : MachineConfig) (failed : Bool) (s : Host) : Prop where
  overlay : ∀ disk, s.rootDisk cfg = some disk → Overlay cfg s disk
  built : ∀ d, s.domains.lookup cfg.domainName = some d →
    Built cfg s d ∧ d.autostart = !failed
  fresh : s.domains.lookup cfg.domainName = none → failed = false

section Attempt

variable {cfg : MachineConfig} {s s' : Host} {tr : List (Event LibvirtSig)}

theorem Prepared.building (h : Prepared cfg s) : Building cfg false s :=
  ⟨h.overlay, (fun _ hd => nomatch h.absent.symm.trans hd), fun _ => rfl⟩

theorem Building.prepared {failed : Bool} (h : Building cfg failed s)
    (habsent : s.domains.lookup cfg.domainName = none) : Prepared cfg s :=
  ⟨habsent, h.overlay⟩

/-- A domain that is there is set up exactly when nothing has failed. -/
theorem Building.setUp_iff {failed : Bool} (h : Building cfg failed s)
    (hpresent : s.present cfg.domainName = true) : SetUp cfg s ↔ failed = false := by
  obtain ⟨d, hd⟩ := Option.isSome_iff_exists.mp hpresent
  obtain ⟨hbuilt, hauto⟩ := h.built d hd
  constructor
  · rintro ⟨d', hd', -, hauto'⟩
    cases hd.symm.trans hd'
    rwa [hauto, Bool.not_eq_true'] at hauto'
  · rintro rfl
    exact ⟨d, hd, hbuilt, hauto⟩

/-- Another state of the domain, with what it was built from. -/
theorem Building.insert {failed failed' : Bool} {d d' : Domain} (h : Building cfg failed s)
    (hd : s.domains.lookup cfg.domainName = some d) (hxml : d'.xml = d.xml)
    (hdefined : d'.persistent = d.persistent) (hauto : d'.autostart = !failed') :
    Building cfg failed' { s with domains := s.domains.insert cfg.domainName d' } := by
  refine ⟨h.overlay, fun x hx => ?_, fun hx => ?_⟩
  · cases (AList.lookup_insert s.domains).symm.trans hx
    obtain ⟨hbuilt, -⟩ := h.built d hd
    refine ⟨⟨hdefined ▸ hbuilt.defined, ?_, hbuilt.overlay, ?_⟩, hauto⟩
    · rw [hxml]
      exact hbuilt.boots
    · rw [hxml]
      exact hbuilt.reserved
  · cases (AList.lookup_insert s.domains).symm.trans hx

/-- **Starting the domain** leaves it as it was built. -/
theorem Building.start {failed : Bool} {d : Domain} (h : Building cfg failed s)
    (hd : s.domains.lookup cfg.domainName = some d) :
    Building cfg failed { s with
      domains := s.domains.insert cfg.domainName { d with active := true, state := .running } } :=
  h.insert hd rfl rfl (h.built d hd).2

/-- **The last part of an attempt**: the domain is defined, set to start with
its host, and started. -/
theorem Prepared.defineAndStart {diskPath isoPath : String} {r : Except GoError Unit}
    (hs : Prepared cfg s)
    (hpath : s.storage.getPath ⟨cfg.domainPool, cfg.domainDiskName⟩ = .ok diskPath)
    (hres : Reserved cfg s cfg.mac)
    (h : Prog.Exec libvirtSem
      (defineAndStart cfg (machineDomain cfg diskPath isoPath)).run s tr s' r) :
    Building cfg (tr.any failedSetAutostart) s' := by
  rcases Prog.exec_bind_except.mp h with ⟨e, hx, rfl⟩ | ⟨dom, s₁, _, tr₂, rfl, hx, h₁⟩
  · obtain ⟨r', hx, hr⟩ := Prog.exec_adapt.mp hx
    obtain ⟨hd, rfl⟩ := Prog.exec_perform.mp hx
    rcases libvirtSem_domainDefineXML_new hs.absent hd with ⟨-, rfl⟩ | ⟨uuid, rfl, -⟩
    · exact hs.building
    · cases hr
  obtain ⟨hd, rfl⟩ := Prog.exec_perform.mp (Prog.exec_adapt_ok.mp hx)
  rcases libvirtSem_domainDefineXML_new hs.absent hd with ⟨⟨e, hr⟩, -⟩ | ⟨uuid, hr, rfl⟩
  · cases hr
  cases hr
  -- the domain is there, and does not start with its host
  let d : Domain := ⟨uuid, machineDomain cfg diskPath isoPath, true, false, .shutoff, false⟩
  let s₁ : Host := { s with domains := s.domains.insert cfg.domainName d }
  have hd : s₁.domains.lookup cfg.domainName = some d := AList.lookup_insert _
  have hbuilt : Built cfg s₁ d := by
    obtain ⟨_, v, -, hv, -⟩ := s.storage.getPath_eq_ok.mp hpath
    have hdisk : s.rootDisk cfg = some v.xml := Option.map_eq_some_iff.mpr ⟨v, hv, rfl⟩
    refine ⟨rfl, ⟨diskPath, rfl, hpath⟩, ⟨v.xml, hdisk, hs.overlay _ hdisk⟩, cfg.mac, ?_, hres⟩
    have hmac : cfg.mac ≠ "" := deriveDomainMAC_ne_empty _
    show [if cfg.mac = "" then none else some cfg.mac] = _
    rw [if_neg hmac]
  have hfailed : Building cfg true s₁ := by
    refine ⟨hs.overlay, fun x hx => ?_, fun hx => nomatch hd.symm.trans hx⟩
    cases hd.symm.trans hx
    exact ⟨hbuilt, rfl⟩
  change Prog.Exec libvirtSem _ s₁ tr₂ s' r at h₁
  rcases Prog.exec_bind_except.mp h₁ with ⟨e, hx, rfl⟩ | ⟨_, s₂, _, tr₃, rfl, hx, h₂⟩
  · obtain ⟨r', hx, hr⟩ := Prog.exec_adapt.mp hx
    obtain ⟨ha, rfl⟩ := Prog.exec_perform.mp hx
    rcases libvirtSem_setAutostart ha with ⟨⟨e', rfl⟩, rfl⟩ | ⟨rfl, -⟩
    · exact hfailed
    · cases hr
  obtain ⟨ha, rfl⟩ := Prog.exec_perform.mp (Prog.exec_adapt_ok.mp hx)
  rcases libvirtSem_setAutostart ha with ⟨⟨e', hr⟩, -⟩ | ⟨-, d', hd', -, rfl⟩
  · cases hr
  obtain ⟨hd', -⟩ := Domains.get_eq_some.mp hd'
  have hset : Building cfg false
      { s₁ with domains := s₁.domains.insert cfg.domainName { d' with autostart := true } } :=
    hfailed.insert hd' rfl rfl rfl
  obtain ⟨r', hx, hr⟩ := Prog.exec_adapt.mp h₂
  obtain ⟨hc, rfl⟩ := Prog.exec_perform.mp hx
  rcases libvirtSem_create hc with ⟨-, rfl⟩ | ⟨-, x, hget, -, rfl⟩
  · exact hset
  · exact hset.start (Domains.get_eq_some.mp hget).1

/-- **The steps before**: a step that prepares, and what comes after it. -/
theorem Building.bind_except {α : Type} {x : LibvirtM α} {f : α → LibvirtM Unit}
    {r : Except GoError Unit} (h : Prog.Exec libvirtSem (x >>= f).run s tr s' r)
    (hx : x.run.Calls fun o : LibvirtOp => o.touchesDomains = false)
    (hs : ∀ s₁ tr₁ r₁, Prog.Exec libvirtSem x.run s tr₁ s₁ r₁ → Prepared cfg s₁)
    (hf : ∀ a s₁ tr₁ tr₂, Prog.Exec libvirtSem x.run s tr₁ s₁ (.ok a) → Prepared cfg s₁ →
      Prog.Exec libvirtSem (f a).run s₁ tr₂ s' r →
      Building cfg (tr₂.any failedSetAutostart) s') :
    Building cfg (tr.any failedSetAutostart) s' := by
  have hquiet : x.run.Calls fun o : LibvirtOp => ∀ dom autostart, o ≠ .setAutostart dom autostart :=
    hx.mono fun o ho dom autostart heq => by
      subst heq
      cases ho
  rcases Prog.exec_bind_except.mp h with ⟨e, h₁, rfl⟩ | ⟨a, s₁, tr₁, tr₂, rfl, h₁, h₂⟩
  · rw [any_failedSetAutostart hquiet h₁]
    exact (hs _ _ _ h₁).building
  · rw [List.any_append, any_failedSetAutostart hquiet h₁, Bool.false_or]
    exact hf a s₁ tr₁ tr₂ h₁ (hs _ _ _ h₁) h₂

/-- **An attempt to create the machine**, from a host that is prepared.
Wherever it stops, either there is still no domain, or it is built. -/
theorem Prepared.createDomain {r : Except GoError Unit} (hs : Prepared cfg s)
    (h : Prog.Exec libvirtSem (createDomain cfg).run s tr s' r) :
    Building cfg (tr.any failedSetAutostart) s' := by
  have hq (o : LibvirtOp) (ho : o.asksStorage = true) : o.Prepares cfg :=
    o.prepares_of_asksStorage ho
  have hask {α : Type} {x : LibvirtM α} (hx : x.run.Calls (LibvirtOp.Prepares cfg)) :
      x.run.Calls fun o : LibvirtOp => o.touchesDomains = false := hx.mono fun _ ho => ho.1
  have hlookup (name : String) (f : GoError → GoError) :
      (ExceptT.adapt f (Conn.lookupStoragePoolByName name)).run.Calls (LibvirtOp.Prepares cfg) :=
    .adapt ⟨hq _ rfl, fun _ => trivial⟩
  have hiso : (createISODisk ⟨cfg.domainPool⟩ cfg).run.Calls (LibvirtOp.Prepares cfg) := by
    refine createISODisk_calls hq (fun xml hname => ⟨rfl, (fun _ _ h => nomatch h), ?_⟩)
      fun o ho => o.prepares_of_streams ho
    rintro _ _ _ heq ⟨-, hdisk⟩
    cases heq
    exact cfg.domainDiskName_ne_isoDiskName (hdisk.trans hname)
  -- the pools are there
  refine .bind_except h (hask (hlookup _ _)) (fun _ _ _ h₁ => hs.exec (hlookup _ _) h₁)
    fun pool s₁ _ _ h₁ hs₁ h => ?_
  obtain ⟨hx, -⟩ := Prog.exec_perform.mp (Prog.exec_adapt_ok.mp h₁)
  obtain rfl := libvirtSem_query hx rfl
  obtain ⟨rfl, htarget⟩ := libvirtSem_lookupStoragePoolByName_ok hx
  refine .bind_except h (hask (hlookup _ _)) (fun _ _ _ h₁ => hs₁.exec (hlookup _ _) h₁)
    fun basePool s₂ _ _ h₂ hs₂ h => ?_
  obtain ⟨hx, -⟩ := Prog.exec_perform.mp (Prog.exec_adapt_ok.mp h₂)
  obtain rfl := libvirtSem_query hx rfl
  obtain ⟨rfl, -⟩ := libvirtSem_lookupStoragePoolByName_ok hx
  -- the root disk
  refine .bind_except h (.adapt (createRootDisk_calls (fun o ho => (hq o ho).1) fun _ _ => rfl))
    (fun _ _ _ h₃ => ?_) fun diskPath s₃ _ _ h₃ hs₃ h => ?_
  · obtain ⟨r', h₃, -⟩ := Prog.exec_adapt.mp h₃
    exact (createRootDisk_exec hs₂ htarget h₃).1
  have hpath := (createRootDisk_exec hs₂ htarget (Prog.exec_adapt_ok.mp h₃)).2 diskPath rfl
  -- the cloud-init image
  refine .bind_except h (.adapt (hask hiso)) (fun _ _ _ h₄ => hs₃.exec (.adapt hiso) h₄)
    fun isoPath s₄ _ _ h₄ hs₄ h => ?_
  replace hpath := getPath_of_prepares hiso (Prog.exec_adapt_ok.mp h₄) hpath
  -- the host entry
  refine .bind_except h (.adapt ⟨rfl, fun _ => trivial⟩) (fun _ _ _ h₅ => ?_)
    fun net s₅ _ _ h₅ _ h => ?_
  · obtain ⟨r', h₅, -⟩ := Prog.exec_adapt.mp h₅
    obtain ⟨hx, -⟩ := Prog.exec_perform.mp h₅
    obtain rfl := libvirtSem_query hx rfl
    exact hs₄
  obtain ⟨hx, -⟩ := Prog.exec_perform.mp (Prog.exec_adapt_ok.mp h₅)
  obtain rfl := libvirtSem_query hx rfl
  obtain ⟨rfl, network, hnet⟩ := libvirtSem_lookupNetworkByName_ok hx
  refine .bind_except h (onNetwork_calls (fun _ => rfl) _) (fun _ _ _ h₆ => ?_)
    fun ip s₆ _ _ h₆ hs₆ h => ?_
  · obtain ⟨_, network', -, rfl⟩ := exec_onNetwork hnet h₆
    exact ⟨hs₄.absent, hs₄.overlay⟩
  obtain ⟨_, network', he, rfl⟩ := exec_onNetwork hnet h₆
  obtain ⟨e, hmem, hmac, -⟩ := exists_entry_of_reserve he
  exact hs₆.defineAndStart hpath
    ⟨network', Host.networks_setNetwork_self _ _ _, e, hmem, hmac⟩ h

/-! ### The operations of the provider -/

/-- **An operation on the host**, other than a deletion. The machine is created
only where the domain is not there. -/
theorem Building.provideOn {failed : Bool} {o : MachineOp} {r : o.Result}
    (h : Building o.cfg failed s) (hdelete : ∀ cfg, o ≠ .deleteMachine cfg)
    (hcreate : ∀ cfg, o = .createMachine cfg → s.present o.cfg.domainName = false)
    (he : Prog.Exec libvirtSem (provideOn o) s tr s' r) :
    Building o.cfg (failed || tr.any failedSetAutostart) s'
    ∧ (s.present o.cfg.domainName = true → s'.present o.cfg.domainName = true) := by
  cases o with
  | createMachine cfg =>
    have habsent : (s.domains.lookup cfg.domainName).isSome = false := hcreate cfg rfl
    have hnone : s.domains.lookup cfg.domainName = none := by simpa using habsent
    rw [h.fresh hnone, Bool.false_or]
    exact ⟨(h.prepared hnone).createDomain he, fun hp => nomatch habsent.symm.trans hp⟩
  | deleteMachine cfg => exact absurd rfl (hdelete cfg)
  | getMachineState cfg =>
    have hcalls : (getDomainState cfg.domainName).run.Calls fun o : LibvirtOp =>
        ∀ dom autostart, o ≠ .setAutostart dom autostart := by
      refine .lift_bind ⟨(fun _ _ h => nomatch h), fun _ => trivial⟩ fun found => ?_
      cases found with
      | error err =>
        dsimp only
        split <;> trivial
      | ok dom =>
        exact .bind_except (.adapt ⟨(fun _ _ h => nomatch h), fun _ => trivial⟩) fun _ => trivial
    rw [any_failedSetAutostart hcalls he, Bool.or_false]
    obtain rfl := getDomainState_exec he
    exact ⟨h, id⟩
  | startMachine cfg =>
    have hcalls : (startDomain cfg).run.Calls fun o : LibvirtOp =>
        ∀ dom autostart, o ≠ .setAutostart dom autostart :=
      .bind_except (.adapt ⟨(fun _ _ h => nomatch h), fun _ => trivial⟩) fun _ =>
        .adapt ⟨(fun _ _ h => nomatch h), fun _ => trivial⟩
    rw [any_failedSetAutostart hcalls he, Bool.or_false]
    rcases startDomain_exec he with ⟨-, rfl⟩ | ⟨-, d, hd, rfl⟩
    · exact ⟨h, id⟩
    · exact ⟨h.start hd, fun _ => Option.isSome_of_eq_some (AList.lookup_insert _)⟩
  | getMachineAddress cfg =>
    have hcalls : (machineAddressOn cfg).run.Calls fun o : LibvirtOp =>
        ∀ dom autostart, o ≠ .setAutostart dom autostart :=
      .bind_except (.adapt ⟨(fun _ _ h => nomatch h), fun _ => trivial⟩) fun _ =>
        onNetwork_calls (fun _ _ _ h => nomatch h) _
    rw [any_failedSetAutostart hcalls he, Bool.or_false]
    obtain rfl := machineAddressOn_exec he
    exact ⟨h, id⟩

end Attempt

/-! ### What a machine is built by -/

/-- What is looked at in a configuration when a machine is built. The object
may be edited between attempts, as long as these stay the same. -/
structure Plan where
  uri : String
  basePool : String
  domainPool : String
  network : String
  domainName : String
  baseImage : String
  diskSize : UInt64

/-- The plan in a configuration. -/
def MachineConfig.plan (cfg : MachineConfig) : Plan :=
  ⟨cfg.uri, cfg.basePool, cfg.domainPool, cfg.network, cfg.domainName, cfg.baseImage, cfg.diskSize⟩

section Plan

variable {cfg cfg' : MachineConfig} {s : Host}

/-- The rest of a configuration does not matter. -/
theorem Building.congr {failed : Bool} (h : Building cfg failed s) (hplan : cfg'.plan = cfg.plan) :
    Building cfg' failed s := by
  obtain ⟨⟨_, _, _, _, _⟩, _, _, _, _, _, _, _, _⟩ := cfg
  obtain ⟨⟨_, _, _, _, _⟩, _, _, _, _, _, _, _, _⟩ := cfg'
  cases hplan
  refine ⟨h.overlay, fun d hd => ?_, h.fresh⟩
  obtain ⟨hbuilt, hauto⟩ := h.built d hd
  exact ⟨⟨hbuilt.defined, hbuilt.boots, hbuilt.overlay, hbuilt.reserved⟩, hauto⟩

theorem isFor_plan {m : LibvirtMachine} {c : LibvirtCluster} (hcfg : cfg.IsFor m c) :
    cfg.plan = (newMachineConfig m c).plan := by
  unfold MachineConfig.IsFor at hcfg
  rw [hcfg]
  rfl

theorem plan_newMachineConfig {m m' : LibvirtMachine} (c : LibvirtCluster)
    (hname : m'.name = m.name) (hnmspace : m'.nmspace = m.nmspace)
    (himage : m'.spec.image = m.spec.image) (hdisk : m'.spec.diskGiB = m.spec.diskGiB) :
    (newMachineConfig m' c).plan = (newMachineConfig m c).plan := by
  simp only [MachineConfig.plan, newMachineConfig, domainName_congr hname hnmspace, himage, hdisk]

/-- No request changes the plan. -/
theorem plan_edit {o : ApiOp} {f : LibvirtMachine → LibvirtMachine} (h : o.edit = some f)
    (m : LibvirtMachine) (c : LibvirtCluster) :
    (newMachineConfig (f m) c).plan = (newMachineConfig m c).plan := by
  cases o <;> cases h <;> rfl

end Plan

/-! ## Reconciles -/

/-- A call of `SetAutostart` that failed, within a reconcile. -/
def failedSetAutostartIn : Event ManagerSig → Bool
  | ⟨.provider (.libvirt _ o), r⟩ => failedSetAutostart ⟨o, r⟩
  | _ => false

/-- **The calls of the controller on the hosts**, with a note whether a call
of `SetAutostart` has failed. The note is part of the meaning of the calls and
not of the program. -/
def setupSem : Sem ControllerSig (Management × Bool) :=
  Prog.semVia implement
    (Prog.recorded managerSem fun failed ev => failed || failedSetAutostartIn ev)

section Reconcile

variable {s s' : Management × Bool}

theorem foldl_or {α : Type} (f : α → Bool) (b : Bool) (l : List α) :
    l.foldl (fun b a => b || f a) b = (b || l.any f) := by
  induction l generalizing b with
  | nil => rw [List.any_nil, Bool.or_false, List.foldl_nil]
  | cons a l ih => rw [List.foldl_cons, ih, List.any_cons, Bool.or_assoc]

/-- **A reconcile of the manager**, and whether a call of `SetAutostart` has
failed by its end. -/
theorem exec_setup {outcome : Outcome} :
    (∃ tr, Prog.Exec managerSem manage s.1 tr s'.1 outcome
      ∧ s'.2 = (s.2 || tr.any failedSetAutostartIn)) ↔
    ∃ tr, Prog.Exec setupSem reconcile s tr s' outcome := by
  refine Iff.trans (exists_congr fun tr => ?_) Prog.exec_interp
  rw [Prog.exec_recorded, foldl_or]
  rfl

theorem setupSem_api {o : ApiOp} {r : o.Result} (h : setupSem s (.api o) r s') :
    apiSem s.1.api o r s'.1.api ∧ s'.1.world = s.1.world ∧ s'.2 = s.2 := by
  obtain ⟨tr, h⟩ := h
  obtain ⟨hx, hfailed⟩ := Prog.exec_recorded.mp h
  obtain ⟨hs, rfl⟩ := Prog.exec_perform.mp hx
  obtain ⟨a, ha, heq⟩ := managerSem_api.mp hs
  rw [heq]
  exact ⟨ha, rfl, hfailed.trans (Bool.or_false _)⟩

theorem setupSem_provider {o : MachineOp} {r : o.Result} (h : setupSem s (.provider o) r s') :
    ∃ tr, Prog.Exec providerSem (provide o) s.1.world tr s'.1.world r ∧ s'.1.api = s.1.api
      ∧ s'.2 = (s.2 || tr.any fun ev => failedSetAutostartIn (managerEvent ev)) := by
  obtain ⟨_, h⟩ := h
  obtain ⟨hx, hfailed⟩ := Prog.exec_recorded.mp h
  obtain ⟨tr, w, hw, rfl, heq⟩ := exec_provider.mp hx
  rw [foldl_or, List.any_map] at hfailed
  rw [heq]
  exact ⟨tr, hw, rfl, hfailed⟩

end Reconcile

/-- **An operation of the provider**, other than a deletion. -/
theorem Building.provide {failed : Bool} {o : MachineOp} {r : o.Result} {w w' : World} {host : ℕ}
    {tr : List (Event ProviderSig)} (h : Building o.cfg failed (w.hosts host))
    (hhost : w.hostOf o.cfg.uri = some host) (hdelete : ∀ cfg, o ≠ .deleteMachine cfg)
    (hcreate : ∀ cfg, o = .createMachine cfg → (w.hosts host).present o.cfg.domainName = false)
    (he : Prog.Exec providerSem (provide o) w tr w' r) :
    Building o.cfg (failed || tr.any fun ev => failedSetAutostartIn (managerEvent ev))
        (w'.hosts host)
    ∧ ((w.hosts host).present o.cfg.domainName = true →
        (w'.hosts host).present o.cfg.domainName = true)
    ∧ o.Shows r ((w'.hosts host).present o.cfg.domainName) := by
  rcases provide_exec he with ⟨rfl, ⟨e, rfl⟩, hfails⟩ | ⟨host', tr', t, hhost', hx, rfl, rfl⟩
  · refine ⟨?_, id, hfails.shows _⟩
    simpa [failedSetAutostartIn, managerEvent] using h
  cases hhost.symm.trans hhost'
  obtain ⟨hbuilding, hpresent⟩ := h.provideOn hdelete hcreate hx
  rw [World.hosts_setHost_self]
  refine ⟨?_, hpresent, provideOn_shows (E := fun _ _ => False) hx.disturb⟩
  rw [List.any_cons, List.any_map]
  exact hbuilding

/-! ### A machine that is not being deleted -/

/-- **What a reconcile knows of the domain**, of a machine that is not being
deleted. `absent` and `present` say that an answer is still right when it is
acted on, as nobody else changes the host. -/
structure Tends (cfg : MachineConfig) (c : LibvirtCluster) (host : ℕ) (q : Course)
    (s : Management × Bool) : Prop where
  serves : q.Serves c
    (fun m => (newMachineConfig m c).plan = cfg.plan ∧ m.deletionTimestamp = false) s.1.api
  hostOf : s.1.world.hostOf cfg.uri = some host
  building : Building cfg s.2 (s.1.world.hosts host)
  absent : q.state = some .notFound → q.asked = false →
    (s.1.world.hosts host).present cfg.domainName = false
  present : q.created = true ∨ (∃ state, q.state = some state ∧ state ≠ .notFound) →
    (s.1.world.hosts host).present cfg.domainName = true

section Tends

variable {cfg : MachineConfig} {c : LibvirtCluster} {host : ℕ} {q : Course}
  {s s' : Management × Bool}

theorem Tends.request (h : Tends cfg c host q s) {o : ApiOp} {r : o.Result}
    (hs : setupSem s (.api o) r s') : Tends cfg c host (q.next (.api o) r) s' := by
  obtain ⟨ha, hw, hf⟩ := setupSem_api hs
  obtain ⟨hserves, hhost, hbuilding, habsent, hpresent⟩ := h
  replace hserves := hserves.request (fun o f m hedit hm => by
    rw [plan_edit hedit, ApiOp.edit_deletionTimestamp hedit]
    exact hm) ha
  rw [← hw] at hhost hbuilding habsent hpresent
  rw [← hf] at hbuilding
  cases o with
  | getLibvirtMachine =>
    refine ⟨hserves, hhost, hbuilding, (fun h => nomatch h), fun h => ?_⟩
    rcases h with h | ⟨_, h, -⟩ <;> cases h
  | _ => exact ⟨hserves, hhost, hbuilding, habsent, hpresent⟩

theorem Tends.operate (h : Tends cfg c host q s) {o : MachineOp} {r : o.Result}
    (ho : q.Allows (.provider o)) (hs : setupSem s (.provider o) r s') :
    Tends cfg c host (q.next (.provider o) r) s' := by
  obtain ⟨tr, he, hapi, hfailed⟩ := setupSem_provider hs
  obtain ⟨m, cluster, c', hm, -, -, hc, hcfg, hgrants⟩ := ho
  obtain rfl := h.serves.seen c' hc
  obtain ⟨hplan, halive⟩ := h.serves.read m hm
  replace hplan : o.cfg.plan = cfg.plan := (isFor_plan hcfg).trans hplan
  have hname : o.cfg.domainName = cfg.domainName := congrArg Plan.domainName hplan
  have hdelete : ∀ cfg, o ≠ .deleteMachine cfg := by
    rintro cfg rfl
    cases halive.symm.trans hgrants.1
  have hcreate : ∀ cfg, o = .createMachine cfg →
      (s.1.world.hosts host).present o.cfg.domainName = false := by
    rintro _ rfl
    rw [hname]
    exact h.absent hgrants.2.2.1 hgrants.2.2.2.2
  have hhostOf : s.1.world.hostOf o.cfg.uri = some host := by
    rw [show o.cfg.uri = cfg.uri from congrArg Plan.uri hplan]
    exact h.hostOf
  obtain ⟨hbuilding, hkept, hshows⟩ :=
    (h.building.congr hplan).provide hhostOf hdelete hcreate he
  rw [hname] at hkept hshows
  refine ⟨hapi ▸ h.serves.operate o, ?_, hfailed ▸ hbuilding.congr hplan.symm, ?_, ?_⟩
  · rw [he.keeps World.hostOf fun _ _ _ _ => providerSem_hostOf]
    exact h.hostOf
  · intro hstate hasked
    cases o with
    | getMachineState cfg =>
      match r with
      | .error err => cases hstate
      | .ok state =>
        cases hstate
        exact Bool.eq_false_iff.mpr fun hp => (hshows _ rfl).mp hp rfl
    | getMachineAddress cfg => cases hgrants.2.symm.trans hstate
    | createMachine cfg | startMachine cfg | deleteMachine cfg => cases hasked
  · intro hup
    cases o with
    | getMachineState cfg =>
      rcases hup with hcreated | ⟨state, hstate, hne⟩
      · exact hkept (h.present (Or.inl hcreated))
      · match r with
        | .error err => cases hstate
        | .ok state' =>
          cases hstate
          exact (hshows _ rfl).mpr hne
    | createMachine cfg =>
      obtain ⟨-, -, hstate, -⟩ := hgrants
      rcases hup with hcreated | ⟨state, hstate', hne⟩
      · match r with
        | .ok () => exact hshows rfl
        | .error err =>
          rw [show (q.next (.provider (.createMachine cfg)) (.error err)).created = q.created from
            Bool.or_false _] at hcreated
          exact hkept (h.present (Or.inl hcreated))
      · cases hstate.symm.trans hstate'
        exact absurd rfl hne
    | startMachine cfg | getMachineAddress cfg | deleteMachine cfg => exact hkept (h.present hup)

/-- **A reconcile of a machine that is not being deleted** keeps what is
known, and ends with what it knows of the domain. -/
theorem Tends.reconcile {tr : List (Event ControllerSig)} {outcome : Outcome}
    (h : Tends cfg c host {} s) (he : Prog.Exec setupSem reconcile s tr s' outcome) :
    Tends cfg c host (courseMonitor.after {} tr) s' := by
  refine (reconcile_course.exec_after (R := Tends cfg c host) (fun q t o r t' ht ho hs => ?_)
    h he).1
  match o with
  | .api o => exact ht.request hs
  | .provider o => exact ht.operate ho hs

/-- What is up is there. -/
theorem Tends.present_of_provides (h : Tends cfg c host q s) (hq : q.Provides) :
    (s.1.world.hosts host).present cfg.domainName = true := by
  refine h.present ?_
  rcases hq with ⟨-, hcreated⟩ | ⟨hstate, -⟩ | hstate
  · exact Or.inl hcreated
  · exact Or.inr ⟨_, hstate, fun h => nomatch h⟩
  · exact Or.inr ⟨_, hstate, fun h => nomatch h⟩

/-- Between two reconciles nothing is known of the domain. -/
theorem Tends.forget (h : Tends cfg c host q s) : Tends cfg c host {} s where
  serves := h.serves.forget
  hostOf := h.hostOf
  building := h.building
  absent hstate := nomatch hstate
  present hup := by rcases hup with hup | ⟨_, hup, -⟩ <;> cases hup

end Tends

/-! ### A machine that is being deleted -/

/-- **The domain is not looked at**, of a machine that is being deleted. So
such a machine does not turn to provisioned, and nothing need be known of its
host. -/
structure Ending (q : Course) (s : Management × Bool) : Prop where
  stored : ∀ m, s.1.api.machine = some m → m.deletionTimestamp = true
  read : ∀ m, q.machine = some m → m.deletionTimestamp = true
  state : q.state = none

/-- Between two reconciles. -/
theorem Ending.rest {s : Management × Bool}
    (h : ∀ m, s.1.api.machine = some m → m.deletionTimestamp = true) : Ending {} s :=
  ⟨h, (fun _ h => nomatch h), rfl⟩

theorem Ending.step {q : Course} {s s' : Management × Bool} (h : Ending q s)
    {o : ControllerSig.Op} {r : ControllerSig.Ans o} (ho : q.Allows o)
    (hs : setupSem s o r s') : Ending (q.next o r) s' := by
  match o with
  | .provider o =>
    obtain ⟨-, -, hapi, -⟩ := setupSem_provider hs
    obtain ⟨m, cluster, c, hm, -, -, -, -, hgrants⟩ := ho
    have hdel := h.read m hm
    cases o with
    | deleteMachine cfg => exact ⟨hapi ▸ h.stored, h.read, h.state⟩
    | _ => cases hdel.symm.trans hgrants.1.deletion
  | .api o =>
    obtain ⟨ha, -, -⟩ := setupSem_api hs
    rcases apiSem_cases ha with heq | ⟨f, stored, hedit, hm, -, heq⟩
    · cases o with
      | getLibvirtMachine =>
        refine ⟨heq ▸ h.stored, fun m hm => ?_, rfl⟩
        cases r with
        | error err => cases hm
        | ok m' =>
          cases hm
          exact h.stored m ((apiSem_getLibvirtMachine ha).2 m rfl)
      | _ => exact ⟨heq ▸ h.stored, h.read, h.state⟩
    · refine (congrArg (Ending · s') (q.next_of_edit hedit)).mpr ⟨fun m' hm' => ?_, h.read, h.state⟩
      rw [heq] at hm'
      obtain rfl := LibvirtMachine.eq_of_stores hm'
      rw [ApiOp.edit_deletionTimestamp hedit]
      exact h.stored stored hm

/-! ### What is stored -/

/-- **What a reconcile knows of the stored object**: it is provisioned only if
it was when it was read, or the domain is up. -/
structure Reports (api : ApiState) (q : Course) (s : Management × Bool) : Prop where
  unread : q.machine = none → s.1.api = api
  read : ∀ m, q.machine = some m → api.machine = some m
  provisioned : ∀ m stored, q.machine = some m → s.1.api.machine = some stored →
    stored.status.provisioned = true → m.status.provisioned = true ∨ q.Provides

theorem Reports.step {api : ApiState} {q : Course} {s s' : Management × Bool}
    (h : Reports api q s) {o : ControllerSig.Op} {r : ControllerSig.Ans o} (ho : q.Allows o)
    (hs : setupSem s o r s') : Reports api (q.next o r) s' := by
  by_cases hread : o = .api .getLibvirtMachine
  · subst hread
    obtain ⟨ha, -, -⟩ := setupSem_api hs
    obtain ⟨heq, hfound⟩ := apiSem_getLibvirtMachine ha
    have hapi := h.unread ho
    match r with
    | .error err => exact ⟨fun _ => heq.trans hapi, (fun _ h => nomatch h), fun _ _ h => nomatch h⟩
    | .ok m =>
      have hm := hfound m rfl
      refine ⟨(fun h => nomatch h), fun m' hm' => ?_, fun m' stored hm' hstored hp => ?_⟩
      · cases hm'
        exact hapi ▸ hm
      · cases hm'
        rw [heq, hm] at hstored
        cases hstored
        exact Or.inl hp
  have hmachine := q.next_machine (r := r) hread
  obtain ⟨m, hm⟩ := Option.isSome_iff_exists.mp (ho.machine hread)
  refine ⟨fun hnone => ?_, hmachine ▸ h.read, fun m' stored hm' hstored hp => ?_⟩
  · cases hm.symm.trans (hmachine.symm.trans hnone)
  rw [hmachine] at hm'
  cases hm.symm.trans hm'
  have hkept (hstored : s.1.api.machine = some stored) :
      m.status.provisioned = true ∨ (q.next o r).Provides :=
    (h.provisioned m stored hm hstored hp).imp_right fun hq => hq.next ho hread
  match o with
  | .provider o =>
    obtain ⟨-, -, hapi, -⟩ := setupSem_provider hs
    exact hkept (hapi ▸ hstored)
  | .api o =>
    obtain ⟨ha, -, -⟩ := setupSem_api hs
    rcases apiSem_cases ha with heq | ⟨f, stored₀, hedit, hm₀, -, heq⟩
    · exact hkept (heq ▸ hstored)
    rw [heq] at hstored
    obtain rfl := LibvirtMachine.eq_of_stores hstored
    refine Or.imp_right (congrArg Course.Provides (q.next_of_edit hedit)).mpr ?_
    obtain ⟨before, after, err, hbefore, hexit, hf⟩ := ho.edit hedit
    cases hm.symm.trans hbefore
    rcases hf with rfl | rfl | rfl
    · exact h.provisioned m stored₀ hm hm₀ hp
    · exact h.provisioned m stored₀ hm hm₀ hp
    · rcases LibvirtMachine.provisioned_of_mergeStatus hp with hp | ⟨hp, -⟩
      · exact h.provisioned m stored₀ hm hm₀ hp
      · exact hexit.provides_of_provisioned hp

/-! ## Runs -/

/-- A reconcile of a run: what was stored before it, its course, what there is
after it, and whether a call of `SetAutostart` has failed by then, in this
reconcile or an earlier one. -/
structure Round where
  before : ApiState
  course : Course
  after : Management
  failed : Bool

/-- The reconcile turns the stored object to provisioned. -/
def Round.Turns (v : Round) : Prop :=
  ∃ m m', v.before.machine = some m ∧ v.after.api.machine = some m'
    ∧ m.status.provisioned = false ∧ m'.status.provisioned = true

/-- **A step**: a reconcile, in which any call may fail; or an edit of the
object that does not concern what the machine is built by. That the object is
being deleted is not taken back. -/
inductive SetupStep : Management × Bool → Option Round → Management × Bool → Prop where
  | reconcile {s s' : Management × Bool} {tr : List (Event ControllerSig)} {outcome : Outcome}
      (h : Prog.Exec setupSem reconcile s tr s' outcome) :
      SetupStep s (some ⟨s.1.api, courseMonitor.after {} tr, s'.1, s'.2⟩) s'
  | edit {s : Management × Bool} {m m' : LibvirtMachine} (hm : s.1.api.machine = some m)
      (hname : m'.name = m.name) (hnmspace : m'.nmspace = m.nmspace)
      (himage : m'.spec.image = m.spec.image) (hdisk : m'.spec.diskGiB = m.spec.diskGiB)
      (hdel : m.deletionTimestamp = true → m'.deletionTimestamp = true) :
      SetupStep s none ({ s.1 with api := { s.1.api with machine := m'.stores } }, s.2)

section Runs

variable {cfg : MachineConfig} {c : LibvirtCluster} {host : ℕ}

/-- What a reconcile has come to. -/
def Round.Sound (cfg : MachineConfig) (host : ℕ) (v : Round) : Prop :=
  (v.Turns → v.course.Provides)
  ∧ (v.course.Provides → (SetUp cfg (v.after.world.hosts host) ↔ v.failed = false))

theorem turns_provides {s s' : Management × Bool} {tr : List (Event ControllerSig)}
    {outcome : Outcome} (he : Prog.Exec setupSem reconcile s tr s' outcome)
    (h : Round.Turns ⟨s.1.api, courseMonitor.after {} tr, s'.1, s'.2⟩) :
    (courseMonitor.after {} tr).Provides := by
  obtain ⟨m, m', hm, hm', hnot, hp⟩ := h
  have hinit : Reports s.1.api {} s :=
    ⟨fun _ => rfl, (fun _ h => nomatch h), fun _ _ h => nomatch h⟩
  obtain ⟨hunread, hread, hprov⟩ := (reconcile_course.exec_after (R := Reports s.1.api)
    (fun _ _ _ _ _ ht ho hs => ht.step ho hs) hinit he).1
  cases hq : (courseMonitor.after {} tr).machine with
  | none =>
    -- nothing was read, and nothing was written
    rw [hunread hq] at hm'
    cases hm.symm.trans hm'
    cases hnot.symm.trans hp
  | some x =>
    cases hm.symm.trans (hread x hq)
    refine (hprov m m' hq hm' hp).resolve_left fun hx => ?_
    cases hnot.symm.trans hx

/-- **What every step keeps**, and what can be said of the reconcile it was,
if it was one. A machine that is being deleted stays so, hence the two cases. -/
theorem SetupStep.sound {s s' : Management × Bool} {v : Option Round}
    (h : Tends cfg c host {} s ∨ Ending {} s) (hs : SetupStep s v s') :
    (Tends cfg c host {} s' ∨ Ending {} s') ∧ ∀ x, v = some x → x.Sound cfg host := by
  cases hs with
  | reconcile he =>
    rcases h with h | h
    · have ht := h.reconcile he
      refine ⟨Or.inl ht.forget, fun x hx => ?_⟩
      cases hx
      exact ⟨turns_provides he, fun hq => ht.building.setUp_iff (ht.present_of_provides hq)⟩
    · have ht := (reconcile_course.exec_after (R := Ending)
        (fun _ _ _ _ _ ht ho hs => ht.step ho hs) h he).1
      refine ⟨Or.inr (.rest ht.stored), fun x hx => ?_⟩
      cases hx
      refine ⟨turns_provides he, fun hq => ?_⟩
      simp [Course.Provides, ht.state] at hq
  | edit hm hname hnmspace himage hdisk hdel =>
    rename_i m m'
    refine ⟨?_, fun x hx => by cases hx⟩
    rcases h with h | h
    · cases hdel' : m'.deletionTimestamp with
      | false =>
        refine Or.inl { h with serves := h.serves.edit ⟨?_, hdel'⟩ }
        exact (plan_newMachineConfig c hname hnmspace himage hdisk).trans (h.serves.stored m hm).1
      | true =>
        refine Or.inr (.rest fun x hx => ?_)
        obtain rfl := LibvirtMachine.eq_of_stores hx
        exact hdel'
    · refine Or.inr (.rest fun x hx => ?_)
      obtain rfl := LibvirtMachine.eq_of_stores hx
      exact hdel (h.stored m hm)

/-- **A machine that is provisioned is set up exactly when no call of
`SetAutostart` has failed so far.** At first nothing of the machine is on its
host; any call of any reconcile may fail, and the object may be edited between
reconciles. Whenever a reconcile turns the stored object to provisioned, it has
created the domain, started it or found it running; and whenever it has, the
domain is set up if and only if no call of `SetAutostart` has failed. -/
theorem provisioned_setUp_iff {s₀ : Management} {m : LibvirtMachine} {vs : List (Option Round)}
    {s : Management × Bool} (hm : s₀.api.machine = some m) (hc : s₀.api.libvirtCluster = some c)
    (hhost : s₀.world.hostOf c.spec.uri = some host)
    (hclean : Clean (newMachineConfig m c) (s₀.world.hosts host))
    (hrun : Run SetupStep (s₀, false) vs s) {v : Round} (hv : some v ∈ vs) :
    (v.Turns → v.course.Provides)
    ∧ (v.course.Provides →
      (SetUp (newMachineConfig m c) (v.after.world.hosts host) ↔ v.failed = false)) := by
  have hdisk : (s₀.world.hosts host).rootDisk (newMachineConfig m c) = none := by
    rw [Host.rootDisk, hclean.rootDisk]
    rfl
  have hprepared : Prepared (newMachineConfig m c) (s₀.world.hosts host) :=
    ⟨hclean.domain, fun _ h => nomatch hdisk.symm.trans h⟩
  have hinit : Tends (newMachineConfig m c) c host {} (s₀, false) ∨ Ending {} (s₀, false) := by
    cases hdel : m.deletionTimestamp with
    | true =>
      refine Or.inr (.rest fun x hx => ?_)
      cases hm.symm.trans hx
      exact hdel
    | false =>
      refine Or.inl ⟨⟨hc, fun x hx => ?_, (fun _ h => nomatch h), fun _ h => nomatch h⟩, hhost,
        hprepared.building, (fun h => nomatch h), fun h => ?_⟩
      · cases hm.symm.trans hx
        exact ⟨rfl, hdel⟩
      · rcases h with h | ⟨_, h, -⟩ <;> cases h
  exact (hrun.forall_mem (I := fun t => Tends (newMachineConfig m c) c host {} t ∨ Ending {} t)
    (P := fun l => ∀ x, l = some x → x.Sound (newMachineConfig m c) host)
    (fun _ _ _ h hs => hs.sound h) hinit).2 _ hv v rfl

/-- What every step keeps with errors by value: the hosts are as they were, and
the object is the machine's. -/
structure Dormant (name : String) (s₀ s : Management) : Prop where
  world : s.world = s₀.world
  cluster : s.api.libvirtCluster = s₀.api.libvirtCluster
  stored : ∀ m, s.api.machine = some m → domainName m = name

/-- A reconcile finds out nothing about the domain: no operation that would
tell has succeeded, so that none of the exits which set the flag is taken. -/
theorem Dormant.reconcile {name : String} {s₀ : Management} {s s' : Management × Bool}
    {tr : List (Event ControllerSig)} {outcome : Outcome} (h : Dormant name s₀ s.1)
    (hunseen : ∀ c, s₀.api.libvirtCluster = some c → s₀.world.Unseen name c.spec.uri)
    (he : Prog.Exec setupSem reconcile s tr s' outcome) :
    Dormant name s₀ s'.1 ∧ ¬ (courseMonitor.after {} tr).Provides := by
  have hbegin : Standstill name s.1 {} s.1 := by
    refine .begin h.stored fun c hc => ?_
    rw [h.world]
    exact hunseen c (h.cluster ▸ hc)
  have hq := (reconcile_course.exec_after
    (R := fun q t => Standstill name s.1 q.toSeen t.1) ?_ hbegin he).1
  · refine ⟨⟨hq.world.trans h.world, hq.cluster.trans h.cluster, hq.stored⟩, fun hprovides => ?_⟩
    simp [Course.Provides, hq.state] at hprovides
  rintro q ⟨⟨api, w⟩, failed⟩ o r ⟨⟨api', w'⟩, failed'⟩ hq ho hs
  cases o with
  | api o =>
    obtain ⟨ha, hw, -⟩ := setupSem_api hs
    dsimp only at ha hw
    subst hw
    exact hq.request ho.seen ha
  | provider o =>
    obtain ⟨tr, hx, hapi, -⟩ := setupSem_provider hs
    dsimp only at hx hapi
    subst hapi
    have hseen : q.toSeen.Allows (.provider o) := Course.Allows.seen ho
    exact hq.operate hseen hx

end Runs

/-! ### Two runs -/

/-- A reconcile on the given choices, and all goes well from then on. -/
def roundOn (cs : List ManagementChoice) (s : Management) :
    Option (List (Event ManagerSig) × Management × Outcome) :=
  Prog.runWith managerStep calm manage s cs

theorem exists_setupStep {cs : List ManagementChoice} {s s' : Management}
    {tr : List (Event ManagerSig)} {outcome : Outcome} (h : roundOn cs s = some (tr, s', outcome))
    (failed : Bool) : ∃ q, SetupStep (s, failed)
      (some ⟨s.api, q, s', failed || tr.any failedSetAutostartIn⟩)
      (s', failed || tr.any failedSetAutostartIn) := by
  have hmanage : ∃ tr₁, Prog.Exec managerSem manage (s, failed).1 tr₁
      (s', failed || tr.any failedSetAutostartIn).1 outcome
      ∧ (s', failed || tr.any failedSetAutostartIn).2
        = ((s, failed).2 || tr₁.any failedSetAutostartIn) :=
    ⟨tr, Prog.exec_of_runWith h, rfl⟩
  obtain ⟨tr', he⟩ := exec_setup.mp hmanage
  exact ⟨_, .reconcile he⟩

/-- Whether the stored object is provisioned. -/
def Management.provisioned (s : Management) : Option Bool :=
  s.api.machine.map fun m => m.status.provisioned

theorem turns_of_provisioned {v : Round} {before : Management} (hbefore : v.before = before.api)
    (hnot : before.provisioned = some false) (hp : v.after.provisioned = some true) : v.Turns := by
  obtain ⟨m, hm, hmp⟩ := Option.map_eq_some_iff.mp hnot
  obtain ⟨m', hm', hmp'⟩ := Option.map_eq_some_iff.mp hp
  exact ⟨m, m', hbefore ▸ hm, hm', hmp, hmp'⟩

/-- **A machine is provisioned whose domain does not start with its host**, once
errors are recognised. The first attempt to create it fails to set that; the
next reconcile finds the domain and starts it. -/
theorem provisioned_not_setUp : ∃ vs s v, Run SetupStep (pointerManagement, false) vs s
    ∧ some v ∈ vs ∧ v.Turns
    ∧ ¬ SetUp sampleConfig (v.after.world.hosts 0) := by
  have hrun : ((roundOn [] pointerManagement).bind fun x =>
      (roundOn (List.replicate 43 calm ++ [outage]) x.2.1).bind fun y =>
        (roundOn [] y.2.1).map fun z => (y.2.1.provisioned, z.2.1.provisioned,
          ((z.2.1.world.hosts 0).domains.lookup (domainName sampleMachine)).map Domain.autostart))
      = some (some false, some true, some false) := by decide +kernel
  obtain ⟨⟨tr₁, s₁, o₁⟩, h₁, hrun⟩ := Option.bind_eq_some_iff.mp hrun
  obtain ⟨⟨tr₂, s₂, o₂⟩, h₂, hrun⟩ := Option.bind_eq_some_iff.mp hrun
  obtain ⟨⟨tr₃, s₃, o₃⟩, h₃, hout⟩ := Option.map_eq_some_iff.mp hrun
  obtain ⟨hp₂, hout⟩ := Prod.mk.injEq .. ▸ hout
  obtain ⟨hp₃, hauto⟩ := Prod.mk.injEq .. ▸ hout
  obtain ⟨d, hd, hnot⟩ := Option.map_eq_some_iff.mp hauto
  obtain ⟨q₁, hstep₁⟩ := exists_setupStep h₁ false
  obtain ⟨q₂, hstep₂⟩ := exists_setupStep h₂ (false || tr₁.any failedSetAutostartIn)
  obtain ⟨q₃, hstep₃⟩ := exists_setupStep h₃
    (false || tr₁.any failedSetAutostartIn || tr₂.any failedSetAutostartIn)
  refine ⟨_, _, _, .snoc (.snoc (.snoc (.nil _) hstep₁) hstep₂) hstep₃,
    List.mem_append_right _ (List.mem_singleton_self _), turns_of_provisioned rfl hp₂ hp₃, ?_⟩
  rintro ⟨d', hd', -, hset⟩
  cases hd.symm.trans hd'
  cases hnot.symm.trans hset

end LibvirtProvider
